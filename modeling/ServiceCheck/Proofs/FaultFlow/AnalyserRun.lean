import ServiceCheck.Proofs.FaultFlow.Analyser
import ServiceCheck.Proofs.FaultFlow.Termination

set_option autoImplicit false

namespace ServiceCheck

namespace Analyser

/-- What stays the same while some tasks are carried out, new scopes apart. -/
structure Keeps (m m' : Analyser) : Prop where
  wellFormed : m'.arena.WellFormed
  size_le : m.arena.size ≤ m'.arena.size
  current_eq : m'.current = m.current
  inlining_eq : m'.inlining = m.inlining
  trees_eq : m'.trees = m.trees
  escaped_eq : m'.escaped = m.escaped

theorem Keeps.refl {m : Analyser} (h : m.arena.WellFormed) : Keeps m m :=
  ⟨h, Nat.le_refl _, rfl, rfl, rfl, rfl⟩

theorem Keeps.trans {m m' m'' : Analyser} (h : Keeps m m') (h' : Keeps m' m'') : Keeps m m'' :=
  ⟨h'.wellFormed, Nat.le_trans h.size_le h'.size_le, h'.current_eq.trans h.current_eq,
    h'.inlining_eq.trans h.inlining_eq, h'.trees_eq.trans h.trees_eq,
    h'.escaped_eq.trans h.escaped_eq⟩

end Analyser

theorem FaultFlow.solicit_eq (ports : Dictionary OutputPort) (current : Nat)
    (operation port : String) (w : FaultFlow) :
    w.solicit ports current operation port =
      (solicited ports operation port).foldl
        (fun w fault => w.update (.throw current fault)) w := by
  rw [solicit, solicited]
  cases (Dictionary.get? ports port).bind (·.findOperation? operation) with
  | none => rfl
  | some o => simp only [List.foldl_map]

theorem FaultFlow.foldl_update {α : Type} (change : α → ScopeForest → ScopeForest)
    (items : List α) (w : FaultFlow) :
    items.foldl (fun w x => w.update (change x)) w =
      w.update fun f => items.foldl (fun f x => change x f) f := by
  induction items generalizing w with
  | nil => rfl
  | cons x rest ih => exact ih _

namespace Program

/-- The tasks are carried out, whatever there is to be done after them. -/
def Runs (p : Program) (tasks : List Task) (m m' : Analyser) : Prop :=
  ∀ rest, p.Steps (tasks ++ rest, m) (rest, m')

def Yields (p : Program) (tasks : List Task) (m : Analyser) (w : FaultFlow) : Prop :=
  ∃ m', p.Runs tasks m m' ∧ m.Keeps m' ∧ m'.flow = w

variable {p : Program} {t : Task} {tasks tasks' : List Task} {m m' m'' : Analyser}
  {w w' : FaultFlow}

/-- A step is a function of what there is to be done, so that there is one end at most. -/
theorem end_unique {c : List Task × Analyser} (h : p.Steps c ([], m)) (h' : p.Steps c ([], m')) :
    m' = m := by
  have hunique : Relator.RightUnique fun c c' => p.step c = some c' :=
    fun _ _ _ hb hc => Option.some.inj (hb.symm.trans hc)
  have hlast : ∀ {m : Analyser} {c}, p.Steps ([], m) c → c = ([], m) := fun hsteps => by
    rcases hsteps.cases_head with heq | ⟨c, hstep, -⟩
    · exact heq.symm
    · cases hstep
  rcases h.total_of_right_unique hunique h' with hsteps | hsteps
  · exact (Prod.mk.inj (hlast hsteps)).2
  · exact (Prod.mk.inj (hlast hsteps)).2.symm

theorem end_iff {c : List Task × Analyser} (h : p.Steps c ([], m)) :
    ∀ m', p.Steps c ([], m') ↔ m' = m :=
  fun _ => ⟨end_unique h, fun heq => heq ▸ h⟩

theorem Runs.nil : p.Runs [] m m := fun _ => .refl

theorem Runs.append (h : p.Runs tasks m m') (h' : p.Runs tasks' m' m'') :
    p.Runs (tasks ++ tasks') m m'' := by
  intro rest
  rw [List.append_assoc]
  exact (h _).trans (h' rest)

theorem Runs.of_perform (hperform : t.perform p m = some (tasks, m'))
    (h : p.Runs tasks m' m'') : p.Runs [t] m m'' := by
  intro rest
  refine .head ?_ (h rest)
  rw [List.singleton_append, step, hperform]
  rfl

theorem Yields.nil (h : m.arena.WellFormed) : p.Yields [] m m.flow :=
  ⟨m, .nil, .refl h, rfl⟩

theorem Yields.append (h : p.Yields tasks m w)
    (h' : ∀ m', m.Keeps m' → m'.flow = w → p.Yields tasks' m' w') :
    p.Yields (tasks ++ tasks') m w' := by
  obtain ⟨m', hruns, hkeeps, hflow⟩ := h
  obtain ⟨m'', hruns', hkeeps', hflow'⟩ := h' m' hkeeps hflow
  exact ⟨m'', hruns.append hruns', hkeeps.trans hkeeps', hflow'⟩

theorem Yields.of_perform (hperform : t.perform p m = some (tasks, m))
    (h : p.Yields tasks m w) : p.Yields [t] m w := by
  obtain ⟨m', hruns, hkeeps, hflow⟩ := h
  exact ⟨m', hruns.of_perform hperform, hkeeps, hflow⟩

/-- Tasks of one sort, one after the other, with an invariant of them. -/
theorem Yields.map {α : Type} {task : α → Task} {change : α → FaultFlow → FaultFlow}
    {items : List α} (I : Analyser → Prop)
    (hkept : ∀ x ∈ items, ∀ m m', I m → m.Keeps m' → m'.flow = change x m.flow → I m')
    (hdo : ∀ x ∈ items, ∀ m, m.arena.WellFormed → I m → p.Yields [task x] m (change x m.flow))
    (hm : m.arena.WellFormed) (hI : I m) :
    p.Yields (items.map task) m (items.foldl (fun w x => change x w) m.flow) := by
  induction items generalizing m with
  | nil => exact .nil hm
  | cons x rest ih =>
    refine (hdo x List.mem_cons_self m hm hI).append fun m' hkeeps hflow => ?_
    rw [List.foldl_cons, ← hflow]
    exact ih (fun y hy => hkept y (List.mem_cons_of_mem _ hy))
      (fun y hy => hdo y (List.mem_cons_of_mem _ hy)) hkeeps.wellFormed
      (hkept x List.mem_cons_self m m' hI hkeeps hflow)

section Arena

variable {scope : Nat}

/-- A task that changes a cell does to the forest what it does to the arena. -/
theorem yields_of_arena {arena : Arena} {id : Nat} {change : Scope → Scope}
    (hperform : t.perform p m = some ([], { m with arena })) (harena : arena.WellFormed)
    (hforest : arena.forest = m.arena.forest.modify id change) :
    p.Yields [t] m (m.flow.update (.modify id change)) := by
  refine ⟨{ m with arena }, Runs.of_perform hperform .nil, ⟨harena, ?_, rfl, rfl, rfl, rfl⟩, ?_⟩
  · exact Nat.le_of_eq (Arena.size_of_forest_modify hforest).symm
  · rw [Analyser.flow, hforest]
    rfl

theorem yields_throw (hm : m.arena.WellFormed) (hscope : scope < m.arena.size)
    (fault : ThrownFault) :
    p.Yields [.throw scope fault] m (m.flow.update (.throw scope fault)) := by
  obtain ⟨b, hb, hwell, hforest⟩ := hm.exists_throw hscope fault
  exact yields_of_arena (by rw [Task.perform, hb]; rfl) hwell hforest

theorem yields_handle (hm : m.arena.WellFormed) (hscope : scope < m.arena.size)
    (handler : String) :
    p.Yields [.handle scope handler] m
      (m.flow.update (.handle scope (FaultFlow.caughtFault handler))) := by
  obtain ⟨b, hb, hwell, hforest⟩ := hm.exists_handle hscope handler
  exact yields_of_arena (by rw [Task.perform, hb]; rfl) hwell hforest

theorem yields_settle (hm : m.arena.WellFormed) (hscope : scope < m.arena.size) :
    p.Yields [.settle scope] m (m.flow.update (.modify scope .settle)) := by
  obtain ⟨b, hb, hwell, hforest⟩ := hm.exists_settle hscope
  exact yields_of_arena (by rw [Task.perform, hb]; rfl) hwell hforest

theorem yields_throwAll (hm : m.arena.WellFormed) (hscope : scope < m.arena.size)
    (faults : List ThrownFault) :
    p.Yields (faults.map (.throw scope)) m
      (faults.foldl (fun w fault => w.update (.throw scope fault)) m.flow) :=
  .map (fun m => scope < m.arena.size)
    (fun _ _ _ _ hlt hkeeps _ => Nat.lt_of_lt_of_le hlt hkeeps.size_le)
    (fun fault _ _ hm hlt => yields_throw hm hlt fault) hm hscope

theorem yields_handleAll (hm : m.arena.WellFormed) (hscope : scope < m.arena.size)
    (handlers : List String) :
    p.Yields (handlers.map (.handle scope)) m (m.flow.handleAll scope handlers) :=
  .map (fun m => scope < m.arena.size)
    (fun _ _ _ _ hlt hkeeps _ => Nat.lt_of_lt_of_le hlt hkeeps.size_le)
    (fun handler _ _ hm hlt => yields_handle hm hlt handler) hm hscope

end Arena

section Visits

variable {stack : List String}

def YieldsReading (p : Program) (stack : List String) (s : Statement) : Prop :=
  ∀ m : Analyser, m.arena.WellFormed → m.current < m.arena.size → m.inlining = stack →
    p.Yields [.visit s] m (p.readFully ⟨stack, s⟩ m.current m.flow)

theorem yields_enter {parent : Nat} {body : Statement} (hbody : p.YieldsReading stack body)
    (hm : m.arena.WellFormed) (hparent : parent < m.arena.size) (hstack : m.inlining = stack) :
    p.Yields [.enter parent body] m
      (m.flow.within parent fun scope w => p.readFully ⟨stack, body⟩ scope w) := by
  obtain ⟨b, hb, hwell, hforest⟩ := hm.exists_addChild hparent
  have hsize : m.arena.size < b.size := by
    rw [← Arena.size_forest b, hforest, ScopeForest.size_addChild, Arena.size_forest]
    exact Nat.lt_succ_self _
  have hflow : FaultFlow.mk b.forest m.events = m.flow.update (.addChild parent) := by
    rw [hforest]
    rfl
  obtain ⟨m', hruns, hkeeps, hread⟩ :=
    hbody { m with arena := b, current := m.arena.size } hwell hsize hstack
  refine ⟨{ m' with current := m.current }, Runs.of_perform (by rw [Task.perform, hb]; rfl)
    (hruns.append (.of_perform rfl .nil)), ?_, ?_⟩
  · exact ⟨hkeeps.wellFormed, Nat.le_trans (Nat.le_of_lt hsize) hkeeps.size_le, rfl,
      hkeeps.inlining_eq, hkeeps.trees_eq, hkeeps.escaped_eq⟩
  · have hsame : m.flow.forest.size = m.arena.size := Arena.size_forest m.arena
    rw [FaultFlow.within, hsame, ← hflow]
    exact hread

theorem yields_attach {scope : Nat} {handlers : List Statement}
    (hhandlers : ∀ handler ∈ handlers, p.YieldsReading stack handler) (hm : m.arena.WellFormed)
    (hscope : scope < m.arena.size) (hstack : m.inlining = stack) :
    p.Yields [.attach scope handlers] m
      (handlers.foldl (fun u handler => u.within ((m.flow.forest.parent? scope).getD scope)
        fun scope u => p.readFully ⟨stack, handler⟩ scope u) m.flow) := by
  obtain ⟨c, hc⟩ := Arena.exists_cell hscope
  have hparent : m.flow.forest.parent? scope = c.parent :=
    (Arena.parent?_forest m.arena scope).trans (Arena.parent?_of_cell hc)
  have htarget : c.parent.getD scope < m.arena.size := by
    cases hcell : c.parent with
    | none => exact hscope
    | some parent => exact hm.lt_size_of_parent hscope hc hcell
  rw [hparent]
  refine .of_perform (by rw [Task.perform, hc]; rfl) ?_
  exact .map (fun m => c.parent.getD scope < m.arena.size ∧ m.inlining = stack)
    (fun _ _ _ _ hI hkeeps _ =>
      ⟨Nat.lt_of_lt_of_le hI.1 hkeeps.size_le, hkeeps.inlining_eq.trans hI.2⟩)
    (fun handler hmem _ hm hI => yields_enter (hhandlers handler hmem) hm hI.1 hI.2) hm
    ⟨htarget, hstack⟩

theorem yields_parts {current : Nat} {parts : List Statement}
    (hparts : ∀ part ∈ parts, p.YieldsReading stack part) (hm : m.arena.WellFormed)
    (hcurrent : m.current = current) (hlt : current < m.arena.size) (hstack : m.inlining = stack) :
    p.Yields (parts.map .visit) m
      (parts.foldl (fun w part => p.readFully ⟨stack, part⟩ current w) m.flow) :=
  .map (fun m => m.current = current ∧ current < m.arena.size ∧ m.inlining = stack)
    (fun _ _ _ _ hI hkeeps _ => ⟨hkeeps.current_eq.trans hI.1,
      Nat.lt_of_lt_of_le hI.2.1 hkeeps.size_le, hkeeps.inlining_eq.trans hI.2.2⟩)
    (fun part hmem m hm hI => by
      have hread := hparts part hmem m hm (hI.1.symm ▸ hI.2.1) hI.2.2
      rwa [hI.1] at hread) hm ⟨hcurrent, hlt, hstack⟩

theorem yields_call {id : String} {s : Statement} (hrole : s.faultRole = .calls id)
    (hbody : ∀ q, p.callee? id = some q → id ∉ stack → p.YieldsReading (id :: stack) q.body)
    (hm : m.arena.WellFormed) (hlt : m.current < m.arena.size) (hstack : m.inlining = stack) :
    p.Yields [.visit s] m
      (match p.callee? id with
      | none => m.flow
      | some q =>
        if id ∈ stack then m.flow.log ⟨.debug, "skipping recursive call to `" ++ id ++ "`", []⟩
        else p.readFully ⟨id :: stack, q.body⟩ m.current m.flow) := by
  have hperform : Task.perform p m (.visit s) = some (m.call p id) := by
    rw [Task.perform, hrole]
    rfl
  cases hq : p.callee? id with
  | none =>
    rw [Analyser.call, hq] at hperform
    exact .of_perform hperform (.nil hm)
  | some q =>
    have hname : q.id = id := by simpa using List.find?_some hq
    rw [Analyser.call, hq] at hperform
    simp only [hname, hstack] at hperform
    by_cases hid : id ∈ stack
    · simp only [hid, if_true] at hperform ⊢
      exact ⟨_, .of_perform hperform .nil, ⟨hm, Nat.le_refl _, rfl, rfl, rfl, rfl⟩, rfl⟩
    · simp only [hid, if_false] at hperform ⊢
      obtain ⟨m', hruns, hkeeps, hread⟩ :=
        hbody q hq hid { m with inlining := id :: stack } hm hlt rfl
      refine ⟨{ m' with inlining := stack }, .of_perform hperform (hruns.append ?_), ?_, hread⟩
      · refine .of_perform ?_ .nil
        rw [Task.perform, hkeeps.inlining_eq]
        rfl
      · exact ⟨hkeeps.wellFormed, hkeeps.size_le, hkeeps.current_eq, hstack.symm, hkeeps.trees_eq,
          hkeeps.escaped_eq⟩

/-- By the visits that a visit leads to. -/
theorem yieldsReading (p : Program) (v : Visit) : p.YieldsReading v.stack v.statement := by
  induction v using p.wellFounded_enters.induction with
  | _ v ih =>
    obtain ⟨stack, s⟩ := v
    have hinner : ∀ t ∈ s.faultRole.inner, p.YieldsReading stack t :=
      fun t ht => ih ⟨stack, t⟩ (.inner ht)
    intro m hm hlt hstack
    rw [p.readsAll_readFully, readOnce]
    cases hrole : s.faultRole with
    | calls id =>
      exact yields_call hrole (fun q hq hid => ih ⟨id :: stack, q.body⟩ (.call hrole hq hid)) hm
        hlt hstack
    | throws fault =>
      exact .of_perform (by rw [Task.perform, hrole]; rfl) (yields_throw hm hlt ⟨fault, none⟩)
    | solicits operation port =>
      refine .of_perform (by rw [Task.perform, hrole]; rfl) ?_
      simp only [FaultFlow.solicit_eq]
      exact yields_throwAll hm hlt _
    | opens body =>
      refine .of_perform (by rw [Task.perform, hrole]; rfl) ?_
      have hbody := hinner body (by rw [hrole]; exact List.mem_singleton_self _)
      exact yields_enter hbody hm hlt hstack
    | reads parts =>
      refine .of_perform (by rw [Task.perform, hrole]; rfl) ?_
      exact yields_parts (fun t ht => hinner t (by rw [hrole]; exact ht)) hm rfl hlt hstack
    | installs handlers =>
      refine .of_perform (by rw [Task.perform, hrole]; rfl) ?_
      -- the parent is looked up once all handlers are there
      have hcaught := @yields_handleAll p m m.current hm hlt (handlers.map (·.1))
      rw [List.map_map] at hcaught
      refine hcaught.append fun m' hkeeps hflow => ?_
      have hattach := @yields_attach p m' stack m.current (handlers.map (·.2))
        (fun t ht => hinner t (by rw [hrole]; exact ht)) hkeeps.wellFormed
        (Nat.lt_of_lt_of_le hlt hkeeps.size_le) (hkeeps.inlining_eq.trans hstack)
      rwa [List.foldl_map, hflow] at hattach

end Visits

section Resolving

variable {scope : Nat}

theorem yields_handUp (hm : m.arena.WellFormed) (hscope : scope < m.arena.size) :
    p.Yields [.handUp scope] m (m.flow.update (.handUp scope)) := by
  obtain ⟨c, hc⟩ := Arena.exists_cell hscope
  have hparent : m.arena.forest.parent? scope = c.parent :=
    (Arena.parent?_forest m.arena scope).trans (Arena.parent?_of_cell hc)
  have hthrown : m.arena.forest.thrown scope = Dictionary.values c.thrown := by
    rw [Arena.thrown_forest, Arena.thrown, hc]
    rfl
  cases hcell : c.parent with
  | none =>
    have hsame : m.flow.update (.handUp scope) = m.flow := by
      rw [FaultFlow.update, Analyser.flow, ScopeForest.handUp_of_root (hparent.trans hcell)]
    rw [hsame]
    exact .of_perform (by rw [Task.perform, hc, Option.map_some, hcell]) (.nil hm)
  | some parent =>
    have hup : m.flow.update (.handUp scope) =
        (Dictionary.values c.thrown).foldl (fun w fault => w.update (.throw parent fault))
          m.flow := by
      rw [FaultFlow.foldl_update, FaultFlow.update, Analyser.flow,
        ScopeForest.handUp_of_parent? (hparent.trans hcell), hthrown]
      rfl
    rw [hup]
    exact .of_perform (by rw [Task.perform, hc, Option.map_some, hcell])
      (yields_throwAll hm (hm.lt_size_of_parent hscope hc hcell) _)

theorem yields_resolveAll {scopes : List Nat}
    (hscopes : ∀ scope ∈ scopes, ∀ m' : Analyser, m'.arena.WellFormed →
      m'.arena.size = m.arena.size → p.Yields [.resolve scope] m' (m'.flow.update (.resolve scope)))
    (hm : m.arena.WellFormed) :
    p.Yields (scopes.map .resolve) m
      (m.flow.update fun f => scopes.foldl (fun f scope => f.resolve scope) f) := by
  rw [← FaultFlow.foldl_update]
  refine .map (fun m' => m'.arena.WellFormed ∧ m'.arena.size = m.arena.size)
    (fun scope _ m₁ m₂ hI hkeeps hflow => ⟨hkeeps.wellFormed, ?_⟩)
    (fun scope hmem m' _ hI => hscopes scope hmem m' hI.1 hI.2) hm ⟨hm, rfl⟩
  -- no scope is added, so that what bounds the depth stays
  have hforest : m₂.arena.forest = m₁.arena.forest.resolve scope :=
    congrArg FaultFlow.forest hflow
  rw [← Arena.size_forest, hforest,
    (ScopeForest.resolved_resolve hI.1.sound scope).links.size_eq, Arena.size_forest, hI.2]

/-- The scopes that are still to come bound the depth. -/
theorem yields_resolveUpTo (depth : Nat) {scope : Nat} {m : Analyser} (hm : m.arena.WellFormed)
    (hscope : scope < m.arena.size) (hdepth : m.arena.size ≤ scope + depth) :
    p.Yields [.resolve scope] m (m.flow.update (.resolve scope)) := by
  induction depth generalizing scope m with
  | zero => omega
  | succ depth ih =>
    obtain ⟨c, hc⟩ := Arena.exists_cell hscope
    have hchildren : m.arena.forest.children scope = c.children :=
      (Arena.children_forest m.arena scope).trans (Arena.children_of_cell hc)
    have hresolve : m.flow.update (.resolve scope) =
        ((m.flow.update fun f => c.children.foldl (fun f child => f.resolve child) f).update
          (.modify scope .settle)).update (.handUp scope) := by
      rw [FaultFlow.update, Analyser.flow, ScopeForest.resolve_eq hm.sound, hchildren]
      rfl
    have hinner : p.Yields (c.children.map .resolve) m
        (m.flow.update fun f => c.children.foldl (fun f child => f.resolve child) f) := by
      refine yields_resolveAll (fun child hchild m' hm' hsize => ?_) hm
      obtain ⟨hlt, hltSize⟩ := hm.lt_size_of_child hc hchild
      exact ih hm' (by omega) (by omega)
    rw [hresolve]
    refine .of_perform (by rw [Task.perform, hc]; rfl) (hinner.append fun m₁ hkeeps hflow => ?_)
    have hscope₁ : scope < m₁.arena.size := Nat.lt_of_lt_of_le hscope hkeeps.size_le
    have hsettled := @yields_settle p m₁ scope hkeeps.wellFormed hscope₁
    rw [hflow] at hsettled
    refine hsettled.append fun m₂ hkeeps' hflow' => ?_
    rw [← hflow']
    exact yields_handUp hkeeps'.wellFormed (Nat.lt_of_lt_of_le hscope₁ hkeeps'.size_le)

theorem yields_resolve (hm : m.arena.WellFormed) (hscope : scope < m.arena.size) :
    p.Yields [.resolve scope] m (m.flow.update (.resolve scope)) :=
  yields_resolveUpTo m.arena.size hm hscope (Nat.le_add_left _ _)

end Resolving

section Trees

/-- Statements that are read in a new root serve an operation. -/
theorem runs_plant (operation : Option String) (parts : List Statement)
    (hm : m.arena.WellFormed) (hstack : m.inlining = []) :
    ∃ m', p.Runs [.plant operation parts] m m' ∧ m'.arena.WellFormed ∧ m'.inlining = [] ∧
      m'.escaped = m.escaped ∧ m'.trees = m.trees ++ [⟨operation, m.arena.size⟩] ∧
      m'.flow = p.readRoot parts m.flow := by
  have hsize : m.arena.size < m.arena.addRoot.size := by simp [Arena.addRoot, Arena.size]
  obtain ⟨m', hruns, hkeeps, hflow⟩ := @yields_parts p
    { m with arena := m.arena.addRoot, current := m.arena.size } [] m.arena.size parts
    (fun part _ => p.yieldsReading ⟨[], part⟩) hm.addRoot rfl hsize hstack
  refine ⟨{ m' with trees := m.trees ++ [⟨operation, m.arena.size⟩] },
    Runs.of_perform rfl (hruns.append (.of_perform ?_ .nil)), hkeeps.wellFormed,
    hkeeps.inlining_eq.trans hstack, hkeeps.escaped_eq, rfl, ?_⟩
  · rw [Task.perform, hkeeps.trees_eq]
  · have hroot : Analyser.flow { m with arena := m.arena.addRoot, current := m.arena.size } =
        m.flow.update .addRoot := by
      rw [Analyser.flow, Arena.forest_addRoot]
      rfl
    have hscope : m.flow.forest.size = m.arena.size := Arena.size_forest m.arena
    simp only [readFully_main] at hflow
    rw [readRoot, hscope, ← hroot]
    exact hflow

theorem runs_branches (branches : List (Statement × Statement)) (hm : m.arena.WellFormed)
    (hstack : m.inlining = []) :
    ∃ m', p.Runs (branches.map fun branch => .branch branch.1 branch.2) m m' ∧
      m'.arena.WellFormed ∧ m'.escaped = m.escaped ∧
      (m'.trees, m'.flow) = p.readBranches m.trees branches m.flow := by
  induction branches generalizing m with
  | nil => exact ⟨m, .nil, hm, rfl, rfl⟩
  | cons branch rest ih =>
    obtain ⟨guard, body⟩ := branch
    rw [readBranches, List.map_cons, ← List.singleton_append]
    split
    case isTrue hskip =>
      obtain ⟨m', hruns, hwell, hescaped, hread⟩ := @ih (m.log _) hm hstack
      refine ⟨m', .append (.of_perform ?_ .nil) hruns, hwell, hescaped, hread⟩
      rw [Task.perform]
      exact if_pos hskip
    case isFalse hfirst =>
      obtain ⟨m₁, hplant, hwell₁, hstack₁, hescaped₁, htrees₁, hflow₁⟩ :=
        @runs_plant p m guard.inputOperation? [guard, body] hm hstack
      obtain ⟨m', hruns, hwell, hescaped, hread⟩ := ih hwell₁ hstack₁
      refine ⟨m', .append (.of_perform ?_ hplant) hruns, hwell, hescaped.trans hescaped₁, ?_⟩
      · rw [Task.perform]
        exact if_neg hfirst
      · have hscope : m.flow.forest.size = m.arena.size := Arena.size_forest m.arena
        rw [hread, htrees₁, hflow₁, ← hscope]
        rfl

theorem runs_mainTasks (p : Program) (body : Statement) :
    ∃ m, p.Runs (mainTasks body) .start m ∧ m.arena.WellFormed ∧ m.escaped = [] ∧
      (m.trees, m.flow) = p.readBody body := by
  have hflow : Analyser.start.flow = .start :=
    congrArg (FaultFlow.mk · #[]) Arena.forest_empty
  have hplant : ∀ operation, ∃ m, p.Runs [.plant operation [body]] .start m ∧
      m.arena.WellFormed ∧ m.escaped = [] ∧
        (m.trees, m.flow) =
          ([⟨operation, 0⟩], p.readMain 0 body (FaultFlow.start.update .addRoot)) := by
    intro operation
    obtain ⟨m, hruns, hwell, -, hescaped, htrees, hread⟩ :=
      @runs_plant p .start operation [body] Arena.wellFormed_empty rfl
    rw [hflow] at hread
    exact ⟨m, hruns, hwell, hescaped, Prod.ext htrees hread⟩
  cases body
  case inputChoice position branches =>
    have hbranches := @runs_branches p .start branches Arena.wellFormed_empty rfl
    rwa [hflow] at hbranches
  case requestResponse position id input output process => exact hplant (some id)
  all_goals exact hplant none

end Trees

section Reports

/-- What is reported of a program is what its analysis has come to. -/
structure Reported (p : Program) (m : Analyser) : Prop where
  diagnostics : p.faultReport.diagnostics =
    m.escaped.flatMap fun (operation, thrown) => p.operationFindings operation thrown
  thrown : p.faultReport.thrown =
    m.escaped.map fun (operation, thrown) => (operation, ThrownFault.names thrown)
  log : p.faultReport.log =
    m.events.toList ++ p.faultReport.lines.map fun line => ⟨.warn, line, []⟩

theorem runs_reports {trees : List ServedTree} {m : Analyser}
    (htrees : ∀ tree ∈ trees, tree.scope < m.arena.size) :
    p.Runs (trees.filterMap fun tree =>
        tree.operation.map fun operation => .report operation tree.scope) m
      { m with escaped := m.escaped ++ escaping trees m.arena.forest } := by
  induction trees generalizing m with
  | nil =>
    rw [escaping, List.filterMap_nil, List.filterMap_nil, List.append_nil]
    exact .nil
  | cons tree rest ih =>
    obtain ⟨c, hc⟩ := Arena.exists_cell (htrees tree List.mem_cons_self)
    have hthrown : m.arena.forest.thrown tree.scope = Dictionary.values c.thrown := by
      rw [Arena.thrown_forest, Arena.thrown, hc]
      rfl
    have hrest : ∀ other ∈ rest, other.scope < m.arena.size :=
      fun other hother => htrees other (List.mem_cons_of_mem _ hother)
    cases hop : tree.operation with
    | none =>
      rw [escaping, List.filterMap_cons_none (by rw [hop]; rfl),
        List.filterMap_cons_none (by rw [hop]; rfl)]
      exact ih hrest
    | some operation =>
      rw [escaping, List.filterMap_cons_some (by rw [hop]; rfl),
        List.filterMap_cons_some (by rw [hop]; rfl), ← List.singleton_append]
      refine .append (.of_perform (by rw [Task.perform, hc]; rfl) .nil) ?_
      have hnext := @ih
        { m with escaped := m.escaped ++ [(operation, Dictionary.values c.thrown)] } hrest
      rw [hthrown]
      rwa [List.append_assoc] at hnext

theorem runs_trees {m : Analyser} (hm : m.arena.WellFormed)
    (htrees : ∀ tree ∈ m.trees, tree.scope < m.arena.size) :
    ∃ m', p.Runs [.resolveTrees, .reportTrees] m m' ∧ m'.events = m.events ∧
      m'.escaped = m.escaped ++ escaping m.trees
        (m.trees.foldl (fun f tree => f.resolve tree.scope) m.arena.forest) := by
  obtain ⟨m₁, hruns, hkeeps, hflow⟩ : p.Yields ((m.trees.map (·.scope)).map .resolve) m _ := by
    refine yields_resolveAll (fun scope hscope m' hm' hsize => yields_resolve hm' ?_) hm
    obtain ⟨tree, htree, rfl⟩ := List.mem_map.mp hscope
    exact hsize ▸ htrees tree htree
  rw [List.map_map] at hruns
  have hforest : m₁.arena.forest =
      (m.trees.map (·.scope)).foldl (fun f scope => f.resolve scope) m.arena.forest :=
    congrArg FaultFlow.forest hflow
  rw [List.foldl_map] at hforest
  have hreports := @runs_reports p m₁.trees m₁ fun tree htree =>
    Nat.lt_of_lt_of_le (htrees tree (hkeeps.trees_eq ▸ htree)) hkeeps.size_le
  refine ⟨_, .append (.of_perform rfl hruns) (.of_perform rfl hreports),
    congrArg FaultFlow.events hflow, ?_⟩
  rw [hkeeps.escaped_eq, hkeeps.trees_eq, hforest]

/-- The analysis ends, and what it ends with is reported. -/
theorem exists_end (p : Program) : ∃ m, p.Steps p.start ([], m) ∧ p.Reported m := by
  have hstart := InOrder.start p
  rw [start] at hstart ⊢
  cases hmain : p.procedures.find? (·.isMain) with
  | none =>
    have hreport : p.faultReport = ⟨[], [], []⟩ := by rw [faultReport, hmain]
    exact ⟨.start, .refl, by rw [hreport]; rfl, by rw [hreport]; rfl, by rw [hreport]; rfl⟩
  | some main =>
    rw [hmain] at hstart
    obtain ⟨m, hruns, hwell, hescaped, hread⟩ := p.runs_mainTasks main.body
    have hsteps := hruns [.resolveTrees, .reportTrees]
    obtain ⟨m', hruns', hevents, hescaped'⟩ :=
      @runs_trees p m hwell (hstart.of_steps hsteps).served
    rw [hescaped, List.nil_append] at hescaped'
    refine ⟨m', hsteps.trans (hruns' []), ?_⟩
    constructor
    · rw [hescaped']
      simp only [faultReport, hmain, ← hread]
      rfl
    · rw [hescaped']
      simp only [faultReport, hmain, ← hread]
      rfl
    · rw [hevents]
      simp only [faultReport, hmain, ← hread]
      rfl

/-- At every point of the analysis the arena is well formed, all scopes that are named exist, the
current one among them while statements are visited and ever after, and the next task can be
carried out. A visit leaves the current scope and the procedures that are being read as they were.
The analysis has one end, and what it ends with is reported. -/
theorem analysis_in_order (p : Program) :
    (∀ tasks m, p.Steps p.start (tasks, m) →
      m.arena.WellFormed ∧
        (∀ t ∈ tasks, ∀ id : Nat, t.scope? = some id → id < m.arena.size) ∧
        (∀ s : Statement, .visit s ∈ tasks → m.current < m.arena.size) ∧
        (m.arena.size ≠ 0 → m.current < m.arena.size) ∧
        ∀ t rest, tasks = t :: rest → ∃ next m', t.perform p m = some (next, m')) ∧
    (∀ s rest m, p.Steps p.start (.visit s :: rest, m) →
      ∃ m', (∀ m'', p.Steps ([.visit s], m) ([], m'') ↔ m'' = m') ∧
        p.Steps (.visit s :: rest, m) (rest, m') ∧ m'.current = m.current ∧
        m'.inlining = m.inlining ∧ m'.flow = p.readFully ⟨m.inlining, s⟩ m.current m.flow) ∧
    ∃ m, (∀ m', p.Steps p.start ([], m') ↔ m' = m) ∧ p.Reported m := by
  obtain ⟨m, hend, hreport⟩ := p.exists_end
  refine ⟨fun tasks m hsteps => ?_, fun s rest m hsteps => ?_, m, end_iff hend, hreport⟩
  · have horder : InOrder tasks m := (InOrder.start p).of_steps hsteps
    refine ⟨horder.wellFormed, horder.named, fun s hs => horder.current_lt hs, horder.current, ?_⟩
    rintro t rest rfl
    obtain ⟨next, m', hperform, -⟩ := @InOrder.exists_perform p t rest m horder
    exact ⟨next, m', hperform⟩
  · have horder : InOrder (.visit s :: rest) m := (InOrder.start p).of_steps hsteps
    obtain ⟨m', hruns, hkeeps, hflow⟩ := p.yieldsReading ⟨m.inlining, s⟩ m horder.wellFormed
      (horder.current_lt List.mem_cons_self) rfl
    exact ⟨m', end_iff (hruns []), hruns rest, hkeeps.current_eq, hkeeps.inlining_eq, hflow⟩

end Reports

end Program

end ServiceCheck
