import Mathlib.Logic.Relation
import ServiceCheck.FaultFlow.Report
import ServiceCheck.Proofs.FaultFlow.Arena
import ServiceCheck.Proofs.FaultFlow.Semantics

/-!
The analysis of faults one task after the other. It walks through the program with a current scope
and the procedures that are being read, and changes an arena on the way. A task on a scope that
does not exist cannot be done. At every point of the analysis all scopes that are named exist, so
that there is no such task.
-/

set_option autoImplicit false

namespace ServiceCheck

/-- What is still to be done. To `attach` is to read handlers beside a scope, to `plant` to read
statements in a new root. -/
inductive Task where
  | visit (s : Statement)
  | throw (scope : Nat) (fault : ThrownFault)
  | handle (scope : Nat) (handler : String)
  | attach (scope : Nat) (handlers : List Statement)
  | enter (parent : Nat) (body : Statement)
  | leaveScope (saved : Nat)
  | leaveProcedure
  | branch (guard body : Statement)
  | plant (operation : Option String) (parts : List Statement)
  | serve (tree : ServedTree)
  | resolveTrees
  | resolve (scope : Nat)
  | settle (scope : Nat)
  | handUp (scope : Nat)
  | reportTrees
  | report (operation : String) (scope : Nat)

def Task.scope? : Task → Option Nat
  | .throw scope _ | .handle scope _ | .attach scope _ | .enter scope _ | .leaveScope scope
  | .resolve scope | .settle scope | .handUp scope | .report _ scope => some scope
  | .serve tree => some tree.scope
  | .visit _ | .leaveProcedure | .branch .. | .plant .. | .resolveTrees | .reportTrees => none

/-- The analysis between two tasks. Of the procedures that are being read the innermost stands
first. -/
structure Analyser where
  arena : Arena
  events : Array LogEvent
  current : Nat
  inlining : List String
  trees : List ServedTree
  escaped : List (String × List ThrownFault)

namespace Analyser

def start : Analyser := ⟨.empty, #[], 0, [], [], []⟩

def log (event : LogEvent) (m : Analyser) : Analyser := { m with events := m.events.push event }

def flow (m : Analyser) : FaultFlow := ⟨m.arena.forest, m.events⟩

def call (p : Program) (m : Analyser) (id : String) : List Task × Analyser :=
  match p.callee? id with
  | none => ([], m)
  | some q =>
    if q.id ∈ m.inlining then
      ([], m.log ⟨.debug, "skipping recursive call to `" ++ id ++ "`", []⟩)
    else ([.visit q.body, .leaveProcedure], { m with inlining := q.id :: m.inlining })

def visit (p : Program) (m : Analyser) : FaultRole → List Task × Analyser
  | .throws fault => ([.throw m.current ⟨fault, none⟩], m)
  | .opens body => ([.enter m.current body], m)
  | .solicits operation port =>
    ((FaultFlow.solicited p.firstOutputPorts operation port).map (.throw m.current), m)
  | .installs handlers =>
    (handlers.map (fun handler => .handle m.current handler.1) ++
      [.attach m.current (handlers.map (·.2))], m)
  | .calls id => m.call p id
  | .reads parts => (parts.map .visit, m)

end Analyser

/-- Carries out a task. What it leaves to be done comes before all other tasks. -/
def Task.perform (p : Program) (m : Analyser) : Task → Option (List Task × Analyser)
  | .visit s => some (m.visit p s.faultRole)
  | .throw scope fault => (m.arena.throw? scope fault).map fun arena => ([], { m with arena })
  | .handle scope handler =>
    (m.arena.handle? scope handler).map fun arena => ([], { m with arena })
  | .attach scope handlers =>
    m.arena.cells[scope]?.map fun c => (handlers.map (.enter (c.parent.getD scope)), m)
  | .enter parent body =>
    (m.arena.addChild? parent).map fun arena =>
      ([.visit body, .leaveScope m.current], { m with arena, current := m.arena.size })
  | .leaveScope saved => some ([], { m with current := saved })
  | .leaveProcedure => some ([], { m with inlining := m.inlining.tail })
  | .branch guard body =>
    let operation := guard.inputOperation?
    if operation.isSome && m.trees.any (·.operation = operation) then
      some ([], m.log ⟨.debug, "skipping repeated input choice guard",
        [("operation", "Some(" ++ Text.quoted (operation.getD "") ++ ")")]⟩)
    else some ([.plant operation [guard, body]], m)
  | .plant operation parts =>
    some (parts.map .visit ++ [.serve ⟨operation, m.arena.size⟩],
      { m with arena := m.arena.addRoot, current := m.arena.size })
  | .serve tree => some ([], { m with trees := m.trees ++ [tree] })
  | .resolveTrees => some (m.trees.map fun tree => .resolve tree.scope, m)
  | .resolve scope =>
    m.arena.cells[scope]?.map fun c =>
      (c.children.map .resolve ++ [.settle scope, .handUp scope], m)
  | .settle scope => (m.arena.settle? scope).map fun arena => ([], { m with arena })
  | .handUp scope =>
    m.arena.cells[scope]?.map fun c =>
      match c.parent with
      | none => ([], m)
      | some parent => ((Dictionary.values c.thrown).map (.throw parent), m)
  | .reportTrees =>
    some (m.trees.filterMap fun tree =>
      tree.operation.map fun operation => .report operation tree.scope, m)
  | .report operation scope =>
    m.arena.cells[scope]?.map fun c =>
      ([], { m with escaped := m.escaped ++ [(operation, Dictionary.values c.thrown)] })

namespace Program

def step (p : Program) : List Task × Analyser → Option (List Task × Analyser)
  | ([], _) => none
  | (t :: rest, m) => (t.perform p m).map fun (next, m) => (next ++ rest, m)

abbrev Steps (p : Program) : List Task × Analyser → List Task × Analyser → Prop :=
  Relation.ReflTransGen fun c c' => p.step c = some c'

def mainTasks : Statement → List Task
  | .inputChoice _ branches => branches.map fun branch => .branch branch.1 branch.2
  | .requestResponse position id input output process =>
    [.plant (some id) [.requestResponse position id input output process]]
  | body => [.plant none [body]]

def start (p : Program) : List Task × Analyser :=
  match p.procedures.find? (·.isMain) with
  | none => ([], .start)
  | some main => (mainTasks main.body ++ [.resolveTrees, .reportTrees], .start)

end Program

/-- What holds between two tasks: the arena is well formed, and the scopes that are named exist. A
current scope exists once there are scopes at all, and there are while statements are visited. -/
structure InOrder (tasks : List Task) (m : Analyser) : Prop where
  wellFormed : m.arena.WellFormed
  named : ∀ t ∈ tasks, ∀ id : Nat, t.scope? = some id → id < m.arena.size
  current : m.arena.size ≠ 0 → m.current < m.arena.size
  visiting : ∀ s : Statement, .visit s ∈ tasks → m.arena.size ≠ 0
  served : ∀ tree ∈ m.trees, tree.scope < m.arena.size

namespace InOrder

variable {p : Program} {t : Task} {rest next : List Task} {m m' : Analyser}

theorem current_lt {s : Statement} (h : InOrder rest m) (hs : .visit s ∈ rest) :
    m.current < m.arena.size := h.current (h.visiting s hs)

/-- A task that adds scopes at most leaves everything in order if what it names exists. -/
theorem next_of (h : InOrder (t :: rest) m) (harena : m'.arena.WellFormed)
    (hsize : m.arena.size ≤ m'.arena.size)
    (hnamed : ∀ u ∈ next, ∀ id : Nat, u.scope? = some id → id < m'.arena.size)
    (hcurrent : m'.current = m.current ∧ m'.arena.size = m.arena.size ∨
      m'.current < m'.arena.size)
    (hvisiting : ∀ s : Statement, .visit s ∈ next → m'.arena.size ≠ 0)
    (htrees : ∀ tree ∈ m'.trees, tree ∈ m.trees ∨ tree.scope < m'.arena.size) :
    InOrder (next ++ rest) m' where
  wellFormed := harena
  named u hu id hid := by
    rcases List.mem_append.mp hu with hu | hu
    · exact hnamed u hu id hid
    · exact Nat.lt_of_lt_of_le (h.named u (List.mem_cons_of_mem _ hu) id hid) hsize
  current hne := by
    rcases hcurrent with ⟨hcurrent, hsame⟩ | hlt
    · rw [hcurrent, hsame]
      exact h.current (hsame ▸ hne)
    · exact hlt
  visiting s hs := by
    rcases List.mem_append.mp hs with hs | hs
    · exact hvisiting s hs
    · have hne := h.visiting s (List.mem_cons_of_mem _ hs)
      omega
  served tree htree := by
    rcases htrees tree htree with hold | hlt
    · exact Nat.lt_of_lt_of_le (h.served tree hold) hsize
    · exact hlt

theorem next_same (h : InOrder (t :: rest) m)
    (hnamed : ∀ u ∈ next, ∀ id : Nat, u.scope? = some id → id < m.arena.size)
    (hvisiting : ∀ s : Statement, .visit s ∈ next → m.arena.size ≠ 0) :
    InOrder (next ++ rest) m :=
  h.next_of h.wellFormed (Nat.le_refl _) hnamed (.inl ⟨rfl, rfl⟩) hvisiting fun _ => .inl

theorem next_done (h : InOrder (t :: rest) m) (harena : m'.arena.WellFormed)
    (hsize : m'.arena.size = m.arena.size) (hcurrent : m'.current = m.current)
    (htrees : m'.trees = m.trees) : InOrder ([] ++ rest) m' :=
  h.next_of harena (Nat.le_of_eq hsize.symm) (by simp) (.inl ⟨hcurrent, hsize⟩) (by simp)
    fun _ htree => .inl (htrees ▸ htree)

theorem call (h : InOrder (t :: rest) m) (hne : m.arena.size ≠ 0) (id : String) :
    InOrder ((m.call p id).1 ++ rest) (m.call p id).2 := by
  rw [Analyser.call]
  split
  · exact h.next_done h.wellFormed rfl rfl rfl
  · split
    · exact h.next_done h.wellFormed rfl rfl rfl
    · exact h.next_of h.wellFormed (Nat.le_refl _) (by simp [Task.scope?]) (.inl ⟨rfl, rfl⟩)
        (fun _ _ => hne) fun _ => .inl

theorem visit {s : Statement} (h : InOrder (.visit s :: rest) m) :
    InOrder ((m.visit p s.faultRole).1 ++ rest) (m.visit p s.faultRole).2 := by
  have hlt := h.current_lt List.mem_cons_self
  have hne := h.visiting s List.mem_cons_self
  cases s.faultRole with
  | throws fault => exact h.next_same (by simp [Analyser.visit, Task.scope?, hlt]) fun _ _ => hne
  | opens body => exact h.next_same (by simp [Analyser.visit, Task.scope?, hlt]) fun _ _ => hne
  | solicits operation port =>
    exact h.next_same (by simp [Analyser.visit, Task.scope?, hlt]) fun _ _ => hne
  | installs handlers =>
    refine h.next_same (fun u hu id hid => ?_) fun _ _ => hne
    rcases List.mem_append.mp hu with hu | hu
    · obtain ⟨handler, -, rfl⟩ := List.mem_map.mp hu
      exact Option.some.inj hid ▸ hlt
    · obtain rfl := List.mem_singleton.mp hu
      exact Option.some.inj hid ▸ hlt
  | calls id => exact h.call hne id
  | reads parts => exact h.next_same (by simp [Analyser.visit, Task.scope?]) fun _ _ => hne

theorem exists_enter {parent : Nat} {body : Statement}
    (h : InOrder (.enter parent body :: rest) m) :
    ∃ next m', Task.perform p m (.enter parent body) = some (next, m') ∧
      InOrder (next ++ rest) m' := by
  have hparent : parent < m.arena.size := h.named _ List.mem_cons_self parent rfl
  obtain ⟨b, hb, hwell, hforest⟩ := h.wellFormed.exists_addChild hparent
  have hsize : b.size = m.arena.size + 1 := by
    rw [← Arena.size_forest b, hforest, ScopeForest.size_addChild, Arena.size_forest]
  have hcurrent : m.current < b.size := by
    have hlt := h.current (by omega)
    omega
  have hnew : m.arena.size < b.size := by omega
  rw [Task.perform, hb]
  refine ⟨_, _, rfl, h.next_of hwell (Nat.le_of_lt hnew) (fun u hu id hid => ?_) (.inr hnew)
    (fun _ _ => Nat.ne_zero_of_lt hnew) fun _ => .inl⟩
  simp only [List.mem_cons, List.not_mem_nil, or_false] at hu
  rcases hu with rfl | rfl
  · cases hid
  · exact Option.some.inj hid ▸ hcurrent

theorem plant {operation : Option String} {parts : List Statement}
    (h : InOrder (.plant operation parts :: rest) m) :
    InOrder ((parts.map .visit ++ [.serve ⟨operation, m.arena.size⟩]) ++ rest)
      { m with arena := m.arena.addRoot, current := m.arena.size } := by
  have hnew : m.arena.size < m.arena.addRoot.size := by simp [Arena.addRoot, Arena.size]
  refine h.next_of h.wellFormed.addRoot (Nat.le_of_lt hnew) (fun u hu id hid => ?_) (.inr hnew)
    (fun _ _ => Nat.ne_zero_of_lt hnew) fun _ => .inl
  rcases List.mem_append.mp hu with hu | hu
  · obtain ⟨part, -, rfl⟩ := List.mem_map.mp hu
    cases hid
  · obtain rfl := List.mem_singleton.mp hu
    exact Option.some.inj hid ▸ hnew

/-- In good order every task can be carried out, and what it leaves is in order again. -/
theorem exists_perform (h : InOrder (t :: rest) m) :
    ∃ next m', t.perform p m = some (next, m') ∧ InOrder (next ++ rest) m' := by
  have hnamed : ∀ id, t.scope? = some id → id < m.arena.size := h.named t List.mem_cons_self
  cases t with
  | visit s => exact ⟨_, _, rfl, h.visit⟩
  | enter parent body => exact h.exists_enter
  | plant operation parts => exact ⟨_, _, rfl, h.plant⟩
  | throw scope fault =>
    obtain ⟨b, hb, hwell, hforest⟩ := h.wellFormed.exists_throw (hnamed scope rfl) fault
    rw [Task.perform, hb]
    exact ⟨_, _, rfl, h.next_done hwell (Arena.size_of_forest_modify hforest) rfl rfl⟩
  | handle scope handler =>
    obtain ⟨b, hb, hwell, hforest⟩ := h.wellFormed.exists_handle (hnamed scope rfl) handler
    rw [Task.perform, hb]
    exact ⟨_, _, rfl, h.next_done hwell (Arena.size_of_forest_modify hforest) rfl rfl⟩
  | settle scope =>
    obtain ⟨b, hb, hwell, hforest⟩ := h.wellFormed.exists_settle (hnamed scope rfl)
    rw [Task.perform, hb]
    exact ⟨_, _, rfl, h.next_done hwell (Arena.size_of_forest_modify hforest) rfl rfl⟩
  | attach scope handlers =>
    have hscope := hnamed scope rfl
    obtain ⟨c, hc⟩ := Arena.exists_cell hscope
    have htarget : c.parent.getD scope < m.arena.size := by
      cases hparent : c.parent with
      | none => exact hscope
      | some parent => exact h.wellFormed.lt_size_of_parent hscope hc hparent
    rw [Task.perform, hc]
    exact ⟨_, _, rfl, h.next_same (by simp [Task.scope?, htarget]) (by simp)⟩
  | leaveScope saved =>
    exact ⟨_, _, rfl, h.next_of h.wellFormed (Nat.le_refl _) (by simp)
      (.inr (hnamed saved rfl)) (by simp) fun _ => .inl⟩
  | leaveProcedure => exact ⟨_, _, rfl, h.next_done h.wellFormed rfl rfl rfl⟩
  | branch guard body =>
    rw [Task.perform]
    split
    · exact ⟨_, _, rfl, h.next_done h.wellFormed rfl rfl rfl⟩
    · exact ⟨_, _, rfl, h.next_same (by simp [Task.scope?]) (by simp)⟩
  | serve tree =>
    refine ⟨_, _, rfl, h.next_of h.wellFormed (Nat.le_refl _) (by simp) (.inl ⟨rfl, rfl⟩) (by simp)
      fun other hother => ?_⟩
    rcases List.mem_append.mp hother with hold | hnew
    · exact .inl hold
    · exact .inr (List.mem_singleton.mp hnew ▸ hnamed tree.scope rfl)
  | resolveTrees =>
    refine ⟨_, _, rfl, h.next_same (fun u hu id hid => ?_) (by simp)⟩
    obtain ⟨tree, htree, rfl⟩ := List.mem_map.mp hu
    exact Option.some.inj hid ▸ h.served tree htree
  | resolve scope =>
    have hscope := hnamed scope rfl
    obtain ⟨c, hc⟩ := Arena.exists_cell hscope
    rw [Task.perform, hc]
    refine ⟨_, _, rfl, h.next_same (fun u hu id hid => ?_) (by simp)⟩
    rcases List.mem_append.mp hu with hu | hu
    · obtain ⟨child, hchild, rfl⟩ := List.mem_map.mp hu
      exact Option.some.inj hid ▸ (h.wellFormed.lt_size_of_child hc hchild).2
    · simp only [List.mem_cons, List.not_mem_nil, or_false] at hu
      rcases hu with rfl | rfl
      · exact Option.some.inj hid ▸ hscope
      · exact Option.some.inj hid ▸ hscope
  | handUp scope =>
    have hscope := hnamed scope rfl
    obtain ⟨c, hc⟩ := Arena.exists_cell hscope
    rw [Task.perform, hc]
    cases hparent : c.parent with
    | none => exact ⟨_, _, by rw [Option.map_some, hparent], h.next_same (by simp) (by simp)⟩
    | some parent =>
      have hlt := h.wellFormed.lt_size_of_parent hscope hc hparent
      exact ⟨_, _, by rw [Option.map_some, hparent],
        h.next_same (by simp [Task.scope?, hlt]) (by simp)⟩
  | reportTrees =>
    refine ⟨_, _, rfl, h.next_same (fun u hu id hid => ?_) (by simp)⟩
    obtain ⟨tree, htree, hu⟩ := List.mem_filterMap.mp hu
    obtain ⟨operation, -, rfl⟩ := Option.map_eq_some_iff.mp hu
    exact Option.some.inj hid ▸ h.served tree htree
  | report operation scope =>
    obtain ⟨c, hc⟩ := Arena.exists_cell (hnamed scope rfl)
    rw [Task.perform, hc]
    exact ⟨_, _, rfl, h.next_done h.wellFormed rfl rfl rfl⟩

theorem of_step {c c' : List Task × Analyser} (h : InOrder c.1 c.2) (hstep : p.step c = some c') :
    InOrder c'.1 c'.2 := by
  obtain ⟨tasks, m⟩ := c
  cases tasks with
  | nil => cases hstep
  | cons t rest =>
    obtain ⟨next, m', hperform, hnext⟩ := @exists_perform p t rest m h
    rw [Program.step, hperform] at hstep
    cases hstep
    exact hnext

theorem of_steps {c c' : List Task × Analyser} (h : InOrder c.1 c.2) (hsteps : p.Steps c c') :
    InOrder c'.1 c'.2 := by
  induction hsteps with
  | refl => exact h
  | tail _ hstep ih => exact ih.of_step hstep

theorem start (p : Program) : InOrder p.start.1 p.start.2 := by
  have hidle : ∀ t ∈ p.start.1, t.scope? = none ∧ ∀ s : Statement, t ≠ .visit s := by
    rw [Program.start]
    cases p.procedures.find? (·.isMain) with
    | none => simp
    | some main =>
      intro t ht
      rcases List.mem_append.mp ht with ht | ht
      · unfold Program.mainTasks at ht
        split at ht
        · obtain ⟨branch, -, rfl⟩ := List.mem_map.mp ht
          exact ⟨rfl, nofun⟩
        all_goals
          obtain rfl := List.mem_singleton.mp ht
          exact ⟨rfl, nofun⟩
      · simp only [List.mem_cons, List.not_mem_nil, or_false] at ht
        rcases ht with rfl | rfl
        · exact ⟨rfl, nofun⟩
        · exact ⟨rfl, nofun⟩
  have hm : p.start.2 = .start := by
    rw [Program.start]
    cases p.procedures.find? (·.isMain) <;> rfl
  rw [hm]
  refine ⟨Arena.wellFormed_empty, fun t ht id hid => ?_, fun hne => (hne rfl).elim,
    fun s hs => ((hidle _ hs).2 s rfl).elim, nofun⟩
  rw [(hidle t ht).1] at hid
  cases hid

end InOrder

end ServiceCheck
