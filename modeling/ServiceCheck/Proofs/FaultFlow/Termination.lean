import Mathlib.Data.Finset.Card
import Mathlib.Order.WellFounded
import ServiceCheck.Program.Construction
import ServiceCheck.Proofs.FaultFlow.Escaping
import ServiceCheck.Proofs.FaultFlow.Survival

/-!
The analysis of faults needs no budget. Reading a statement goes on to statements inside it, or to
the body of a procedure that is not being read yet. Each such step enters one procedure more or
leaves the procedures as they are and goes on to a smaller statement. Resolving a scope goes on to
scopes of larger numbers.
-/

set_option autoImplicit false

namespace ServiceCheck

/-- A statement under the procedures that are being read, the innermost first. -/
structure Visit where
  stack : List String
  statement : Statement

namespace Program

variable (p : Program)

inductive Enters : Visit → Visit → Prop where
  | inner {stack : List String} {s t : Statement} : t ∈ s.faultRole.inner →
    Enters ⟨stack, s⟩ ⟨stack, t⟩
  | call {stack : List String} {s : Statement} {id : String} {q : Procedure} :
    s.faultRole = .calls id → p.callee? id = some q → id ∉ stack →
    Enters ⟨stack, s⟩ ⟨id :: stack, q.body⟩

noncomputable def measure (v : Visit) : Nat × Nat :=
  ((p.enterable v.stack).length, sizeOf v.statement)

def procedureIds : List String := (p.procedures.filter (!·.isMain)).map (·.id)

abbrev Reading := Visit → Nat → FaultFlow → FaultFlow

/-- One visit, where a reading carries out the visits that it leads to. -/
def readOnce (read : Reading) (v : Visit) (current : Nat) (w : FaultFlow) : FaultFlow :=
  match v.statement.faultRole with
  | .throws fault => w.update (.throw current ⟨fault, none⟩)
  | .opens body => w.within current fun scope w => read ⟨v.stack, body⟩ scope w
  | .solicits operation port => w.solicit p.firstOutputPorts current operation port
  | .installs handlers =>
    let w := w.handleAll current (handlers.map (·.1))
    handlers.foldl (fun u handler => u.within ((w.forest.parent? current).getD current)
      fun scope u => read ⟨v.stack, handler.2⟩ scope u) w
  | .calls id =>
    match p.callee? id with
    | none => w
    | some q =>
      if id ∈ v.stack then w.log ⟨.debug, "skipping recursive call to `" ++ id ++ "`", []⟩
      else read ⟨id :: v.stack, q.body⟩ current w
  | .reads parts => parts.foldl (fun w t => read ⟨v.stack, t⟩ current w) w

/-- A reading that carries out every visit by itself, without a bound on their number. -/
def ReadsAll (read : Reading) : Prop := read = p.readOnce read

variable {p}

theorem Enters.measure_lt {v v' : Visit} (h : p.Enters v v') :
    Prod.Lex (· < ·) (· < ·) (p.measure v') (p.measure v) := by
  cases h with
  | inner ht => exact .right _ (Statement.sizeOf_lt_of_mem_inner ht)
  | call _ hq hid => exact .left _ _ (length_enterable_cons (mem_enterable hq hid))

theorem wellFounded_enters (p : Program) : WellFounded fun v' v => p.Enters v v' :=
  Subrelation.wf Enters.measure_lt
    (InvImage.wf p.measure (WellFounded.prod_lex Nat.lt_wfRel.wf Nat.lt_wfRel.wf))

theorem mem_procedureIds {id : String} {q : Procedure} (hq : p.callee? id = some q) :
    id ∈ p.procedureIds := by
  have hid : q.id = id := by simpa using List.find?_some hq
  rw [← hid]
  exact List.mem_map_of_mem (List.mem_of_find?_eq_some hq)

/-- No procedure is entered twice, and only procedures of the program are. -/
structure StackSound (p : Program) (stack : List String) : Prop where
  nodup : stack.Nodup
  subset : stack ⊆ p.procedureIds

theorem Enters.stackSound {v v' : Visit} (h : p.Enters v v') (hv : p.StackSound v.stack) :
    p.StackSound v'.stack := by
  cases h with
  | inner => exact hv
  | call _ hq hid =>
    exact ⟨List.nodup_cons.mpr ⟨hid, hv.nodup⟩,
      List.cons_subset.mpr ⟨mem_procedureIds hq, hv.subset⟩⟩

theorem stackSound_of_visits {s : Statement} {v : Visit}
    (h : Relation.ReflTransGen p.Enters ⟨[], s⟩ v) : p.StackSound v.stack := by
  induction h with
  | refl => exact ⟨List.nodup_nil, List.nil_subset _⟩
  | tail _ henters ih => exact henters.stackSound ih

theorem StackSound.length_le {stack : List String} (h : p.StackSound stack) :
    stack.length ≤ p.procedureIds.toFinset.card := by
  rw [← List.toFinset_card_of_nodup h.nodup]
  refine Finset.card_le_card fun id hid => ?_
  rw [List.mem_toFinset] at hid ⊢
  exact h.subset hid

/-- A visit leads to no visits but the ones that it enters. -/
theorem readOnce_congr {read read' : Reading} {v : Visit}
    (h : ∀ v', p.Enters v v' → read v' = read' v') : p.readOnce read v = p.readOnce read' v := by
  obtain ⟨stack, s⟩ := v
  have hinner : ∀ t ∈ s.faultRole.inner, read ⟨stack, t⟩ = read' ⟨stack, t⟩ :=
    fun t ht => h _ (.inner ht)
  funext current w
  unfold readOnce
  cases hrole : s.faultRole with
  | throws fault => rfl
  | solicits operation port => rfl
  | opens body =>
    have hbody := hinner body (by simp [hrole, FaultRole.inner])
    simp only [hbody]
  | installs handlers =>
    refine List.foldl_ext _ _ _ fun u handler hmem => ?_
    rw [hinner handler.2 (by rw [hrole]; exact List.mem_map_of_mem hmem)]
  | calls id =>
    cases hq : p.callee? id with
    | none => simp only [hq]
    | some q =>
      by_cases hid : id ∈ stack
      · simp only [hq, hid, if_true]
      · simp only [hq, hid, if_false, h _ (.call hrole hq hid)]
  | reads parts =>
    refine List.foldl_ext _ _ _ fun u t hmem => ?_
    rw [hinner t (by rw [hrole]; exact hmem)]

theorem ReadsAll.unique {read read' : Reading} (h : p.ReadsAll read) (h' : p.ReadsAll read') :
    read = read' := by
  funext v
  induction v using p.wellFounded_enters.induction with
  | _ v ih => rw [h, h', readOnce_congr ih]

/-- Calls come to the same if that holds of all procedures that can still be entered. -/
theorem inlineCall_eq {read read' : List String → Nat → Statement → FaultFlow → FaultFlow}
    {stack : List String}
    (h : ∀ id q, p.callee? id = some q → id ∉ stack → read (id :: stack) = read' (id :: stack)) :
    FaultFlow.inlineCall p.callable read stack = FaultFlow.inlineCall p.callable read' stack := by
  funext current id w
  rw [FaultFlow.inlineCall, FaultFlow.inlineCall, get?_callable]
  cases hq : p.callee? id with
  | none => rfl
  | some q =>
    have hname : q.id = id := by simpa using List.find?_some hq
    by_cases hid : id ∈ stack
    · simp only [hname, hid, if_true]
    · simp only [hname, hid, if_false, h id q hq hid]

/-- A budget for all procedures that can still be entered is never used up. -/
theorem readUpTo_eq {stack : List String} {budget budget' : Nat}
    (h : (p.enterable stack).length ≤ budget) (h' : (p.enterable stack).length ≤ budget') :
    FaultFlow.readUpTo p.firstOutputPorts p.callable budget stack =
      FaultFlow.readUpTo p.firstOutputPorts p.callable budget' stack := by
  induction budget generalizing stack budget' with
  | zero =>
    have hnone : ∀ id q, p.callee? id = some q → ¬id ∉ stack := fun id q hq hid => by
      have hpos := List.length_pos_of_mem (mem_enterable hq hid)
      omega
    cases budget' with
    | zero => rfl
    | succ budget' =>
      funext current s w
      rw [FaultFlow.readUpTo, FaultFlow.readUpTo,
        inlineCall_eq fun id q hq hid => absurd hid (hnone id q hq)]
  | succ budget ih =>
    have hless : ∀ id q, p.callee? id = some q → id ∉ stack →
        (p.enterable (id :: stack)).length < (p.enterable stack).length :=
      fun id q hq hid => length_enterable_cons (mem_enterable hq hid)
    cases budget' with
    | zero =>
      funext current s w
      rw [FaultFlow.readUpTo, FaultFlow.readUpTo, inlineCall_eq fun id q hq hid => ?_]
      have hlt := hless id q hq hid
      omega
    | succ budget' =>
      funext current s w
      rw [FaultFlow.readUpTo, FaultFlow.readUpTo, inlineCall_eq fun id q hq hid => ?_]
      have hlt := hless id q hq hid
      exact ih (by omega) (by omega)

variable (p) in
def readFully : Reading := fun v current w =>
  FaultFlow.readUpTo p.firstOutputPorts p.callable (p.enterable v.stack).length v.stack current
    v.statement w

theorem readFully_eq (stack : List String) {budget : Nat}
    (h : (p.enterable stack).length ≤ budget) (current : Nat) (s : Statement) (w : FaultFlow) :
    p.readFully ⟨stack, s⟩ current w =
      FaultFlow.readUpTo p.firstOutputPorts p.callable budget stack current s w := by
  rw [readFully, readUpTo_eq (Nat.le_refl _) h]

theorem readsAll_readFully (p : Program) : p.ReadsAll p.readFully := by
  funext v current w
  obtain ⟨stack, s⟩ := v
  have hcall : ∀ id current w,
      FaultFlow.inlineCall p.callable
        (FaultFlow.readUpTo p.firstOutputPorts p.callable (p.enterable stack).length) stack
        current id w =
      match p.callee? id with
      | none => w
      | some q =>
        if id ∈ stack then w.log ⟨.debug, "skipping recursive call to `" ++ id ++ "`", []⟩
        else p.readFully ⟨id :: stack, q.body⟩ current w := by
    intro id current w
    rw [FaultFlow.inlineCall, get?_callable]
    cases hq : p.callee? id with
    | none => rfl
    | some q =>
      have hname : q.id = id := by simpa using List.find?_some hq
      by_cases hid : id ∈ stack
      · simp only [hname, hid, if_true]
      · have hlt := length_enterable_cons (mem_enterable hq hid)
        simp only [hname, hid, if_false]
        exact (readFully_eq (id :: stack) (Nat.le_of_lt hlt) current q.body w).symm
  -- one more procedure in the budget makes the outermost level of the reading visible
  have hvisit : ∀ t current w, p.readFully ⟨stack, t⟩ current w =
      FaultFlow.visit p.firstOutputPorts (FaultFlow.inlineCall p.callable
        (FaultFlow.readUpTo p.firstOutputPorts p.callable (p.enterable stack).length) stack)
        current t w :=
    fun t current w => readFully_eq stack (Nat.le_succ _) current t w
  rw [hvisit, FaultFlow.visit_eq, readOnce]
  cases s.faultRole <;> simp only [← hvisit, hcall]

theorem readFully_main (p : Program) (s : Statement) (current : Nat) (w : FaultFlow) :
    p.readFully ⟨[], s⟩ current w = p.readMain current s w :=
  readFully_eq [] (Dictionary.length_keysOutside_le p.callable []) current s w

end Program

namespace ScopeForest

theorem modify_of_size_le {f : ScopeForest} {id : Nat} (h : f.size ≤ id)
    (change : Scope → Scope) : f.modify id change = f := by
  cases f
  refine congrArg ScopeForest.mk (Array.ext_getElem? fun a => ?_)
  rw [Array.getElem?_modify]
  split
  case isTrue heq =>
    subst heq
    exact (congrArg _ (getElem?_eq_none h)).trans (getElem?_eq_none h).symm
  case isFalse => rfl

theorem resolveUpTo_of_size_le {f : ScopeForest} {id : Nat} (h : f.size ≤ id) (depth : Nat) :
    resolveUpTo depth f id = f := by
  cases depth with
  | zero => rfl
  | succ depth =>
    rw [resolveUpTo, children_of_size_le h, List.foldl_nil, modify_of_size_le h]
    exact handUp_of_root (parent?_of_size_le h)

/-- Steps that agree on all forests with the same links agree one after the other. -/
theorem foldl_congr_sameLinks {step step' : ScopeForest → Nat → ScopeForest} {f : ScopeForest}
    {ids : List Nat} (hlinks : ∀ g, SameLinks f g → ∀ id ∈ ids, SameLinks f (step g id))
    (hstep : ∀ g, SameLinks f g → ∀ id ∈ ids, step g id = step' g id) {g : ScopeForest}
    (hg : SameLinks f g) : ids.foldl step g = ids.foldl step' g := by
  induction ids generalizing g with
  | nil => rfl
  | cons id rest ih =>
    have hkept := hlinks g hg id List.mem_cons_self
    rw [List.foldl_cons, List.foldl_cons, ← hstep g hg id List.mem_cons_self]
    exact ih (fun g hg other hother => hlinks g hg other (List.mem_cons_of_mem _ hother))
      (fun g hg other hother => hstep g hg other (List.mem_cons_of_mem _ hother)) hkept

/-- A depth up to the last scope is never used up. -/
theorem resolveUpTo_eq {f : ScopeForest} (hf : f.Sound) {depth depth' id : Nat}
    (h : f.size ≤ id + depth) (h' : f.size ≤ id + depth') :
    resolveUpTo depth f id = resolveUpTo depth' f id := by
  induction depth generalizing f id depth' with
  | zero =>
    have hle : f.size ≤ id := h
    rw [resolveUpTo_of_size_le hle, resolveUpTo_of_size_le hle]
  | succ depth ih =>
    cases depth' with
    | zero =>
      have hle : f.size ≤ id := h'
      rw [resolveUpTo_of_size_le hle, resolveUpTo_of_size_le hle]
    | succ depth' =>
      have hfold : (f.children id).foldl (resolveUpTo depth) f =
          (f.children id).foldl (resolveUpTo depth') f := by
        refine foldl_congr_sameLinks (fun g hg child hchild => ?_) (fun g hg child hchild => ?_)
          (.refl f)
        · have hlt := hf.lt_of_mem_children hchild
          have hsize := hg.size_eq
          exact hg.trans (resolved_resolveUpTo (hf.of_sameLinks hg) (by omega)).links
        · have hlt := hf.lt_of_mem_children hchild
          have hsize := hg.size_eq
          exact ih (hf.of_sameLinks hg) (by omega) (by omega)
      rw [resolveUpTo, resolveUpTo, hfold]

/-- Resolving a scope resolves its children, without a bound on the depth. -/
theorem resolve_eq {f : ScopeForest} (hf : f.Sound) (id : Nat) :
    f.resolve id =
      (((f.children id).foldl (fun g child => g.resolve child) f).modify id .settle).handUp id := by
  have hmore : f.resolve id = resolveUpTo (f.size + 1) f id :=
    resolveUpTo_eq hf (by omega) (by omega)
  have hfold : (f.children id).foldl (resolveUpTo f.size) f =
      (f.children id).foldl (fun g child => g.resolve child) f := by
    refine foldl_congr_sameLinks (fun g hg child _ => ?_) (fun g hg child _ => ?_) (.refl f)
    · have hsize := hg.size_eq
      exact hg.trans (resolved_resolveUpTo (hf.of_sameLinks hg) (by omega)).links
    · have hsize := hg.size_eq
      exact resolveUpTo_eq (hf.of_sameLinks hg) (by omega) (by omega)
  rw [hmore, resolveUpTo, hfold]

end ScopeForest

namespace Program

/-- Every visit leads to smaller ones only, with no procedure twice on the stack. So there is
exactly one reading that nothing bounds, which is what the analysis computes, and resolving the
scopes that were read follows links to scopes of larger numbers. -/
theorem reading_ends (p : Program) :
    (∀ v v', p.Enters v v' → Prod.Lex (· < ·) (· < ·) (p.measure v') (p.measure v)) ∧
    (∀ s v, Relation.ReflTransGen p.Enters ⟨[], s⟩ v →
      v.stack.Nodup ∧ v.stack ⊆ p.procedureIds ∧
        v.stack.length ≤ p.procedureIds.toFinset.card) ∧
    (∀ read read' v, (∀ v', p.Enters v v' → read v' = read' v') →
      p.readOnce read v = p.readOnce read' v) ∧
    (WellFounded fun v' v => p.Enters v v') ∧
    (∃ read, (∀ other, p.ReadsAll other ↔ other = read) ∧
      ∀ s current w, read ⟨[], s⟩ current w = p.readMain current s w) ∧
    ∀ body g, ScopeForest.SameLinks (p.readBody body).2.forest g → ∀ id,
      (∀ child ∈ g.children id, id < child ∧ child < g.size) ∧
      g.resolve id = (((g.children id).foldl (fun f child => f.resolve child) g).modify id
        .settle).handUp id := by
  refine ⟨fun v v' h => h.measure_lt, fun s v h => ?_, fun _ _ _ h => readOnce_congr h,
    p.wellFounded_enters, ⟨p.readFully, fun other => ⟨?_, ?_⟩, p.readFully_main⟩, ?_⟩
  · have hsound := stackSound_of_visits h
    exact ⟨hsound.nodup, hsound.subset, hsound.length_le⟩
  · exact fun hother => hother.unique p.readsAll_readFully
  · rintro rfl
    exact p.readsAll_readFully
  · intro body g hg id
    have hsound := (p.served_readBody body).sound.of_sameLinks hg
    exact ⟨fun child hchild =>
      ⟨hsound.lt_of_mem_children hchild, hsound.lt_size_of_mem_children hchild⟩,
      ScopeForest.resolve_eq hsound id⟩

def handingOn : Statement := .addHandler .installing "Lost" (.calling "second")

def handingBack : Statement := .sequence [.opening "leg" (.calling "first"), .throwing "Lost"]

def relay : Program :=
  .ofDeclarations
    [.procedure (.main (.answering "run" (.calling "first"))),
      .procedure (.named "first" handingOn), .procedure (.named "second" handingBack)]

theorem reading_ends_relay :
    Relation.ReflTransGen relay.Enters ⟨[], .calling "first"⟩
        ⟨["second", "first"], handingBack⟩ ∧
      (∀ v, Relation.ReflTransGen relay.Enters ⟨[], .calling "first"⟩ v →
        v.stack.Nodup ∧ v.stack.length ≤ 2) ∧
      ∃ read, relay.ReadsAll read ∧ ∀ current w,
        read ⟨[], .calling "first"⟩ current w = relay.readMain current (.calling "first") w := by
  obtain ⟨-, hstack, -, -, ⟨read, hread, hmain⟩, -⟩ := reading_ends relay
  have hcard : relay.procedureIds.toFinset.card = 2 := by decide +kernel
  refine ⟨?_, fun v hv => ?_, read, (hread read).mpr rfl, hmain _⟩
  · have hfirst : relay.Enters ⟨[], .calling "first"⟩ ⟨["first"], handingOn⟩ :=
      .call (q := .named "first" handingOn) rfl rfl List.not_mem_nil
    have hhandler : relay.Enters ⟨["first"], handingOn⟩ ⟨["first"], .calling "second"⟩ :=
      .inner (List.mem_singleton_self _)
    have hsecond : relay.Enters ⟨["first"], .calling "second"⟩
        ⟨["second", "first"], handingBack⟩ :=
      .call (q := .named "second" handingBack) rfl rfl (by decide)
    exact ((Relation.ReflTransGen.single hfirst).tail hhandler).tail hsecond
  · obtain ⟨hnodup, -, hlength⟩ := hstack _ v hv
    exact ⟨hnodup, hcard ▸ hlength⟩

end Program

end ServiceCheck
