import ServiceCheck.Proofs.Types.Unfolding

/-!
What one step of a comparison does: it goes on to some pairs of definitions, in order and as long
as no difference is found. All that is said of whole comparisons rests on this plan. A deeper bound
never changes an answer, and a comparison has no answer within a bound exactly when one of the
comparisons that it calls has none within the next smaller bound.
-/

set_option autoImplicit false

namespace ServiceCheck

namespace TypeDefinition

/-- The pairs that a step goes on to, under the pairs of names assumed by then. When they are all
alike, `agree` is the answer. -/
structure Plan where
  assumed : Assumptions
  pairs : List (TypeDefinition × TypeDefinition)
  agree : Bool

def Plan.answer (assumed : Assumptions) (agree : Bool) : Plan := ⟨assumed, [], agree⟩

/-- Members are paired by their keys up to the first that finds no partner of its cardinality. -/
def memberPairs (others : Dictionary TypeDefinition) :
    List (String × TypeDefinition) → List (TypeDefinition × TypeDefinition) × Bool
  | [] => ([], true)
  | (key, a) :: rest =>
    match Dictionary.get? others key with
    | none => ([], false)
    | some b =>
      if a.cardinality = b.cardinality then
        ((a, b) :: (memberPairs others rest).1, (memberPairs others rest).2)
      else ([], false)

def sidePairs (l r l' r' : TypeDefinition) : List (TypeDefinition × TypeDefinition) × Bool :=
  if l.cardinality = l'.cardinality then
    if r.cardinality = r'.cardinality then ([(l, l'), (r, r')], true) else ([(l, l')], false)
  else ([], false)

def plan (types : TypeMap) (assumed : Assumptions) (a b : TypeDefinition) : Plan :=
  match a, b with
  | .link _ x, .link _ y =>
    if x = y ∨ assumed.holds x y then .answer assumed true
    else
      match Dictionary.get? types x, Dictionary.get? types y with
      | some a, some b => ⟨assumed.assume x y, [(a, b)], true⟩
      | _, _ => .answer assumed false
  | .link .., b =>
    match a.unlink? types types.length with
    | some a => ⟨assumed, [(a, b)], true⟩
    | none => .answer assumed false
  | a, .link .. =>
    match b.unlink? types types.length with
    | some b => ⟨assumed, [(a, b)], true⟩
    | none => .answer assumed false
  | .inline _ n s u, .inline _ n' s' u' =>
    if n = n' ∧ u = u' ∧ (s.getD []).length = (s'.getD []).length then
      ⟨assumed, (memberPairs (s'.getD []) (s.getD [])).1, (memberPairs (s'.getD []) (s.getD [])).2⟩
    else .answer assumed false
  | .choice _ l r, .choice _ l' r' =>
    ⟨assumed, (sidePairs l r l' r').1, (sidePairs l r l' r').2⟩
  | _, _ => .answer assumed false

def runPairs (step : Step) : Assumptions → List (TypeDefinition × TypeDefinition) → Comparing
  | assumed, [] => .same assumed
  | assumed, (a, b) :: rest => (step assumed a b).andThen fun assumed => runPairs step assumed rest

def Plan.run (step : Step) (p : Plan) : Comparing :=
  (runPairs step p.assumed p.pairs).andThen fun assumed =>
    if p.agree then .same assumed else .different

theorem compareMembers_guarded (step : Step) (others : Dictionary TypeDefinition)
    (members : List (String × TypeDefinition)) (assumed : Assumptions) :
    compareMembers (guarded step) others assumed members =
      (Plan.mk assumed (memberPairs others members).1 (memberPairs others members).2).run step := by
  induction members generalizing assumed with
  | nil => rfl
  | cons e rest ih =>
    obtain ⟨key, a⟩ := e
    cases hb : Dictionary.get? others key with
    | none => simp [compareMembers, memberPairs, hb, Plan.run, runPairs, Comparing.andThen]
    | some b =>
      by_cases hc : a.cardinality = b.cardinality
      · simp only [compareMembers, memberPairs, hb, guarded, hc, if_true, ih, Plan.run, runPairs]
        cases step assumed a b <;> rfl
      · simp [compareMembers, memberPairs, hb, guarded, hc, Plan.run, runPairs, Comparing.andThen]

theorem compareSides_guarded (step : Step) (l r l' r' : TypeDefinition) (assumed : Assumptions) :
    ((guarded step assumed l l').andThen fun assumed => guarded step assumed r r') =
      (Plan.mk assumed (sidePairs l r l' r').1 (sidePairs l r l' r').2).run step := by
  by_cases hl : l.cardinality = l'.cardinality
  · by_cases hr : r.cardinality = r'.cardinality
    · simp only [guarded, sidePairs, hl, hr, if_true, Plan.run, runPairs]
      cases step assumed l l' with
      | same between => simp only [Comparing.andThen]; cases step between r r' <;> rfl
      | different => rfl
      | unending => rfl
    · simp only [guarded, sidePairs, hl, hr, if_true, if_false, Plan.run, runPairs]
      cases step assumed l l' <;> simp [Comparing.andThen]
  · simp [guarded, sidePairs, hl, Plan.run, runPairs, Comparing.andThen]

theorem Plan.run_single (step : Step) (assumed : Assumptions) (a b : TypeDefinition) :
    (Plan.mk assumed [(a, b)] true).run step = step assumed a b := by
  simp only [Plan.run, runPairs]
  cases step assumed a b <;> rfl

theorem compareBody_succ (types : TypeMap) (depth : Nat) (assumed : Assumptions)
    (a b : TypeDefinition) :
    compareBody types (depth + 1) assumed a b =
      (plan types assumed a b).run (compareBody types depth) := by
  cases a with
  | link h x =>
    cases b with
    | link h' y =>
      by_cases heq : x = y ∨ assumed.holds x y
      · simp only [compareBody, plan, heq, if_true]
        rfl
      · simp only [compareBody, plan, heq, if_false]
        cases Dictionary.get? types x with
        | none => rfl
        | some a =>
          cases Dictionary.get? types y with
          | none => rfl
          | some b => exact (Plan.run_single ..).symm
    | inline =>
      simp only [compareBody, plan]
      cases (TypeDefinition.link h x).unlink? types types.length with
      | none => rfl
      | some a => exact (Plan.run_single ..).symm
    | choice =>
      simp only [compareBody, plan]
      cases (TypeDefinition.link h x).unlink? types types.length with
      | none => rfl
      | some a => exact (Plan.run_single ..).symm
  | inline h n s u =>
    cases b with
    | link h' y =>
      simp only [compareBody, plan]
      cases (TypeDefinition.link h' y).unlink? types types.length with
      | none => rfl
      | some b => exact (Plan.run_single ..).symm
    | inline h' n' s' u' =>
      by_cases hs : n = n' ∧ u = u' ∧ (s.getD []).length = (s'.getD []).length
      · simp only [compareBody, plan, hs, and_self, if_true]
        exact compareMembers_guarded ..
      · simp only [compareBody, plan, hs, if_false]
        rfl
    | choice => rfl
  | choice h l r =>
    cases b with
    | link h' y =>
      simp only [compareBody, plan]
      cases (TypeDefinition.link h' y).unlink? types types.length with
      | none => rfl
      | some b => exact (Plan.run_single ..).symm
    | inline => rfl
    | choice => exact compareSides_guarded ..

/-- What a step can come to. The answers at once are not told apart here. -/
inductive PlanOf (types : TypeMap) (assumed : Assumptions) :
    TypeDefinition → TypeDefinition → Plan → Prop where
  | answer (a b : TypeDefinition) (agree : Bool) : PlanOf types assumed a b (.answer assumed agree)
  | links {h h' : TypeHead} {x y : String} {t t' : TypeDefinition}
      (new : assumed.holds x y = false) (left : Dictionary.get? types x = some t)
      (right : Dictionary.get? types y = some t') :
      PlanOf types assumed (.link h x) (.link h' y) ⟨assumed.assume x y, [(t, t')], true⟩
  | linkLeft {h : TypeHead} {x : String} {b t : TypeDefinition} (hb : b.isLink = false)
      (resolves : Resolves types (.link h x) t) :
      PlanOf types assumed (.link h x) b ⟨assumed, [(t, b)], true⟩
  | linkRight {h : TypeHead} {y : String} {a t : TypeDefinition} (ha : a.isLink = false)
      (resolves : Resolves types (.link h y) t) :
      PlanOf types assumed a (.link h y) ⟨assumed, [(a, t)], true⟩
  | members {h h' : TypeHead} {n n' : NativeType} {u u' : Bool}
      (s s' : Option (List (String × TypeDefinition))) :
      PlanOf types assumed (.inline h n s u) (.inline h' n' s' u')
        ⟨assumed, (memberPairs (s'.getD []) (s.getD [])).1,
          (memberPairs (s'.getD []) (s.getD [])).2⟩
  | sides {h h' : TypeHead} (l r l' r' : TypeDefinition) :
      PlanOf types assumed (.choice h l r) (.choice h' l' r')
        ⟨assumed, (sidePairs l r l' r').1, (sidePairs l r l' r').2⟩

theorem planOf_plan (types : TypeMap) (assumed : Assumptions) (a b : TypeDefinition) :
    PlanOf types assumed a b (plan types assumed a b) := by
  cases a with
  | link h x =>
    cases b with
    | link h' y =>
      by_cases heq : x = y ∨ assumed.holds x y
      · simp only [plan, heq, if_true]
        exact .answer ..
      · simp only [plan, heq, if_false]
        cases hx : Dictionary.get? types x with
        | none => exact .answer ..
        | some t =>
          cases hy : Dictionary.get? types y with
          | none => exact .answer ..
          | some t' => exact .links (by simpa using mt Or.inr heq) hx hy
    | inline =>
      simp only [plan]
      split
      · exact .linkLeft rfl (resolves_of_unlink? ‹_›)
      · exact .answer ..
    | choice =>
      simp only [plan]
      split
      · exact .linkLeft rfl (resolves_of_unlink? ‹_›)
      · exact .answer ..
  | inline =>
    cases b with
    | link =>
      simp only [plan]
      split
      · exact .linkRight rfl (resolves_of_unlink? ‹_›)
      · exact .answer ..
    | inline =>
      simp only [plan]
      split
      · exact .members ..
      · exact .answer ..
    | choice => exact .answer ..
  | choice =>
    cases b with
    | link =>
      simp only [plan]
      split
      · exact .linkRight rfl (resolves_of_unlink? ‹_›)
      · exact .answer ..
    | inline => exact .answer ..
    | choice => exact .sides ..

theorem runPairs_append (step : Step) (assumed : Assumptions)
    (before after : List (TypeDefinition × TypeDefinition)) :
    runPairs step assumed (before ++ after) =
      (runPairs step assumed before).andThen fun assumed => runPairs step assumed after := by
  induction before generalizing assumed with
  | nil => rfl
  | cons p rest ih =>
    simp only [List.cons_append, runPairs, ih]
    cases step assumed p.1 p.2 <;> rfl

theorem runPairs_eq_unending_iff (step : Step) (assumed : Assumptions)
    (pairs : List (TypeDefinition × TypeDefinition)) :
    runPairs step assumed pairs = .unending ↔
      ∃ before a b after between, pairs = before ++ (a, b) :: after ∧
        runPairs step assumed before = .same between ∧ step between a b = .unending := by
  constructor
  · intro h
    induction pairs generalizing assumed with
    | nil => simp [runPairs] at h
    | cons p rest ih =>
      simp only [runPairs, Comparing.andThen_eq_unending] at h
      rcases h with h | ⟨between, hsame, h⟩
      · exact ⟨[], p.1, p.2, rest, assumed, rfl, rfl, h⟩
      · obtain ⟨before, a, b, after, between', rfl, hbefore, hstep⟩ := ih between h
        refine ⟨p :: before, a, b, after, between', rfl, ?_, hstep⟩
        simp [runPairs, hsame, Comparing.andThen, hbefore]
  · rintro ⟨before, a, b, after, between, rfl, hbefore, hstep⟩
    simp [runPairs_append, hbefore, Comparing.andThen, runPairs, hstep]

theorem Plan.run_eq_unending_iff (step : Step) (p : Plan) :
    p.run step = .unending ↔ runPairs step p.assumed p.pairs = .unending := by
  simp only [Plan.run, Comparing.andThen_eq_unending]
  constructor
  · rintro (h | ⟨assumed, _, h⟩)
    · exact h
    · cases hp : p.agree <;> simp [hp] at h
  · exact .inl

theorem Plan.run_eq_same_iff (step : Step) (p : Plan) (assumed : Assumptions) :
    p.run step = .same assumed ↔
      p.agree = true ∧ runPairs step p.assumed p.pairs = .same assumed := by
  simp only [Plan.run, Comparing.andThen_eq_same]
  cases p.agree <;> simp

def Step.ExtendedBy (step step' : Step) : Prop :=
  ∀ assumed a b, step assumed a b ≠ .unending → step' assumed a b = step assumed a b

theorem Step.ExtendedBy.runPairs {step step' : Step} (h : step.ExtendedBy step')
    {assumed : Assumptions} {pairs : List (TypeDefinition × TypeDefinition)}
    (hp : runPairs step assumed pairs ≠ .unending) :
    TypeDefinition.runPairs step' assumed pairs = TypeDefinition.runPairs step assumed pairs := by
  induction pairs generalizing assumed with
  | nil => rfl
  | cons p rest ih =>
    simp only [TypeDefinition.runPairs] at hp ⊢
    have hstep : step assumed p.1 p.2 ≠ .unending := by
      intro hu
      simp [hu, Comparing.andThen] at hp
    rw [h _ _ _ hstep]
    cases hs : step assumed p.1 p.2 with
    | same between =>
      simp only [hs, Comparing.andThen] at hp ⊢
      exact ih hp
    | different => rfl
    | unending => exact absurd hs hstep

theorem compareBody_extendedBy_succ (types : TypeMap) (depth : Nat) :
    Step.ExtendedBy (compareBody types depth) (compareBody types (depth + 1)) := by
  induction depth with
  | zero => intro _ _ _ h; exact absurd rfl h
  | succ depth ih =>
    intro assumed a b h
    rw [compareBody_succ, ne_eq, Plan.run_eq_unending_iff] at h
    rw [compareBody_succ, compareBody_succ types depth, Plan.run, Plan.run, ih.runPairs h]

theorem compareBody_extendedBy (types : TypeMap) {depth depth' : Nat} (hd : depth ≤ depth') :
    Step.ExtendedBy (compareBody types depth) (compareBody types depth') := by
  induction hd with
  | refl => intro _ _ _ _; rfl
  | step _ ih =>
    intro assumed a b h
    have heq := ih assumed a b h
    rw [compareBody_extendedBy_succ types _ assumed a b (heq ▸ h), heq]

/-- Finished comparisons agree, whatever bounds they were finished within. -/
theorem runPairs_eq_of_finished (types : TypeMap) {depth depth' : Nat} {assumed : Assumptions}
    {pairs : List (TypeDefinition × TypeDefinition)}
    (h : runPairs (compareBody types depth) assumed pairs ≠ .unending)
    (h' : runPairs (compareBody types depth') assumed pairs ≠ .unending) :
    runPairs (compareBody types depth) assumed pairs =
      runPairs (compareBody types depth') assumed pairs := by
  rw [← (compareBody_extendedBy types (Nat.le_max_left depth depth')).runPairs h,
    (compareBody_extendedBy types (Nat.le_max_right depth depth')).runPairs h']

structure Call where
  assumed : Assumptions
  left : TypeDefinition
  right : TypeDefinition

namespace Call

def start (a b : TypeDefinition) : Call := ⟨.empty, a, b⟩

def run (types : TypeMap) (depth : Nat) (c : Call) : Comparing :=
  compareBody types depth c.assumed c.left c.right

def plan (types : TypeMap) (c : Call) : Plan := c.left.plan types c.assumed c.right

/-- The one comparison goes on to the other, no difference having been found before. -/
def Calls (types : TypeMap) (c c' : Call) : Prop :=
  ∃ before after depth, (c.plan types).pairs = before ++ (c'.left, c'.right) :: after ∧
    runPairs (compareBody types depth) (c.plan types).assumed before = .same c'.assumed

theorem run_succ_eq_unending_iff (types : TypeMap) (depth : Nat) (c : Call) :
    c.run types (depth + 1) = .unending ↔
      ∃ c', Calls types c c' ∧ c'.run types depth = .unending := by
  rw [run, compareBody_succ, Plan.run_eq_unending_iff]
  constructor
  · intro h
    obtain ⟨before, a, b, after, between, hp, hbefore, hstep⟩ :=
      (runPairs_eq_unending_iff _ _ _).mp h
    exact ⟨⟨between, a, b⟩, ⟨before, after, depth, hp, hbefore⟩, hstep⟩
  · rintro ⟨c', ⟨before, after, depth', hp, hbefore⟩, hstep⟩
    change runPairs _ (c.plan types).assumed (c.plan types).pairs = _
    rw [hp, runPairs_append]
    by_cases hu : runPairs (compareBody types depth) (c.plan types).assumed before = .unending
    · simp [hu, Comparing.andThen]
    · -- The part before was finished within some bound, hence with the same answer within this one.
      have hfinished : runPairs (compareBody types depth') (c.plan types).assumed before ≠
          .unending := by simp [hbefore]
      rw [runPairs_eq_of_finished types hu hfinished, hbefore]
      simp only [run] at hstep
      simp [Comparing.andThen, runPairs, hstep]

def Unending (types : TypeMap) (c : Call) : Prop := ∀ depth, c.run types depth = .unending

theorem unending_of_onCycle {types : TypeMap} {c : Call}
    (h : Relation.TransGen (Calls types) c c) : c.Unending types := by
  intro depth
  induction depth generalizing c with
  | zero => rfl
  | succ depth ih =>
    obtain ⟨next, hnext, hback⟩ := Relation.TransGen.head'_iff.mp h
    exact (run_succ_eq_unending_iff types depth c).mpr
      ⟨next, hnext, ih (Relation.TransGen.tail' hback hnext)⟩

theorem unending_of_reaches {types : TypeMap} {c c' : Call}
    (h : Relation.ReflTransGen (Calls types) c c') (hc : c'.Unending types) :
    c.Unending types := by
  induction h using Relation.ReflTransGen.head_induction_on with
  | refl => exact hc
  | head hcall _ ih =>
    intro depth
    cases depth with
    | zero => rfl
    | succ depth => exact (run_succ_eq_unending_iff types depth _).mpr ⟨_, hcall, ih depth⟩

/-- A comparison without an answer within a bound is the first of a chain of that many calls. -/
theorem exists_chain_of_unending {types : TypeMap} {depth : Nat} {c : Call}
    (h : c.run types depth = .unending) :
    ∃ chain : Nat → Call, chain 0 = c ∧ ∀ i < depth, Calls types (chain i) (chain (i + 1)) := by
  induction depth generalizing c with
  | zero => exact ⟨fun _ => c, rfl, by simp⟩
  | succ depth ih =>
    obtain ⟨next, hcall, hnext⟩ := (run_succ_eq_unending_iff types depth c).mp h
    obtain ⟨chain, hfirst, hchain⟩ := ih hnext
    refine ⟨fun i => if i = 0 then c else chain (i - 1), rfl, ?_⟩
    intro i hi
    cases i with
    | zero => simpa [hfirst] using hcall
    | succ i => simpa using hchain i (by omega)

end Call

end TypeDefinition

end ServiceCheck
