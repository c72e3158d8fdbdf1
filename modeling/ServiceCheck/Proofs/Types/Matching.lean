import ServiceCheck.Proofs.Types.Comparison

/-!
What a finished comparison says: the definitions are related by some matching, a relation that
every step of a comparison under no assumptions leads from pairs of it to pairs of it. The pairs of
names assumed on the way are no part of the answer, since each was itself compared before the end.
-/

set_option autoImplicit false

namespace ServiceCheck

namespace Assumptions

def Within (assumed assumed' : Assumptions) : Prop :=
  ∀ x y, assumed.holds x y = true → assumed'.holds x y = true

theorem Within.refl (assumed : Assumptions) : assumed.Within assumed := fun _ _ h => h

theorem Within.trans {a b c : Assumptions} (h : a.Within b) (h' : b.Within c) : a.Within c :=
  fun x y hx => h' x y (h x y hx)

theorem within_assume (assumed : Assumptions) (x y : String) :
    assumed.Within (assumed.assume x y) := by
  intro x' y' h
  simp [holds_assume, h]

end Assumptions

namespace TypeDefinition

variable {types : TypeMap}

/-- Assumed pairs spare comparisons and change nothing else. -/
theorem plan_of_assumed (types : TypeMap) (assumed : Assumptions) (a b : TypeDefinition) :
    (∃ h x h' y, a = .link h x ∧ b = .link h' y ∧ assumed.holds x y = true ∧
        plan types assumed a b = .answer assumed true) ∨
      (plan types assumed a b).pairs = (plan types .empty a b).pairs ∧
        (plan types assumed a b).agree = (plan types .empty a b).agree := by
  cases a with
  | link h x =>
    cases b with
    | link h' y =>
      by_cases heq : x = y
      · simp [plan, heq, Plan.answer]
      · cases ha : assumed.holds x y with
        | true => exact .inl ⟨h, x, h', y, rfl, rfl, ha, by simp [plan, ha]⟩
        | false =>
          right
          simp only [plan, heq, ha, Assumptions.holds_empty, Bool.false_eq_true, or_self, if_false]
          cases Dictionary.get? types x with
          | none => simp [Plan.answer]
          | some t => cases Dictionary.get? types y <;> simp [Plan.answer]
    | inline => right; simp only [plan]; split <;> simp [Plan.answer]
    | choice => right; simp only [plan]; split <;> simp [Plan.answer]
  | inline =>
    right
    cases b with
    | link => simp only [plan]; split <;> simp [Plan.answer]
    | inline => simp only [plan]; split <;> simp [Plan.answer]
    | choice => simp [plan, Plan.answer]
  | choice =>
    right
    cases b with
    | link => simp only [plan]; split <;> simp [Plan.answer]
    | inline => simp [plan, Plan.answer]
    | choice => simp [plan]

/-- A comparison that found no difference and whose assumptions all lie within the given ones. -/
def FoundSame (types : TypeMap) (within : Assumptions) (a b : TypeDefinition) : Prop :=
  ∃ depth assumed assumed', compareBody types depth assumed a b = .same assumed' ∧
    assumed'.Within within

def Justified (types : TypeMap) (within : Assumptions) (x y : String) : Prop :=
  ∃ t t', Dictionary.get? types x = some t ∧ Dictionary.get? types y = some t' ∧
    FoundSame types within t t'

theorem FoundSame.mono {within within' : Assumptions} {a b : TypeDefinition}
    (hw : within.Within within') (h : FoundSame types within a b) :
    FoundSame types within' a b := by
  obtain ⟨depth, assumed, assumed', hrun, hle⟩ := h
  exact ⟨depth, assumed, assumed', hrun, hle.trans hw⟩

/-- More pairs are assumed in the end, and the new ones are justified by then. -/
structure Grows (types : TypeMap) (assumed assumed' : Assumptions) : Prop where
  within : assumed.Within assumed'
  justified : ∀ x y, assumed'.holds x y = true →
    assumed.holds x y = true ∨ Justified types assumed' x y

theorem Grows.refl (types : TypeMap) (assumed : Assumptions) : Grows types assumed assumed :=
  ⟨.refl assumed, fun _ _ h => .inl h⟩

theorem Grows.trans {a b c : Assumptions} (h : Grows types a b) (h' : Grows types b c) :
    Grows types a c := by
  refine ⟨h.within.trans h'.within, fun x y hc => ?_⟩
  rcases h'.justified x y hc with hb | hj
  · rcases h.justified x y hb with ha | ⟨t, t', hx, hy, hs⟩
    · exact .inl ha
    · exact .inr ⟨t, t', hx, hy, hs.mono h'.within⟩
  · exact .inr hj

theorem grows_of_runPairs {depth : Nat}
    (hstep : ∀ assumed a b assumed', compareBody types depth assumed a b = .same assumed' →
      Grows types assumed assumed')
    {pairs : List (TypeDefinition × TypeDefinition)} {assumed assumed' : Assumptions}
    (h : runPairs (compareBody types depth) assumed pairs = .same assumed') :
    Grows types assumed assumed' ∧ ∀ p ∈ pairs, FoundSame types assumed' p.1 p.2 := by
  induction pairs generalizing assumed with
  | nil =>
    simp only [runPairs, Comparing.same.injEq] at h
    exact ⟨h ▸ .refl types assumed, by simp⟩
  | cons p rest ih =>
    simp only [runPairs, Comparing.andThen_eq_same] at h
    obtain ⟨between, hfirst, hrest⟩ := h
    obtain ⟨hgrows, hall⟩ := ih hrest
    refine ⟨(hstep _ _ _ _ hfirst).trans hgrows, ?_⟩
    intro q hq
    rcases List.mem_cons.mp hq with rfl | hq
    · exact ⟨depth, assumed, between, hfirst, hgrows.within⟩
    · exact hall q hq

theorem grows_of_same {depth : Nat} {assumed assumed' : Assumptions} {a b : TypeDefinition}
    (h : compareBody types depth assumed a b = .same assumed') :
    Grows types assumed assumed' := by
  induction depth generalizing assumed assumed' a b with
  | zero => simp [compareBody] at h
  | succ depth ih =>
    rw [compareBody_succ, Plan.run_eq_same_iff] at h
    have hgrows := grows_of_runPairs (fun _ _ _ _ => ih) h.2
    have hplan := planOf_plan types assumed a b
    generalize plan types assumed a b = p at hgrows hplan
    cases hplan with
    | answer => exact hgrows.1
    | linkLeft => exact hgrows.1
    | linkRight => exact hgrows.1
    | members => exact hgrows.1
    | sides => exact hgrows.1
    | @links _ _ x y t t' _ hx hy =>
      have hsame : FoundSame types assumed' t t' := hgrows.2 (t, t') (by simp)
      refine ⟨(Assumptions.within_assume assumed x y).trans hgrows.1.within, fun x' y' hh => ?_⟩
      rcases hgrows.1.justified x' y' hh with hassumed | hj
      · rw [Assumptions.holds_assume, Bool.or_eq_true, decide_eq_true_eq] at hassumed
        rcases hassumed with ⟨rfl, rfl⟩ | hassumed
        · exact .inr ⟨t, t', hx, hy, hsame⟩
        · exact .inl hassumed
      · exact .inr hj

/-- The step goes on to related pairs only and can answer that the definitions agree. -/
def Matches (types : TypeMap) (R : TypeDefinition → TypeDefinition → Prop)
    (a b : TypeDefinition) : Prop :=
  (plan types .empty a b).agree = true ∧ ∀ p ∈ (plan types .empty a b).pairs, R p.1 p.2

def Matching (types : TypeMap) (R : TypeDefinition → TypeDefinition → Prop) : Prop :=
  ∀ a b, R a b → Matches types R a b

def Alike (types : TypeMap) (a b : TypeDefinition) : Prop := ∃ R, Matching types R ∧ R a b

theorem matching_alike (types : TypeMap) : Matching types (Alike types) := by
  rintro a b ⟨R, hR, hab⟩
  obtain ⟨hagree, hpairs⟩ := hR a b hab
  exact ⟨hagree, fun p hp => ⟨R, hR, hpairs p hp⟩⟩

section Matches

variable {R : TypeDefinition → TypeDefinition → Prop}

theorem matches_links (h h' : TypeHead) (x y : String) :
    Matches types R (.link h x) (.link h' y) ↔
      x = y ∨ ∃ t t', Dictionary.get? types x = some t ∧ Dictionary.get? types y = some t' ∧
        R t t' := by
  by_cases hxy : x = y
  · simp [Matches, plan, hxy, Plan.answer]
  · simp only [Matches, plan, hxy, Assumptions.holds_empty, Bool.false_eq_true, or_self, if_false,
      false_or]
    cases Dictionary.get? types x with
    | none => simp [Plan.answer]
    | some t => cases Dictionary.get? types y <;> simp [Plan.answer]

theorem matches_link_left (h : TypeHead) (x : String) {b : TypeDefinition}
    (hb : b.isLink = false) :
    Matches types R (.link h x) b ↔ ∃ t, Resolves types (.link h x) t ∧ R t b := by
  simp only [← unlink?_eq_some_iff]
  cases b with
  | link => simp [isLink] at hb
  | inline => simp only [Matches, plan]; split <;> simp_all [Plan.answer]
  | choice => simp only [Matches, plan]; split <;> simp_all [Plan.answer]

theorem matches_link_right {a : TypeDefinition} (ha : a.isLink = false) (h : TypeHead)
    (y : String) : Matches types R a (.link h y) ↔ ∃ t, Resolves types (.link h y) t ∧ R a t := by
  simp only [← unlink?_eq_some_iff]
  cases a with
  | link => simp [isLink] at ha
  | inline => simp only [Matches, plan]; split <;> simp_all [Plan.answer]
  | choice => simp only [Matches, plan]; split <;> simp_all [Plan.answer]

theorem memberPairs_iff (others : Dictionary TypeDefinition)
    (members : List (String × TypeDefinition)) :
    ((memberPairs others members).2 = true ∧ ∀ p ∈ (memberPairs others members).1, R p.1 p.2) ↔
      ∀ e ∈ members, ∃ b, Dictionary.get? others e.1 = some b ∧
        e.2.cardinality = b.cardinality ∧ R e.2 b := by
  induction members with
  | nil => simp [memberPairs]
  | cons e rest ih =>
    simp only [List.forall_mem_cons, ← ih, memberPairs]
    cases hb : Dictionary.get? others e.1 with
    | none => simp
    | some b =>
      by_cases hc : e.2.cardinality = b.cardinality
      · simp [hc, and_left_comm]
      · simp [hc]

theorem matches_inlines (h h' : TypeHead) (n n' : NativeType)
    (s s' : Option (List (String × TypeDefinition))) (u u' : Bool) :
    Matches types R (.inline h n s u) (.inline h' n' s' u') ↔
      (n = n' ∧ u = u' ∧ (s.getD []).length = (s'.getD []).length) ∧
        ∀ e ∈ s.getD [], ∃ b, Dictionary.get? (s'.getD []) e.1 = some b ∧
          e.2.cardinality = b.cardinality ∧ R e.2 b := by
  rw [← memberPairs_iff]
  by_cases hs : n = n' ∧ u = u' ∧ (s.getD []).length = (s'.getD []).length
  · simp only [Matches, plan, hs, and_self, if_true, true_and]
  · simp only [Matches, plan, hs, if_false, Plan.answer, Bool.false_eq_true, false_and]

theorem matches_choices (h h' : TypeHead) (l r l' r' : TypeDefinition) :
    Matches types R (.choice h l r) (.choice h' l' r') ↔
      (l.cardinality = l'.cardinality ∧ R l l') ∧ r.cardinality = r'.cardinality ∧ R r r' := by
  simp only [Matches, plan, sidePairs]
  by_cases hl : l.cardinality = l'.cardinality
  · by_cases hr : r.cardinality = r'.cardinality <;> simp [hl, hr]
  · simp [hl]

theorem not_matches_inline_choice (h h' : TypeHead) (n : NativeType)
    (s : Option (List (String × TypeDefinition))) (u : Bool) (l r : TypeDefinition) :
    ¬Matches types R (.inline h n s u) (.choice h' l r) := by
  simp [Matches, plan, Plan.answer]

theorem not_matches_choice_inline (h h' : TypeHead) (n : NativeType)
    (s : Option (List (String × TypeDefinition))) (u : Bool) (l r : TypeDefinition) :
    ¬Matches types R (.choice h l r) (.inline h' n s u) := by
  simp [Matches, plan, Plan.answer]

end Matches

theorem matching_foundSame {within : Assumptions}
    (hj : ∀ x y, within.holds x y = true → Justified types within x y) :
    Matching types (FoundSame types within) := by
  rintro a b ⟨depth, assumed, assumed', hrun, hle⟩
  cases depth with
  | zero => simp [compareBody] at hrun
  | succ depth =>
    rw [compareBody_succ, Plan.run_eq_same_iff] at hrun
    have hgrows := grows_of_runPairs (fun _ _ _ _ => grows_of_same) hrun.2
    rcases plan_of_assumed types assumed a b with
      ⟨h, x, h', y, rfl, rfl, hheld, heq⟩ | ⟨hpairs, hagree⟩
    · rw [heq] at hgrows
      obtain ⟨t, t', hx, hy, hs⟩ := hj x y (hle x y (hgrows.1.within x y hheld))
      exact (matches_links h h' x y).mpr (.inr ⟨t, t', hx, hy, hs⟩)
    · rw [Matches]
      rw [← hagree, ← hpairs]
      exact ⟨hrun.1, fun p hp => (hgrows.2 p hp).mono hle⟩

theorem alike_of_same {depth : Nat} {assumed : Assumptions} {a b : TypeDefinition}
    (h : compareBody types depth .empty a b = .same assumed) : Alike types a b := by
  refine ⟨FoundSame types assumed, matching_foundSame fun x y hh => ?_,
    depth, .empty, assumed, h, .refl assumed⟩
  rcases (grows_of_same h).justified x y hh with hempty | hj
  · simp [Assumptions.holds_empty] at hempty
  · exact hj

theorem runPairs_ne_different {step : Step} {R : TypeDefinition → TypeDefinition → Prop}
    (hstep : ∀ assumed a b, R a b → step assumed a b ≠ .different)
    {pairs : List (TypeDefinition × TypeDefinition)} (hp : ∀ p ∈ pairs, R p.1 p.2)
    (assumed : Assumptions) : runPairs step assumed pairs ≠ .different := by
  induction pairs generalizing assumed with
  | nil => simp [runPairs]
  | cons p rest ih =>
    intro h
    simp only [runPairs, Comparing.andThen_eq_different] at h
    rcases h with h | ⟨between, _, h⟩
    · exact hstep _ _ _ (hp p (by simp)) h
    · exact ih (fun q hq => hp q (by simp [hq])) between h

theorem compareBody_ne_different {R : TypeDefinition → TypeDefinition → Prop}
    (hR : Matching types R) (depth : Nat) (assumed : Assumptions) {a b : TypeDefinition}
    (hab : R a b) : compareBody types depth assumed a b ≠ .different := by
  induction depth generalizing assumed a b with
  | zero => simp [compareBody]
  | succ depth ih =>
    rw [compareBody_succ]
    rcases plan_of_assumed types assumed a b with ⟨_, _, _, _, _, _, _, heq⟩ | ⟨hpairs, hagree⟩
    · simp [heq, Plan.answer, Plan.run, runPairs, Comparing.andThen]
    · obtain ⟨hagree', hpairs'⟩ := hR a b hab
      rw [← hpairs] at hpairs'
      have hstep : ∀ assumed a b, R a b → compareBody types depth assumed a b ≠ .different :=
        fun assumed _ _ hab => ih assumed hab
      have hrun := runPairs_ne_different hstep hpairs' (plan types assumed a b).assumed
      intro h
      simp only [Plan.run, Comparing.andThen_eq_different] at h
      rcases h with h | ⟨between, _, h⟩
      · exact hrun h
      · simp [hagree, hagree'] at h

/-- A finished comparison says whether the definitions are alike and occur equally often. -/
theorem answer_iff_alike {a b : TypeDefinition} {answer : Bool}
    (h : equivalent? types a b = some answer) :
    answer = true ↔ a.cardinality = b.cardinality ∧ Alike types a b := by
  cases answer with
  | true =>
    obtain ⟨assumed, hsame⟩ := Comparing.answer?_eq_true.mp h
    obtain ⟨hc, hbody⟩ := guarded_eq_same.mp hsame
    exact iff_of_true rfl ⟨hc, alike_of_same hbody⟩
  | false =>
    have hdifferent := guarded_eq_different.mp (Comparing.answer?_eq_false.mp h)
    refine iff_of_false (by simp) ?_
    rintro ⟨hc, R, hR, hab⟩
    exact compareBody_ne_different hR _ _ hab (hdifferent hc)

end TypeDefinition

end ServiceCheck
