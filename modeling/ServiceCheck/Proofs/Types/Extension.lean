import ServiceCheck.Proofs.Types.OutOfStep
import ServiceCheck.Types.Admission

/-!
What stays when more types are known. A comparison that finds two definitions the same has looked
up only names that were there, so the larger map leads it along the same pairs; a path that a type
admits is admitted still. Differences may go away, since a dangling name may be found now.
-/

set_option autoImplicit false

namespace ServiceCheck

structure TypeMap.Extends (types types' : TypeMap) : Prop where
  found : ∀ name t, Dictionary.get? types name = some t → Dictionary.get? types' name = some t
  length : types.length ≤ types'.length

namespace TypeDefinition

variable {types types' : TypeMap}

theorem Resolves.mono (h : types.Extends types') {t t' : TypeDefinition}
    (hresolves : Resolves types t t') : Resolves types' t t' := by
  induction hresolves with
  | inline => exact .inline ..
  | choice => exact .choice ..
  | link found _ ih => exact .link (h.found _ _ found) ih

theorem unlink?_mono (h : types.Extends types') {t t' : TypeDefinition}
    (hunlink : t.unlink? types types.length = some t') :
    t.unlink? types' types'.length = some t' := by
  rw [unlink?_eq_some_iff] at hunlink ⊢
  exact hunlink.mono h

theorem plan_eq_of_agree (h : types.Extends types') {assumed : Assumptions} {a b : TypeDefinition}
    (hagree : (plan types assumed a b).agree = true) :
    plan types' assumed a b = plan types assumed a b := by
  cases a with
  | link hd x =>
    cases b with
    | link hd' y =>
      by_cases heq : x = y ∨ assumed.holds x y
      · simp only [plan, heq, if_true]
      · simp only [plan, heq, if_false] at hagree ⊢
        cases hx : Dictionary.get? types x with
        | none => simp [hx, Plan.answer] at hagree
        | some t =>
          cases hy : Dictionary.get? types y with
          | none => simp [hx, hy, Plan.answer] at hagree
          | some t' => rw [h.found _ _ hx, h.found _ _ hy]
    | inline | choice =>
      simp only [plan] at hagree ⊢
      cases ht : (TypeDefinition.link hd x).unlink? types types.length with
      | none => simp [ht, Plan.answer] at hagree
      | some t => rw [unlink?_mono h ht]
  | inline | choice =>
    cases b with
    | link hd' y =>
      simp only [plan] at hagree ⊢
      cases ht : (TypeDefinition.link hd' y).unlink? types types.length with
      | none => simp [ht, Plan.answer] at hagree
      | some t => rw [unlink?_mono h ht]
    | inline | choice => rfl

theorem runPairs_eq_same_mono {step step' : Step}
    (hstep : ∀ assumed a b assumed', step assumed a b = .same assumed' →
      step' assumed a b = .same assumed')
    {pairs : List (TypeDefinition × TypeDefinition)} {assumed assumed' : Assumptions}
    (h : runPairs step assumed pairs = .same assumed') :
    runPairs step' assumed pairs = .same assumed' := by
  induction pairs generalizing assumed with
  | nil => exact h
  | cons p rest ih =>
    simp only [runPairs, Comparing.andThen_eq_same] at h ⊢
    obtain ⟨between, hfirst, hrest⟩ := h
    exact ⟨between, hstep _ _ _ _ hfirst, ih hrest⟩

theorem compareBody_eq_same_mono (h : types.Extends types') {depth : Nat}
    {assumed assumed' : Assumptions} {a b : TypeDefinition}
    (hsame : compareBody types depth assumed a b = .same assumed') :
    compareBody types' depth assumed a b = .same assumed' := by
  induction depth generalizing assumed assumed' a b with
  | zero => cases hsame
  | succ depth ih =>
    rw [compareBody_succ, Plan.run_eq_same_iff] at hsame
    rw [compareBody_succ, plan_eq_of_agree h hsame.1, Plan.run_eq_same_iff]
    exact ⟨hsame.1, runPairs_eq_same_mono (fun _ _ _ _ => ih) hsame.2⟩

theorem compare_eq_same_mono (h : types.Extends types') {a b : TypeDefinition}
    {assumed : Assumptions} (hsame : compare types a b = .same assumed) :
    compare types' a b = .same assumed := by
  obtain ⟨hcardinality, hbody⟩ := guarded_eq_same.mp hsame
  have hlarger := guarded_eq_same.mpr ⟨hcardinality, compareBody_eq_same_mono h hbody⟩
  -- the larger map has a larger bound on the depth, which takes no answer away
  rw [compare_eq_of_finished types' (by rw [hlarger]; exact nofun), hlarger]

section Admission

variable {test test' : InlineTest}

theorem anyAlternative_mono {link link' : String → Bool}
    (htest : ∀ n s u, test n s u = true → test' n s u = true)
    (hlink : ∀ name, link name = true → link' name = true) {t : TypeDefinition}
    (ht : t.anyAlternative test link = true) : t.anyAlternative test' link' = true := by
  induction t using anyAlternative.induct with
  | case1 => exact htest _ _ _ ht
  | case2 => exact hlink _ ht
  | case3 _ l r ihl ihr =>
    rw [anyAlternative, Bool.or_eq_true] at ht ⊢
    exact ht.imp ihl ihr

theorem anyReachable_mono (h : types.Extends types')
    (htest : ∀ n s u, test n s u = true → test' n s u = true) {budget budget' : Nat}
    (hbudget : budget ≤ budget') {followed : List String} {t : TypeDefinition}
    (ht : anyReachable types test budget followed t = true) :
    anyReachable types' test' budget' followed t = true := by
  induction budget generalizing budget' followed t with
  | zero =>
    cases budget' <;>
      exact anyAlternative_mono htest (fun _ hname => absurd hname Bool.false_ne_true) ht
  | succ budget ih =>
    obtain ⟨budget', rfl⟩ : ∃ n, budget' = n + 1 := ⟨budget' - 1, by omega⟩
    refine anyAlternative_mono htest (fun name hname => ?_) ht
    obtain ⟨hnew, hnext⟩ := Bool.and_eq_true_iff.mp hname
    refine Bool.and_eq_true_iff.mpr ⟨hnew, ?_⟩
    cases hfound : Dictionary.get? types name with
    | none => simp [hfound] at hnext
    | some next =>
      simp only [hfound] at hnext
      simp only [h.found _ _ hfound]
      exact ih (Nat.le_of_succ_le_succ hbudget) hnext

theorem admits_mono (h : types.Extends types') {keys : List String} {t : TypeDefinition}
    (ht : t.admits types keys = true) : t.admits types' keys = true := by
  induction keys generalizing t with
  | nil => exact anyReachable_mono h (fun _ _ _ hpassed => hpassed) h.length ht
  | cons key keys ih =>
    refine anyReachable_mono h (fun _ s _ hpassed => ?_) h.length ht
    refine Bool.or_eq_true_iff.mpr ((Bool.or_eq_true_iff.mp hpassed).imp_right fun hsub => ?_)
    cases hfound : Dictionary.get? s key with
    | none => simp [hfound] at hsub
    | some sub =>
      simp only [hfound] at hsub
      exact ih hsub

end Admission

end TypeDefinition

end ServiceCheck
