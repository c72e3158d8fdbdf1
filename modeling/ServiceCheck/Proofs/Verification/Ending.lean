import ServiceCheck.Proofs.Types.OutOfStep
import ServiceCheck.Proofs.Verification.Acceptance

set_option autoImplicit false

namespace ServiceCheck

open TypeDefinition (equivalent? OutOfStep linkToChain shortChain longChain outOfStep_chains)

namespace Operation

theorem compareFaults_eq_unending_iff (types : TypeMap)
    (others faults : Dictionary TypeDefinition) :
    compareFaults types others faults = .unending ↔
      ∃ before name fault other after, faults = before ++ (name, fault) :: after ∧
        (∀ e ∈ before, ∃ o, Dictionary.get? others e.1 = some o ∧
          equivalent? types e.2 o = some true) ∧
        Dictionary.get? others name = some other ∧ OutOfStep types fault other := by
  constructor
  · intro h
    induction faults with
    | nil => simp [compareFaults] at h
    | cons e rest ih =>
      obtain ⟨name, fault⟩ := e
      cases ho : Dictionary.get? others name with
      | none => simp [compareFaults, ho] at h
      | some other =>
        simp only [compareFaults, ho, Comparing.andThen_eq_unending] at h
        rcases h with h | ⟨assumed, hsame, h⟩
        · have hout := (TypeDefinition.compare_eq_unending_iff types fault other).mp h
          exact ⟨[], name, fault, other, rest, rfl, by simp, ho, hout⟩
        · obtain ⟨before, name', fault', other', after, rfl, hbefore, ho', hout⟩ := ih h
          refine ⟨(name, fault) :: before, name', fault', other', after, rfl, ?_, ho', hout⟩
          intro e he
          rcases List.mem_cons.mp he with rfl | he
          · exact ⟨other, ho, Comparing.answer?_eq_true.mpr ⟨assumed, hsame⟩⟩
          · exact hbefore e he
  · rintro ⟨before, name, fault, other, after, rfl, hbefore, ho, hout⟩
    induction before with
    | nil =>
      have hu := (TypeDefinition.compare_eq_unending_iff types fault other).mpr hout
      simp [compareFaults, ho, hu, Comparing.andThen]
    | cons e rest ih =>
      obtain ⟨o, hfound, hsame⟩ := hbefore e List.mem_cons_self
      obtain ⟨assumed, hcompare⟩ := Comparing.answer?_eq_true.mp hsame
      have hrest := ih fun e he => hbefore e (List.mem_cons_of_mem _ he)
      simpa [compareFaults, hfound, hcompare, Comparing.andThen] using hrest

/-- The pairs of types that the comparison of two signatures comes to. -/
inductive ComparesTypes (types : TypeMap) (first later : Operation) :
    TypeDefinition → TypeDefinition → Prop where
  | request : ComparesTypes types first later first.request later.request
  | response {r r' : Reply} (h : first.reply = some r) (h' : later.reply = some r') :
      ComparesTypes types first later r.response r'.response
  | fault {r r' : Reply} (h : first.reply = some r) (h' : later.reply = some r')
      (length : r.faults.length = r'.faults.length) {before after : Dictionary TypeDefinition}
      {name : String} {fault other : TypeDefinition}
      (split : r.faults = before ++ (name, fault) :: after)
      (same : ∀ e ∈ before, ∃ o, Dictionary.get? r'.faults e.1 = some o ∧
        equivalent? types e.2 o = some true)
      (found : Dictionary.get? r'.faults name = some other) :
      ComparesTypes types first later fault other

theorem compareSignatures_unending_iff (types : TypeMap) (first later : Operation) :
    (∃ part ∈ compareSignatures types first later, part.2 = .unending) ↔
      ∃ a b, ComparesTypes types first later a b ∧ OutOfStep types a b := by
  constructor
  · rintro ⟨part, hpart, hu⟩
    rcases List.mem_append.mp hpart with hpart | hpart
    · rcases List.mem_cons.mp hpart with rfl | hpart
      · simp only at hu
        split at hu <;> cases hu
      · rw [List.mem_singleton.mp hpart] at hu
        exact ⟨_, _, .request, (TypeDefinition.compare_eq_unending_iff ..).mp hu⟩
    · cases hr : first.reply with
      | none => simp [hr] at hpart
      | some r =>
        cases hr' : later.reply with
        | none => simp [hr, hr'] at hpart
        | some r' =>
          simp only [hr, hr', List.mem_cons, List.not_mem_nil, or_false] at hpart
          rcases hpart with rfl | rfl
          · exact ⟨_, _, .response hr hr', (TypeDefinition.compare_eq_unending_iff ..).mp hu⟩
          · simp only at hu
            split at hu
            · rename_i hlen
              obtain ⟨before, name, fault, other, after, hsplit, hsame, ho, hout⟩ :=
                (compareFaults_eq_unending_iff ..).mp hu
              exact ⟨_, _, .fault hr hr' hlen hsplit hsame ho, hout⟩
            · cases hu
  · rintro ⟨a, b, hcompares, hout⟩
    cases hcompares with
    | request =>
      exact ⟨_, List.mem_append_left _ (List.mem_cons_of_mem _ List.mem_cons_self),
        (TypeDefinition.compare_eq_unending_iff ..).mpr hout⟩
    | @response r r' hr hr' =>
      refine ⟨("response type", r.response.compare types r'.response), ?_,
        (TypeDefinition.compare_eq_unending_iff ..).mpr hout⟩
      simp [compareSignatures, hr, hr']
    | @fault r r' hr hr' hlen _ _ _ _ _ hsplit hsame ho =>
      refine ⟨("faults", compareFaults types r'.faults r.faults), ?_,
        (compareFaults_eq_unending_iff ..).mpr ⟨_, _, _, _, _, hsplit, hsame, ho, hout⟩⟩
      simp [compareSignatures, hr, hr', hlen]

end Operation

namespace Program

inductive ComparesTypes (callerTypes : TypeMap) (p : Program) :
    TypeDefinition → TypeDefinition → Prop where
  | type {first later : TypeDefinition} (h : later ∈ p.laterTypes callerTypes)
      (found : Dictionary.get? (p.allTypes callerTypes) later.id = some first) :
      ComparesTypes callerTypes p first later
  | signature {first later : Operation} (h : later ∈ p.laterOperations)
      (found : p.firstOperations.find? (·.id = later.id) = some first) {a b : TypeDefinition}
      (compares : Operation.ComparesTypes (p.allTypes callerTypes) first later a b) :
      ComparesTypes callerTypes p a b

theorem typeComparisons_unending_iff (callerTypes : TypeMap) (p : Program) :
    (∃ c ∈ p.typeComparisons callerTypes, c.2.2 = .unending) ↔
      ∃ first later, later ∈ p.laterTypes callerTypes ∧
        Dictionary.get? (p.allTypes callerTypes) later.id = some first ∧
        OutOfStep (p.allTypes callerTypes) first later := by
  simp only [typeComparisons, List.mem_filterMap, Option.map_eq_some_iff]
  constructor
  · rintro ⟨_, ⟨later, hlater, first, hfirst, rfl⟩, hu⟩
    exact ⟨first, later, hlater, hfirst, (TypeDefinition.compare_eq_unending_iff ..).mp hu⟩
  · rintro ⟨first, later, hlater, hfirst, hout⟩
    exact ⟨_, ⟨later, hlater, first, hfirst, rfl⟩,
      (TypeDefinition.compare_eq_unending_iff ..).mpr hout⟩

theorem signatureComparisons_unending_iff (callerTypes : TypeMap) (p : Program) :
    (∃ c ∈ p.signatureComparisons callerTypes, ∃ part ∈ c.2.2, part.2 = .unending) ↔
      ∃ first later, later ∈ p.laterOperations ∧
        p.firstOperations.find? (·.id = later.id) = some first ∧
        ∃ a b, Operation.ComparesTypes (p.allTypes callerTypes) first later a b ∧
          OutOfStep (p.allTypes callerTypes) a b := by
  simp only [signatureComparisons, List.mem_filterMap, Option.map_eq_some_iff,
    ← Operation.compareSignatures_unending_iff]
  constructor
  · rintro ⟨_, ⟨later, hlater, first, hfirst, rfl⟩, hu⟩
    exact ⟨first, later, hlater, hfirst, hu⟩
  · rintro ⟨first, later, hlater, hfirst, hu⟩
    exact ⟨_, ⟨later, hlater, first, hfirst, rfl⟩, hu⟩

theorem comparesForever_iff (callerTypes : TypeMap) (p : Program) :
    p.comparesForever callerTypes = true ↔
      ∃ a b, p.ComparesTypes callerTypes a b ∧ OutOfStep (p.allTypes callerTypes) a b := by
  simp only [comparesForever, Bool.or_eq_true, List.any_eq_true, decide_eq_true_eq,
    typeComparisons_unending_iff, signatureComparisons_unending_iff]
  constructor
  · rintro (⟨first, later, hlater, hfirst, hout⟩ | ⟨_, _, hlater, hfirst, a, b, hab, hout⟩)
    · exact ⟨first, later, .type hlater hfirst, hout⟩
    · exact ⟨a, b, .signature hlater hfirst hab, hout⟩
  · rintro ⟨a, b, hcompares, hout⟩
    cases hcompares with
    | type hlater hfirst => exact .inl ⟨_, _, hlater, hfirst, hout⟩
    | signature hlater hfirst hab => exact .inr ⟨_, _, hlater, hfirst, _, _, hab, hout⟩

/-- A comparison comes to an end exactly for definitions that are not out of step, and the
verification of a program exactly when it compares no types that are. -/
theorem comparison_ends_iff (types : TypeMap) (a b : TypeDefinition) (callerTypes : TypeMap)
    (config : Config) (p : Program) :
    ((∃ depth, TypeDefinition.guarded (TypeDefinition.compareBody types depth) .empty a b ≠
      .unending) ↔ ¬OutOfStep types a b) ∧
    ((equivalent? types a b).isSome ↔ ¬OutOfStep types a b) ∧
    (p.verify callerTypes config ≠ .unending ↔
      ∀ a b, p.ComparesTypes callerTypes a b → ¬OutOfStep (p.allTypes callerTypes) a b) := by
  refine ⟨TypeDefinition.exists_depth_iff types a b, ?_, ?_⟩
  · rw [← TypeDefinition.compare_eq_unending_iff, ← Option.ne_none_iff_isSome, ne_eq,
      equivalent?, Comparing.answer?_eq_none]
  · rw [ne_eq, verify_eq_unending_iff, comparesForever_iff]
    constructor
    · intro hends a b hab hout
      exact hends ⟨a, b, hab, hout⟩
    · intro hall h
      obtain ⟨a, b, hab, hout⟩ := h
      exact hall a b hab hout

theorem chains_compare_forever :
    equivalent? [("A", longChain)] linkToChain shortChain = none ∧
      (Program.mk .unknown [.type longChain, .type linkToChain, .type shortChain]).verify []
        .standard = .unending := by
  constructor
  · have hout : OutOfStep [("A", longChain)] linkToChain shortChain := outOfStep_chains rfl
    exact Comparing.answer?_eq_none.mpr ((TypeDefinition.compare_eq_unending_iff ..).mpr hout)
  · rw [verify_eq_unending_iff, comparesForever_iff]
    refine ⟨linkToChain, shortChain, .type ?_ rfl, outOfStep_chains rfl⟩
    change shortChain ∈ [shortChain]
    exact List.mem_cons_self

end Program

end ServiceCheck
