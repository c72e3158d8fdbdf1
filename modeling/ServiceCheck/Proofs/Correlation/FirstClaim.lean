import Mathlib.Data.List.Nodup
import ServiceCheck.Proofs.Correlation.Binding

set_option autoImplicit false

namespace ServiceCheck

namespace CorrelationSet.RequestIndex

/-- No operation is listed twice, under whatever request types. -/
structure ListsOnce (index : RequestIndex) : Prop where
  types : (Dictionary.keys index).Nodup
  operations : (Dictionary.values index).flatten.Nodup

def requestType? (index : RequestIndex) (operation : String) : Option String :=
  (index.find? (operation ∈ ·.2)).map (·.1)

variable {index : RequestIndex}

theorem ListsOnce.nodup_listed (h : index.ListsOnce) (type : String) :
    (index.listed type).Nodup := by
  rw [listed]
  cases hget : Dictionary.get? index type with
  | none => exact .nil
  | some operations =>
    refine (List.nodup_flatten.mp h.operations).1 operations ?_
    exact List.mem_map.mpr ⟨_, Dictionary.mem_of_get? hget, rfl⟩

theorem listed_cons (type : String) (operations : List String) (rest : RequestIndex)
    (other : String) :
    listed ((type, operations) :: rest) other =
      if type = other then operations else listed rest other := by
  rw [listed, Dictionary.get?_cons]
  split <;> rfl

theorem requestType?_cons (type : String) (operations : List String) (rest : RequestIndex)
    (operation : String) :
    requestType? ((type, operations) :: rest) operation =
      if operation ∈ operations then some type else requestType? rest operation := by
  by_cases h : operation ∈ operations <;> simp [requestType?, h]

theorem mem_flatten_of_listed {operation type : String} (h : operation ∈ index.listed type) :
    operation ∈ (Dictionary.values index).flatten := by
  rw [listed] at h
  cases hget : Dictionary.get? index type with
  | none =>
    rw [hget] at h
    cases h
  | some operations =>
    rw [hget] at h
    exact List.mem_flatten.mpr
      ⟨operations, List.mem_map.mpr ⟨_, Dictionary.mem_of_get? hget, rfl⟩, h⟩

theorem mem_keys_of_requestType? {operation type : String}
    (h : index.requestType? operation = some type) : type ∈ Dictionary.keys index := by
  obtain ⟨e, he, rfl⟩ := Option.map_eq_some_iff.mp h
  exact List.mem_map.mpr ⟨e, List.mem_of_find?_eq_some he, rfl⟩

theorem ListsOnce.mem_listed_iff (h : index.ListsOnce) (operation type : String) :
    operation ∈ index.listed type ↔ index.requestType? operation = some type := by
  induction index with
  | nil => simp [listed, requestType?, Dictionary.get?_nil]
  | cons e rest ih =>
    obtain ⟨first, operations⟩ := e
    obtain ⟨hfirst, htypes⟩ := List.nodup_cons.mp h.types
    obtain ⟨-, hoperations, hdisjoint⟩ := List.nodup_append'.mp h.operations
    have hrest := ih ⟨htypes, hoperations⟩
    rw [listed_cons, requestType?_cons]
    by_cases hmem : operation ∈ operations
    · have hnot : operation ∉ listed rest type := fun hlisted =>
        hdisjoint hmem (mem_flatten_of_listed hlisted)
      by_cases htype : first = type <;> simp [htype, hmem, hnot]
    · by_cases htype : first = type
      · have hnot : requestType? rest operation ≠ some type := fun hlater =>
          hfirst (htype ▸ mem_keys_of_requestType? hlater)
        simp [htype, hmem, hnot]
      · simp [htype, hmem, hrest]

end CorrelationSet.RequestIndex

namespace CorrelationSet

variable {types : TypeMap} {index : RequestIndex} {set : CorrelationSet} {operation : String}

instance (set : CorrelationSet) : DecidablePred set.Guards := fun type =>
  inferInstanceAs (Decidable (∃ v ∈ set.members, ∃ a ∈ v.aliases, a.guardType = type))

/-- The operations that a set claims, each once, in the order of the first alias for it. -/
def claimed (index : RequestIndex) (set : CorrelationSet) : List String :=
  firstNamed id []
    (set.members.flatMap fun v => v.aliases.flatMap fun a => index.listed a.guardType)

theorem keys_claims : Dictionary.keys (set.claims index) = set.claimed index := by
  have hfold : ∀ (entries : List (String × CorrelationPair))
      (d : Dictionary (List CorrelationPair)),
      Dictionary.keys (entries.foldl (fun d e => Dictionary.push d e.1 e.2) d) =
        Dictionary.keys d ++ firstNamed id (Dictionary.keys d) (entries.map (·.1)) := by
    intro entries
    induction entries with
    | nil => simp [firstNamed]
    | cons e rest ih =>
      intro d
      rw [List.foldl_cons, ih, Dictionary.push, Dictionary.keys_set, List.map_cons, firstNamed]
      by_cases hmem : e.1 ∈ Dictionary.keys d
      · simp only [id, hmem, if_true]
      · simp only [id, hmem, if_false, List.append_assoc, List.singleton_append]
        refine congrArg (_ ++ e.1 :: ·) (firstNamed_congr fun key => ?_)
        simp [or_comm]
  have hoperations : (set.aliasPairs index).map (·.1) =
      set.members.flatMap fun v => v.aliases.flatMap fun a => index.listed a.guardType := by
    simp [aliasPairs, List.map_flatMap, RequestIndex.listed, Function.comp_def]
  rw [claims, hfold, hoperations]
  rfl

theorem nodup_claimed : (set.claimed index).Nodup := keys_claims ▸ nodup_keys_claims

def binding? (index : RequestIndex) (set : CorrelationSet) (operation : String) (id : Nat) :
    Option Binding :=
  if operation ∈ set.claimed index then some ⟨id, set.pairsFor index operation⟩ else none

section ListsOnce

variable (hindex : index.ListsOnce)
include hindex

theorem mem_claimed_iff :
    operation ∈ set.claimed index ↔
      ∃ type, index.requestType? operation = some type ∧ set.Guards type := by
  have hmem : operation ∈ set.claimed index ↔ ∃ pairs, (operation, pairs) ∈ set.claims index := by
    rw [← keys_claims, Dictionary.keys, List.mem_map]
    constructor
    · rintro ⟨e, he, rfl⟩
      exact ⟨e.2, he⟩
    · rintro ⟨pairs, he⟩
      exact ⟨_, he, rfl⟩
  rw [hmem, exists_claim_iff]
  exact exists_congr fun type => by rw [hindex.mem_listed_iff, and_comm]

theorem claims_eq :
    set.claims index =
      (set.claimed index).map fun operation => (operation, set.pairsFor index operation) := by
  rw [← keys_claims, Dictionary.keys, List.map_map]
  refine (List.map_id _).symm.trans (List.map_congr_left fun e he => ?_)
  exact Prod.ext rfl (pairs_of_mem_claims hindex.nodup_listed he).1

theorem get?_bind_eq (id : Nat) (bound : Dictionary Binding) :
    Dictionary.get? (set.bind index id bound) operation =
      (Dictionary.get? bound operation).or (set.binding? index operation id) := by
  rw [bind, Dictionary.get?_append]
  cases hbound : Dictionary.get? bound operation with
  | some b => rfl
  | none =>
    have hfree : Dictionary.contains bound operation = false := by
      rw [Dictionary.contains, hbound]
      rfl
    have hentry : (fun claim : String × List CorrelationPair => (claim.1, Binding.mk id claim.2)) ∘
        (fun operation => (operation, set.pairsFor index operation)) =
          fun operation => (operation, ⟨id, set.pairsFor index operation⟩) := rfl
    rw [Option.none_or, Option.none_or, claims_eq hindex, List.filter_map, List.map_map, hentry,
      Dictionary.get?_map_pair, binding?]
    simp [hfree]

/-- The first set that claims an operation gets it, unless it is taken already. -/
theorem get?_bindAll (id : Nat) (bound : Dictionary Binding) (sets : List CorrelationSet) :
    Dictionary.get? (bindAll types index id bound sets).1 operation =
      (Dictionary.get? bound operation).or
        ((sets.zipIdx id).findSome? fun e => e.1.binding? index operation e.2) := by
  induction sets generalizing id bound with
  | nil => simp [bindAll]
  | cons set rest ih =>
    rw [bindAll_cons, ih, get?_bind_eq hindex, Option.or_assoc, List.zipIdx_cons,
      List.findSome?_cons]
    cases set.binding? index operation id <;> simp only [Option.none_or, Option.some_or]

theorem findSome?_binding? (id : Nat) (sets : List CorrelationSet) :
    ((sets.zipIdx id).findSome? fun e => e.1.binding? index operation e.2).map (·.set) =
      (index.requestType? operation).bind fun type =>
        (sets.findIdx? (·.Guards type)).map (id + ·) := by
  cases htype : index.requestType? operation with
  | none =>
    have hnone : ∀ e ∈ sets.zipIdx id, e.1.binding? index operation e.2 = none := fun e _ => by
      rw [binding?, if_neg]
      rw [mem_claimed_iff hindex, htype]
      rintro ⟨_, h, -⟩
      cases h
    rw [List.findSome?_eq_none_iff.mpr hnone]
    rfl
  | some type =>
    have hclaimed : ∀ set : CorrelationSet, operation ∈ set.claimed index ↔ set.Guards type :=
      fun set => by simp [mem_claimed_iff hindex, htype]
    rw [Option.bind_some]
    induction sets generalizing id with
    | nil => rfl
    | cons set rest ih =>
      rw [List.zipIdx_cons, List.findSome?_cons, List.findIdx?_cons, binding?]
      simp only [hclaimed]
      by_cases hguards : set.Guards type
      · simp [hguards]
      · simp [hguards, ih, Nat.add_assoc, Nat.add_comm 1, Function.comp_def]

end ListsOnce

end CorrelationSet

namespace Program

/-- The index of a program lists every operation under the request type of its first declaration,
and under no other. -/
theorem listsOnce_requestIndex (p : Program) : p.requestIndex.ListsOnce := by
  have htypes : (Dictionary.keys p.requestIndex).Nodup :=
    Dictionary.nodup_keys_foldl_push _ _ _ List.nodup_nil
  have hlisted : ∀ e ∈ p.requestIndex, p.requestIndex.listed e.1 = e.2 := fun e he => by
    rw [CorrelationSet.RequestIndex.listed, Dictionary.get?_of_mem htypes he, Option.getD_some]
  refine ⟨htypes, List.nodup_flatten.mpr ⟨?_, ?_⟩⟩
  · rintro _ hoperations
    obtain ⟨e, he, rfl⟩ := List.mem_map.mp hoperations
    exact hlisted e he ▸ p.nodup_listed e.1
  · refine List.pairwise_map.mpr ((List.pairwise_map.mp htypes).imp_of_mem ?_)
    intro e e' he he' hne operation h h'
    rw [← hlisted e he, mem_listed_iff] at h
    rw [← hlisted e' he', mem_listed_iff] at h'
    obtain ⟨o, ho, htype⟩ := h
    obtain ⟨o', ho', htype'⟩ := h'
    rw [ho] at ho'
    exact hne (htype.symm.trans (Option.some.inj ho' ▸ htype'))

end Program

end ServiceCheck
