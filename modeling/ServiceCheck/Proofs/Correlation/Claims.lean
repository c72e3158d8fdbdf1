import Mathlib.Data.List.Forall2
import ServiceCheck.Correlation
import ServiceCheck.Proofs.Correlation.StaticPaths
import ServiceCheck.Proofs.Verification.Registration

set_option autoImplicit false

namespace ServiceCheck

section Lists

variable {α β : Type} (items : List α) (test : α → Prop) [DecidablePred test]

theorem flatMap_ite_nil (f : α → List β) :
    (items.flatMap fun a => if test a then f a else []) = (items.filter test).flatMap f := by
  induction items with
  | nil => rfl
  | cons a rest ih => by_cases h : test a <;> simp [h, ih]

theorem flatMap_ite_singleton (f : α → β) :
    (items.flatMap fun a => if test a then [f a] else []) = (items.filter test).map f := by
  rw [flatMap_ite_nil, List.map_eq_flatMap]

end Lists

namespace CorrelationSet

variable {types : TypeMap} {index : RequestIndex} {set : CorrelationSet} {operation : String}

def pairsOf (index : RequestIndex) (operation : String) (v : CorrelationVariable) :
    List CorrelationPair :=
  (v.aliases.filter fun a => operation ∈ index.listed a.guardType).map fun a => ⟨v.path, a.path⟩

def pairsFor (index : RequestIndex) (operation : String) (set : CorrelationSet) :
    List CorrelationPair :=
  set.members.flatMap (pairsOf index operation)

theorem aliasPairs_filter (hindex : ∀ guardType, (index.listed guardType).Nodup) :
    ((set.aliasPairs index).filter (·.1 = operation)).map (·.2) =
      set.pairsFor index operation := by
  have hlisted : ∀ guardType (pair : CorrelationPair),
      (((index.listed guardType).map fun other => (other, pair)).filter (·.1 = operation)).map
        (·.2) = if operation ∈ index.listed guardType then [pair] else [] := by
    intro guardType pair
    rw [List.filter_map, List.map_map]
    simp only [Function.comp_def]
    rw [List.filter_eq, (hindex guardType).count]
    by_cases h : operation ∈ index.listed guardType
    · rw [if_pos h, if_pos h]
      rfl
    · rw [if_neg h, if_neg h]
      rfl
  simp only [aliasPairs, List.filter_flatMap, List.map_flatMap]
  refine congrArg set.members.flatMap (funext fun v => ?_)
  rw [pairsOf, ← flatMap_ite_singleton]
  exact congrArg v.aliases.flatMap (funext fun a => hlisted a.guardType ⟨v.path, a.path⟩)

theorem nodup_keys_claims : (Dictionary.keys (set.claims index)).Nodup :=
  Dictionary.nodup_keys_foldl_push _ _ _ (by simp [Dictionary.keys])

theorem pairs_of_mem_claims (hindex : ∀ guardType, (index.listed guardType).Nodup)
    {pairs : List CorrelationPair} (h : (operation, pairs) ∈ set.claims index) :
    pairs = set.pairsFor index operation ∧ pairs ≠ [] := by
  have hget := Dictionary.get?_of_mem nodup_keys_claims h
  rw [claims, Dictionary.get?_foldl_push, aliasPairs_filter hindex] at hget
  by_cases hany : (set.aliasPairs index).any (·.1 = operation)
  · rw [if_pos hany] at hget
    have hpairs : pairs = set.pairsFor index operation := (Option.some.inj hget).symm
    refine ⟨hpairs, ?_⟩
    rw [hpairs, ← aliasPairs_filter hindex]
    simpa using hany
  · rw [if_neg hany] at hget
    cases hget

theorem listed_of_pairs (h : set.pairsFor index operation ≠ []) :
    ∃ guardType, operation ∈ index.listed guardType := by
  obtain ⟨pair, hpair⟩ := List.exists_mem_of_ne_nil _ h
  obtain ⟨v, _, hpair⟩ := List.mem_flatMap.mp hpair
  obtain ⟨a, ha, _⟩ := List.mem_map.mp hpair
  have hlisted := (List.mem_filter.mp ha).2
  exact ⟨a.guardType, of_decide_eq_true hlisted⟩

theorem pairCount_eq_one {pairs : List CorrelationPair}
    (h : set.coverageProblems operation pairs = []) {v : CorrelationVariable}
    (hv : v ∈ set.members) : pairCount pairs v = 1 := by
  simp only [coverageProblems, List.append_eq_nil_iff, List.map_eq_nil_iff,
    List.filter_eq_nil_iff, decide_eq_true_eq] at h
  have hrepeated := h.1 v hv
  have hmissing : set.members.filter (fun v => pairCount pairs v = 0) = [] := by
    by_cases hempty : (set.members.filter fun v => pairCount pairs v = 0).isEmpty
    · exact List.isEmpty_iff.mp hempty
    · rw [if_neg hempty] at h
      cases h.2
  have hpresent := List.filter_eq_nil_iff.mp hmissing v hv
  rw [decide_eq_true_eq] at hpresent
  omega

/-- No two variables have the same path, so that the pairs counted for one are its own. -/
theorem pairCount_pairsFor (hstatic : ∀ v ∈ set.members, v.path.isStatic = true)
    (hdistinct : set.members.Pairwise fun v w => v.path.samePath w.path = false)
    {v : CorrelationVariable} (hv : v ∈ set.members) :
    pairCount (set.pairsFor index operation) v = (pairsOf index operation v).length := by
  have hpath : ∀ w, ∀ pair ∈ pairsOf index operation w, pair.sessionPath = w.path := by
    intro w pair hpair
    obtain ⟨a, -, heq⟩ := List.mem_map.mp hpair
    rw [← heq]
  have hother : ∀ others : List CorrelationVariable,
      (∀ w ∈ others, w.path.samePath v.path = false) →
      pairCount (others.flatMap (pairsOf index operation)) v = 0 := by
    intro others hothers
    rw [pairCount, List.countP_eq_zero]
    intro pair hpair
    obtain ⟨w, hw, hpair⟩ := List.mem_flatMap.mp hpair
    rw [hpath w pair hpair, hothers w hw]
    exact Bool.false_ne_true
  obtain ⟨before, after, hmembers⟩ := List.append_of_mem hv
  have hself : pairCount (pairsOf index operation v) v = (pairsOf index operation v).length := by
    rw [pairCount, List.countP_eq_length]
    intro pair hpair
    rw [hpath v pair hpair]
    exact VariablePath.samePath_refl (hstatic v hv)
  rw [hmembers, List.pairwise_append, List.pairwise_cons] at hdistinct
  have hbefore := hother before fun w hw => hdistinct.2.2 w hw v List.mem_cons_self
  have hafter := hother after fun w hw => by
    have hw' : w ∈ set.members := by
      rw [hmembers]
      exact List.mem_append_right _ (List.mem_cons_of_mem _ hw)
    rw [VariablePath.samePath_comm (hstatic w hw') (hstatic v hv)]
    exact hdistinct.2.1.1 w hw
  simp only [pairCount] at hself hbefore hafter ⊢
  rw [pairsFor, hmembers, List.flatMap_append, List.flatMap_cons, List.countP_append,
    List.countP_append, hself, hbefore, hafter]
  omega

theorem forall₂_pairsFor (hstatic : ∀ v ∈ set.members, v.path.isStatic = true)
    (hdistinct : set.members.Pairwise fun v w => v.path.samePath w.path = false)
    (hcovered : set.coverageProblems operation (set.pairsFor index operation) = []) :
    List.Forall₂ (fun v pair => v ∈ set.members ∧ pairsOf index operation v = [pair]) set.members
      (set.pairsFor index operation) := by
  have hone : ∀ v ∈ set.members, (pairsOf index operation v).length = 1 := by
    intro v hv
    rw [← pairCount_pairsFor hstatic hdistinct hv, pairCount_eq_one hcovered hv]
  have hall : ∀ members : List CorrelationVariable, (∀ v ∈ members, v ∈ set.members) →
      List.Forall₂ (fun v pair => v ∈ set.members ∧ pairsOf index operation v = [pair]) members
        (members.flatMap (pairsOf index operation)) := by
    intro members hmembers
    induction members with
    | nil => exact .nil
    | cons v rest ih =>
      have hv := hmembers v List.mem_cons_self
      obtain ⟨pair, hpair⟩ := List.length_eq_one_iff.mp (hone v hv)
      rw [List.flatMap_cons, hpair]
      exact .cons ⟨hv, hpair⟩ (ih fun w hw => hmembers w (List.mem_cons_of_mem _ hw))
  exact hall set.members fun _ hv => hv

section BindAll

variable {id : Nat} {bound : Dictionary Binding} {sets : List CorrelationSet}

theorem bindAll_cons (types : TypeMap) (index : RequestIndex) (id : Nat)
    (bound : Dictionary Binding) (set : CorrelationSet) (rest : List CorrelationSet) :
    bindAll types index id bound (set :: rest) =
      ((bindAll types index (id + 1) (set.bind index id bound) rest).1,
        set.problems types index bound ++
          (bindAll types index (id + 1) (set.bind index id bound) rest).2) := rfl

theorem get?_bind {b : Binding}
    (h : Dictionary.get? (set.bind index id bound) operation = some b) :
    Dictionary.get? bound operation = some b ∨
      b.set = id ∧ (operation, b.pairs) ∈ set.claims index := by
  rw [bind, Dictionary.get?_append, Option.or_eq_some_iff] at h
  rcases h with h | ⟨-, h⟩
  · exact .inl h
  · obtain ⟨claim, hclaim, heq⟩ := List.mem_map.mp (Dictionary.mem_of_get? h)
    rw [Prod.mk.injEq] at heq
    refine .inr ⟨by rw [← heq.2], ?_⟩
    rw [← heq.1, ← heq.2]
    exact (List.mem_filter.mp hclaim).1

/-- Without problems a claimed operation was free, and the claim covers the set. -/
theorem free_of_claim (h : set.problems types index bound = [])
    {pairs : List CorrelationPair} (hclaim : (operation, pairs) ∈ set.claims index) :
    Dictionary.contains bound operation = false ∧ set.coverageProblems operation pairs = [] := by
  have hnone := List.flatMap_eq_nil_iff.mp (List.append_eq_nil_iff.mp h).2 _ hclaim
  rw [claimProblems] at hnone
  by_cases hbound : Dictionary.contains bound operation
  · rw [if_pos hbound] at hnone
    cases hnone
  · rw [if_neg hbound] at hnone
    exact ⟨by simpa using hbound, hnone⟩

/-- Without problems, each binding is a claim of its set, and one that covers the set. -/
theorem claim_of_bindAll (h : (bindAll types index id bound sets).2 = []) {b : Binding}
    (hb : Dictionary.get? (bindAll types index id bound sets).1 operation = some b) :
    Dictionary.get? bound operation = some b ∨
      ∃ i set, sets[i]? = some set ∧ b.set = id + i ∧
        (operation, b.pairs) ∈ set.claims index ∧
        set.coverageProblems operation b.pairs = [] := by
  induction sets generalizing id bound with
  | nil => exact .inl hb
  | cons set rest ih =>
    rw [bindAll_cons] at h hb
    obtain ⟨hfirst, hrest⟩ := List.append_eq_nil_iff.mp h
    rcases ih hrest hb with hbound | ⟨i, other, hother, hplace, hclaim, hcovered⟩
    · rcases get?_bind hbound with hbound | ⟨hplace, hclaim⟩
      · exact .inl hbound
      · exact .inr ⟨0, set, rfl, hplace, hclaim, (free_of_claim hfirst hclaim).2⟩
    · exact .inr ⟨i + 1, other, hother, by omega, hclaim, hcovered⟩

theorem aliasProblems_of_bindAll (h : (bindAll types index id bound sets).2 = [])
    (hset : set ∈ sets) {v : CorrelationVariable} (hv : v ∈ set.members) {a : CorrelationAlias}
    (ha : a ∈ v.aliases) : aliasProblems types a = [] := by
  induction sets generalizing id bound with
  | nil => cases hset
  | cons first rest ih =>
    rw [bindAll_cons] at h
    obtain ⟨hfirst, hrest⟩ := List.append_eq_nil_iff.mp h
    rcases List.mem_cons.mp hset with heq | hset
    · subst heq
      have hmembers := List.flatMap_eq_nil_iff.mp (List.append_eq_nil_iff.mp hfirst).1 v hv
      exact List.flatMap_eq_nil_iff.mp hmembers a ha
    · exact ih hrest hset

end BindAll

theorem admits_of_aliasProblems {a : CorrelationAlias} (h : aliasProblems types a = [])
    {keys : List String} (hkeys : a.path.keys? = some keys) :
    ∃ guard, Dictionary.get? types a.guardType = some guard ∧
      guard.admits types keys = true := by
  rw [aliasProblems] at h
  cases hguard : Dictionary.get? types a.guardType with
  | none =>
    rw [hguard] at h
    cases h
  | some guard =>
    refine ⟨guard, rfl, ?_⟩
    rw [hguard, hkeys] at h
    by_cases hadmits : guard.admits types keys
    · exact hadmits
    · simp [hadmits] at h

end CorrelationSet

end ServiceCheck
