import ServiceCheck.Proofs.Correlation.Claims
import ServiceCheck.Proofs.Verification.BareRedeclarations

set_option autoImplicit false

namespace ServiceCheck

open Dictionary (mapValues)

namespace CorrelationSet

variable (types : TypeMap) (index : RequestIndex) (set : CorrelationSet)

theorem claims_bare :
    set.bare.claims index =
      mapValues (List.map CorrelationPair.bare) (set.claims index) := by
  have hpairs : set.bare.aliasPairs index =
      mapValues CorrelationPair.bare (set.aliasPairs index) := by
    simp [aliasPairs, bare, mapValues, CorrelationVariable.bare, CorrelationAlias.bare,
      CorrelationPair.bare, List.flatMap_map, List.map_flatMap, Function.comp_def]
  rw [claims, hpairs, claims]
  exact Dictionary.foldl_push_mapValues CorrelationPair.bare _ []

theorem bind_bare (id : Nat) (bound : Dictionary Binding) :
    set.bare.bind index id (mapValues Binding.bare bound) =
      mapValues Binding.bare (set.bind index id bound) := by
  simp only [bind, claims_bare, Dictionary.mapValues_append, Dictionary.contains_mapValues]
  simp [mapValues, List.filter_map, Function.comp_def, Binding.bare]

theorem bindings_bare (id : Nat) (bound : Dictionary Binding) (sets : List CorrelationSet) :
    (bindAll types.bare index id (mapValues Binding.bare bound) (sets.map bare)).1 =
      mapValues Binding.bare (bindAll types index id bound sets).1 := by
  induction sets generalizing id bound with
  | nil => rfl
  | cons set rest ih => simp only [List.map_cons, bindAll, bind_bare, ih]

theorem aliasProblems_bare (a : CorrelationAlias) :
    (aliasProblems types.bare a.bare).map Diagnostic.wording =
      (aliasProblems types a).map Diagnostic.wording := by
  simp only [aliasProblems, CorrelationAlias.bare, TypeMap.get?_bare, VariablePath.keys?_bare]
  cases Dictionary.get? types a.guardType with
  | none => rfl
  | some guard =>
    cases a.path.keys? with
    | none => rfl
    | some keys => simp [apply_ite (List.map Diagnostic.wording)]

variable {index set}

theorem sessionPath_isStatic (hindex : ∀ guardType, (index.listed guardType).Nodup)
    (hset : set.MembersStatic) {operation : String} {pairs : List CorrelationPair}
    (h : (operation, pairs) ∈ set.claims index) :
    ∀ pair ∈ pairs, pair.sessionPath.isStatic = true := by
  intro pair hpair
  rw [(pairs_of_mem_claims hindex h).1] at hpair
  obtain ⟨v, hv, hpair⟩ := List.mem_flatMap.mp hpair
  obtain ⟨a, -, rfl⟩ := List.mem_map.mp hpair
  exact hset v hv

theorem pairCount_bare {pairs : List CorrelationPair} {v : CorrelationVariable}
    (hpairs : ∀ pair ∈ pairs, pair.sessionPath.isStatic = true) (hv : v.path.isStatic = true) :
    pairCount (pairs.map CorrelationPair.bare) v.bare = pairCount pairs v := by
  rw [pairCount, pairCount, List.countP_map]
  exact List.countP_congr fun pair hpair => by
    rw [← VariablePath.samePath_bare (hpairs pair hpair) hv]
    rfl

theorem coverageProblems_bare (hset : set.MembersStatic) (operation : String)
    {pairs : List CorrelationPair}
    (hpairs : ∀ pair ∈ pairs, pair.sessionPath.isStatic = true) :
    (set.bare.coverageProblems operation (pairs.map CorrelationPair.bare)).map
        Diagnostic.wording =
      (set.coverageProblems operation pairs).map Diagnostic.wording := by
  have hfilter : ∀ test : Nat → Bool,
      set.bare.members.filter
          (fun v => test (pairCount (pairs.map CorrelationPair.bare) v)) =
        (set.members.filter fun v => test (pairCount pairs v)).map CorrelationVariable.bare := by
    intro test
    refine List.filter_map.trans (congrArg (List.map CorrelationVariable.bare) ?_)
    exact List.filter_congr fun v hv => congrArg test (pairCount_bare hpairs (hset v hv))
  have hpath : ∀ v : CorrelationVariable, v.bare.path = v.path.bare := fun _ => rfl
  simp [coverageProblems, hfilter (1 < ·), hfilter (· = 0), hpath, Function.comp_def,
    apply_ite (List.map Diagnostic.wording)]

theorem claimProblems_bare (hset : set.MembersStatic) (bound : Dictionary Binding)
    (operation : String) {pairs : List CorrelationPair}
    (hpairs : ∀ pair ∈ pairs, pair.sessionPath.isStatic = true) :
    (set.bare.claimProblems (mapValues Binding.bare bound) operation
        (pairs.map CorrelationPair.bare)).map Diagnostic.wording =
      (set.claimProblems bound operation pairs).map Diagnostic.wording := by
  simp only [claimProblems, Dictionary.contains_mapValues]
  by_cases h : Dictionary.contains bound operation
  · simp [h]
  · rw [if_neg h, if_neg h]
    exact coverageProblems_bare hset operation hpairs

theorem problems_bare (hindex : ∀ guardType, (index.listed guardType).Nodup)
    (hset : set.MembersStatic) (bound : Dictionary Binding) :
    (set.bare.problems types.bare index (mapValues Binding.bare bound)).map Diagnostic.wording =
      (set.problems types index bound).map Diagnostic.wording := by
  have haliases : (set.bare.members.flatMap fun v =>
      v.aliases.flatMap (aliasProblems types.bare)).map Diagnostic.wording =
        (set.members.flatMap fun v => v.aliases.flatMap (aliasProblems types)).map
          Diagnostic.wording := by
    simp only [bare, CorrelationVariable.bare, List.flatMap_map, List.map_flatMap,
      aliasProblems_bare]
  have hclaims : ((set.bare.claims index).flatMap fun claim =>
      set.bare.claimProblems (mapValues Binding.bare bound) claim.1 claim.2).map
        Diagnostic.wording =
      ((set.claims index).flatMap fun claim => set.claimProblems bound claim.1 claim.2).map
        Diagnostic.wording := by
    rw [claims_bare, Dictionary.flatMap_mapValues, List.map_flatMap, List.map_flatMap]
    exact List.flatMap_congr fun claim hclaim =>
      claimProblems_bare hset bound claim.1 (sessionPath_isStatic hindex hset hclaim)
  rw [problems, problems, List.map_append, List.map_append, haliases, hclaims]

theorem bindProblems_bare (hindex : ∀ guardType, (index.listed guardType).Nodup) (id : Nat)
    (bound : Dictionary Binding) (sets : List CorrelationSet)
    (hsets : ∀ set ∈ sets, set.MembersStatic) :
    (bindAll types.bare index id (mapValues Binding.bare bound) (sets.map bare)).2.map
        Diagnostic.wording =
      (bindAll types index id bound sets).2.map Diagnostic.wording := by
  induction sets generalizing id bound with
  | nil => rfl
  | cons set rest ih =>
    obtain ⟨hset, hrest⟩ := List.forall_mem_cons.mp hsets
    simp only [List.map_cons, bindAll, List.map_append, bind_bare, ih _ _ hrest,
      problems_bare types hindex hset]

end CorrelationSet

end ServiceCheck
