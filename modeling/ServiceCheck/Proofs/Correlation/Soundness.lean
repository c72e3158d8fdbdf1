import ServiceCheck.Program.Construction
import ServiceCheck.Proofs.Correlation.Claims
import ServiceCheck.Proofs.Verification.Kinds

set_option autoImplicit false

namespace ServiceCheck

/-- The pair fills the variable from messages of the guard type. -/
structure CorrelationPair.Fills (types : TypeMap) (guardType : String) (v : CorrelationVariable)
    (pair : CorrelationPair) : Prop where
  session : pair.sessionPath = v.path
  ofAlias : ∃ a ∈ v.aliases, a.guardType = guardType ∧ pair.messagePath = a.path
  normal : pair.messagePath.kind = .normal
  static : pair.messagePath.isStatic = true
  admitted : ∃ guard keys, Dictionary.get? types guardType = some guard ∧
    pair.messagePath.keys? = some keys ∧ guard.admits types keys = true

structure CorrelationFunction.Sound (p : Program) (types : TypeMap) (f : CorrelationFunction) :
    Prop where
  sets : f.sets = p.correlationSets
  exposed : ∀ operation id, f.setId? operation = some id →
    ∃ port ∈ p.inputPorts, ∃ o ∈ port.allOperations, o.id = operation
  pairs : ∀ operation id, f.setId? operation = some id →
    ∃ set first, f.sets[id]? = some set ∧ p.registered? operation = some first ∧
      List.Forall₂ (CorrelationPair.Fills types first.request.id) set.members
        (f.pairs operation)
  distinct : ∀ set ∈ f.sets, set.members.Pairwise fun v w => v.path.samePath w.path = false

namespace CorrelationSet

theorem plainPathProblem?_eq_none_iff (path : VariablePath) :
    plainPathProblem? path = none ↔ path.kind = .normal ∧ path.isStatic = true := by
  rw [plainPathProblem?, VariablePath.isGlobal, VariablePath.isCorrelation]
  cases path.kind <;> cases path.isStatic <;> simp

/-- What the checks of a declared set leave: plain paths, and no path twice. -/
structure Plain (set : CorrelationSet) : Prop where
  members : ∀ v ∈ set.members, v.path.isStatic = true
  aliases : ∀ v ∈ set.members, ∀ a ∈ v.aliases, a.path.kind = .normal ∧ a.path.isStatic = true
  distinct : set.members.Pairwise fun v w => v.path.samePath w.path = false

theorem exists_variableProblems {set : CorrelationSet} {earlier members : List CorrelationVariable}
    (h : set.declarationProblemsFrom earlier members = []) {v : CorrelationVariable}
    (hv : v ∈ members) : ∃ before, set.variableProblems before v = [] := by
  induction members generalizing earlier with
  | nil => cases hv
  | cons first rest ih =>
    obtain ⟨hfirst, hrest⟩ := List.append_eq_nil_iff.mp h
    rcases List.mem_cons.mp hv with heq | hv
    · exact ⟨earlier, heq ▸ hfirst⟩
    · exact ih hrest hv

theorem distinct_of_declarationProblemsFrom {set : CorrelationSet}
    {earlier members : List CorrelationVariable}
    (h : set.declarationProblemsFrom earlier members = []) :
    (∀ u ∈ earlier, ∀ v ∈ members, u.path.samePath v.path = false) ∧
      members.Pairwise fun v w => v.path.samePath w.path = false := by
  induction members generalizing earlier with
  | nil => exact ⟨fun _ _ _ hv => (List.not_mem_nil hv).elim, .nil⟩
  | cons first rest ih =>
    obtain ⟨hfirst, hrest⟩ := List.append_eq_nil_iff.mp h
    obtain ⟨hearlier, hpairwise⟩ := ih hrest
    have hnew : earlier.any (·.path.samePath first.path) = false := by
      have hrepeated := (List.append_eq_nil_iff.mp (List.append_eq_nil_iff.mp hfirst).1).2
      by_cases hany : earlier.any (·.path.samePath first.path)
      · rw [if_pos hany] at hrepeated
        cases hrepeated
      · simpa using hany
    refine ⟨fun u hu v hv => ?_, List.pairwise_cons.mpr ⟨fun w hw => ?_, hpairwise⟩⟩
    · rcases List.mem_cons.mp hv with heq | hv
      · rw [heq]
        simpa using List.any_eq_false.mp hnew u hu
      · exact hearlier u (List.mem_append_left _ hu) v hv
    · exact hearlier first (List.mem_append_right _ (List.mem_singleton_self _)) w hw

theorem plain_of_pathProblems {set : CorrelationSet} {subject : String} {path : VariablePath}
    (h : set.pathProblems subject path = []) : path.kind = .normal ∧ path.isStatic = true := by
  rw [← plainPathProblem?_eq_none_iff]
  simpa [pathProblems] using h

theorem plain_of_declarationProblems {set : CorrelationSet} (h : set.declarationProblems = []) :
    set.Plain where
  members v hv := by
    obtain ⟨before, hnone⟩ := exists_variableProblems h hv
    have hpath := (List.append_eq_nil_iff.mp (List.append_eq_nil_iff.mp hnone).1).1
    exact (plain_of_pathProblems hpath).2
  aliases v hv a ha := by
    obtain ⟨before, hnone⟩ := exists_variableProblems h hv
    have halias := List.flatMap_eq_nil_iff.mp (List.append_eq_nil_iff.mp hnone).2 a ha
    exact plain_of_pathProblems halias
  distinct := (distinct_of_declarationProblemsFrom h).2

end CorrelationSet

namespace Program

variable {callerTypes : TypeMap} {config : Config} {p : Program} {v : Validated}

theorem plain_of_accepted (h : p.verify callerTypes config = .accepted v) {set : CorrelationSet}
    (hset : set ∈ p.correlationSets) : set.Plain := by
  obtain ⟨declaration, hdeclared, hsome⟩ := List.mem_filterMap.mp hset
  have hdeclaration : declaration = .correlationSet set := by
    cases declaration <;> simp at hsome
    rw [hsome]
  rw [hdeclaration] at hdeclared
  obtain ⟨t, ht⟩ := exists_problems_eq_nil h hdeclared
  exact CorrelationSet.plain_of_declarationProblems (List.append_eq_nil_iff.mp ht).1

theorem correlation_problems_of_accepted (h : p.verify callerTypes config = .accepted v) :
    (p.correlation callerTypes).2 = [] := by
  obtain ⟨-, -, -, -, hcorrelation, -⟩ :=
    problems_eq_nil_iff.mp (problems_eq_nil_of_accepted h)
  exact hcorrelation

theorem exposed_of_registered {operation : String} {o : Operation}
    (h : p.registered? operation = some o) :
    ∃ port ∈ p.inputPorts, ∃ o ∈ port.allOperations, o.id = operation := by
  obtain ⟨port, hport, ho⟩ := List.mem_flatMap.mp (List.mem_of_find?_eq_some h)
  exact ⟨port, hport, o, ho, by simpa using List.find?_some h⟩

/-- What a binding of the accepted correlation function comes from. -/
theorem exists_claim_of_accepted (h : p.verify callerTypes config = .accepted v)
    {operation : String} {b : Binding}
    (hb : Dictionary.get? v.correlation.bindings operation = some b) :
    ∃ set first, p.correlationSets[b.set]? = some set ∧ p.registered? operation = some first ∧
      b.pairs = set.pairsFor p.requestIndex operation ∧
      set.coverageProblems operation b.pairs = [] := by
  rw [correlation_of_accepted h] at hb
  have hclaim := CorrelationSet.claim_of_bindAll (correlation_problems_of_accepted h) hb
  rcases hclaim with hnone | ⟨i, set, hset, hplace, hclaim, hcovered⟩
  · cases hnone
  · obtain ⟨hpairs, hne⟩ := CorrelationSet.pairs_of_mem_claims p.nodup_listed hclaim
    obtain ⟨guardType, hlisted⟩ := CorrelationSet.listed_of_pairs (hpairs ▸ hne)
    obtain ⟨first, hfirst, -⟩ := (p.mem_listed_iff operation guardType).mp hlisted
    refine ⟨set, first, ?_, hfirst, hpairs, hcovered⟩
    rw [hplace, Nat.zero_add]
    exact hset

theorem fills_of_pairsOf (h : p.verify callerTypes config = .accepted v) {set : CorrelationSet}
    (hset : set ∈ p.correlationSets) {operation : String} {first : Operation}
    (hfirst : p.registered? operation = some first) {w : CorrelationVariable}
    (hw : w ∈ set.members) {pair : CorrelationPair}
    (hpair : CorrelationSet.pairsOf p.requestIndex operation w = [pair]) :
    pair.Fills (p.allTypes callerTypes) first.request.id w := by
  have hmem : pair ∈ CorrelationSet.pairsOf p.requestIndex operation w := by
    rw [hpair]
    exact List.mem_singleton_self pair
  obtain ⟨a, ha, heq⟩ := List.mem_map.mp hmem
  obtain ⟨halias, hlisted⟩ := List.mem_filter.mp ha
  obtain ⟨o, ho, hguard⟩ := (p.mem_listed_iff operation a.guardType).mp (of_decide_eq_true hlisted)
  obtain rfl := Option.some.inj (hfirst.symm.trans ho)
  obtain ⟨hnormal, hstatic⟩ := (plain_of_accepted h hset).aliases w hw a halias
  obtain ⟨keys, hkeys⟩ := VariablePath.exists_keys hstatic
  have hproblems := CorrelationSet.aliasProblems_of_bindAll
    (correlation_problems_of_accepted h) hset hw halias
  obtain ⟨guard, hget, hadmits⟩ := CorrelationSet.admits_of_aliasProblems hproblems hkeys
  subst heq
  exact ⟨rfl, ⟨a, halias, hguard.symm, rfl⟩, hnormal, hstatic,
    guard, keys, hguard ▸ hget, hkeys, hadmits⟩

/-- The correlation function handed on is sound. -/
theorem correlation_sound (callerTypes : TypeMap) (config : Config) (p : Program) (v : Validated)
    (h : p.verify callerTypes config = .accepted v) :
    v.correlation.Sound p (p.allTypes callerTypes) := by
  have hsets : v.correlation.sets = p.correlationSets := by
    rw [correlation_of_accepted h]
    rfl
  have hbound : ∀ operation id, v.correlation.setId? operation = some id →
      ∃ b, Dictionary.get? v.correlation.bindings operation = some b ∧ b.set = id ∧
        v.correlation.pairs operation = b.pairs := by
    intro operation id hid
    obtain ⟨b, hb, hset⟩ := Option.map_eq_some_iff.mp hid
    exact ⟨b, hb, hset, by rw [CorrelationFunction.pairs, hb]; rfl⟩
  refine ⟨hsets, fun operation id hid => ?_, fun operation id hid => ?_, fun set hset => ?_⟩
  · obtain ⟨b, hb, -, -⟩ := hbound operation id hid
    obtain ⟨set, first, -, hfirst, -, -⟩ := exists_claim_of_accepted h hb
    exact exposed_of_registered hfirst
  · obtain ⟨b, hb, hplace, hpairs⟩ := hbound operation id hid
    obtain ⟨set, first, hset, hfirst, hclaimed, hcovered⟩ := exists_claim_of_accepted h hb
    refine ⟨set, first, ?_, hfirst, ?_⟩
    · rw [hsets, ← hplace, hset]
    · have hmem := List.mem_of_getElem? hset
      have hplain := plain_of_accepted h hmem
      rw [hclaimed] at hcovered
      rw [hpairs, hclaimed]
      exact (CorrelationSet.forall₂_pairsFor hplain.members hplain.distinct hcovered).imp
        fun w pair hw => fills_of_pairsOf h hmem hfirst hw.1 hw.2
  · rw [hsets] at hset
    exact (plain_of_accepted h hset).distinct

def userSessions : Program :=
  .ofDeclarations
    [.type ((TypeDefinition.native "Login" .void).addSubType (.native "user" .string)),
      .inputPort { InputPort.empty "Front" with operations := [.oneWay "login" "Login"] },
      .correlationSet (.ofMembers
        [(CorrelationVariable.ofPath (.ofKeys ["user"])).addAlias "Login" (.ofKeys ["user"])])]

theorem correlation_userSessions :
    ∃ v, userSessions.verify [] ⟨false⟩ = .accepted v ∧
      v.correlation.setId? "login" = some 0 ∧
      v.correlation.Sound userSessions (userSessions.allTypes []) := by
  have haccepted : userSessions.verify [] ⟨false⟩ =
      .accepted ⟨(userSessions.correlation []).1, userSessions.executionMode,
        userSessions.constants⟩ :=
    verify_eq_accepted_iff.mpr ⟨by decide +kernel, by decide +kernel, rfl⟩
  have hplace : (userSessions.correlation []).1.setId? "login" = some 0 := by decide +kernel
  exact ⟨_, haccepted, hplace, correlation_sound [] ⟨false⟩ userSessions _ haccepted⟩

end Program

end ServiceCheck
