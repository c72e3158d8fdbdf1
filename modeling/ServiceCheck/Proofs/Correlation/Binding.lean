import ServiceCheck.Proofs.Correlation.Soundness

/-!
Which operations an accepted program binds. Operations are indexed by the request type of their
first declaration, so that a guard binds an operation exactly when it names that type. A later
declaration may call the same type by another name, and a guard of that name binds nothing.
-/

set_option autoImplicit false

namespace ServiceCheck

namespace CorrelationSet

variable {types : TypeMap} {index : RequestIndex} {set : CorrelationSet} {operation : String}
  {id : Nat} {bound : Dictionary Binding} {sets : List CorrelationSet}
  {pairs : List CorrelationPair} {b : Binding}

/-- Some alias of the set is for messages of the type. -/
def Guards (set : CorrelationSet) (type : String) : Prop :=
  ∃ v ∈ set.members, ∃ a ∈ v.aliases, a.guardType = type

theorem exists_aliasPair_iff :
    (∃ e ∈ set.aliasPairs index, e.1 = operation) ↔
      ∃ type, set.Guards type ∧ operation ∈ index.listed type := by
  simp only [aliasPairs, List.mem_flatMap, List.mem_map, Guards, RequestIndex.listed]
  constructor
  · rintro ⟨_, ⟨v, hv, a, ha, operation, hlisted, rfl⟩, rfl⟩
    exact ⟨_, ⟨v, hv, a, ha, rfl⟩, hlisted⟩
  · rintro ⟨_, ⟨v, hv, a, ha, rfl⟩, hlisted⟩
    exact ⟨_, ⟨v, hv, a, ha, operation, hlisted, rfl⟩, rfl⟩

theorem exists_claim_iff :
    (∃ pairs, (operation, pairs) ∈ set.claims index) ↔
      ∃ type, set.Guards type ∧ operation ∈ index.listed type := by
  have hget : (∃ pairs, (operation, pairs) ∈ set.claims index) ↔
      (Dictionary.get? (set.claims index) operation).isSome := by
    rw [Option.isSome_iff_exists]
    exact exists_congr fun _ => ⟨Dictionary.get?_of_mem nodup_keys_claims, Dictionary.mem_of_get?⟩
  rw [hget, claims, Dictionary.get?_foldl_push, ← exists_aliasPair_iff]
  by_cases hany : (set.aliasPairs index).any (·.1 = operation)
  · rw [if_pos hany]
    simpa using hany
  · rw [if_neg hany]
    simpa [Dictionary.get?_nil] using hany

theorem get?_bind_of_bound (h : Dictionary.get? bound operation = some b) :
    Dictionary.get? (set.bind index id bound) operation = some b := by
  rw [bind, Dictionary.get?_append, h, Option.some_or]

theorem get?_bindAll_of_bound (h : Dictionary.get? bound operation = some b) :
    Dictionary.get? (bindAll types index id bound sets).1 operation = some b := by
  induction sets generalizing id bound with
  | nil => exact h
  | cons set rest ih => exact ih (get?_bind_of_bound h)

theorem get?_bind_of_claim (h : set.problems types index bound = [])
    (hclaim : (operation, pairs) ∈ set.claims index) :
    Dictionary.get? (set.bind index id bound) operation = some ⟨id, pairs⟩ := by
  obtain ⟨hfree, -⟩ := free_of_claim h hclaim
  have hnew : Dictionary.get? bound operation = none := by
    simpa [Dictionary.contains] using hfree
  rw [bind, Dictionary.get?_append, hnew, Option.none_or]
  refine Dictionary.get?_of_mem ?_ (List.mem_map.mpr ⟨_, List.mem_filter.mpr ⟨hclaim, ?_⟩, rfl⟩)
  · rw [Dictionary.keys, List.map_map]
    exact nodup_keys_claims.sublist (List.filter_sublist.map _)
  · simp [hfree]

/-- Without problems, whatever a set claims is bound to it. -/
theorem get?_bindAll_of_claim (h : (bindAll types index id bound sets).2 = []) {i : Nat}
    (hset : sets[i]? = some set) (hclaim : (operation, pairs) ∈ set.claims index) :
    Dictionary.get? (bindAll types index id bound sets).1 operation = some ⟨id + i, pairs⟩ := by
  induction sets generalizing id bound i with
  | nil => cases hset
  | cons first rest ih =>
    rw [bindAll_cons] at h ⊢
    obtain ⟨hfirst, hrest⟩ := List.append_eq_nil_iff.mp h
    cases i with
    | zero =>
      obtain rfl := Option.some.inj hset
      exact get?_bindAll_of_bound (get?_bind_of_claim hfirst hclaim)
    | succ i =>
      rw [ih hrest hset, Nat.add_right_comm, Nat.add_assoc]

end CorrelationSet

namespace Program

/-- An accepted program binds an operation to a set exactly when the set guards the request type of
the first declaration of the operation. -/
theorem bound_iff_first_guarded (callerTypes : TypeMap) (config : Config) (p : Program)
    (v : Validated) (h : p.verify callerTypes config = .accepted v) (operation : String) (i : Nat) :
    v.correlation.setId? operation = some i ↔
      ∃ set first, p.correlationSets[i]? = some set ∧ p.registered? operation = some first ∧
        set.Guards first.request.id := by
  have hnone := correlation_problems_of_accepted h
  rw [correlation_of_accepted h, CorrelationFunction.setId?, Option.map_eq_some_iff]
  constructor
  · rintro ⟨b, hb, rfl⟩
    rcases CorrelationSet.claim_of_bindAll hnone hb with hb | ⟨i, set, hset, hplace, hclaim, -⟩
    · cases hb
    · obtain ⟨type, hguards, hlisted⟩ := CorrelationSet.exists_claim_iff.mp ⟨_, hclaim⟩
      obtain ⟨first, hfirst, rfl⟩ := (p.mem_listed_iff operation type).mp hlisted
      exact ⟨set, first, by rw [hplace, Nat.zero_add, hset], hfirst, hguards⟩
  · rintro ⟨set, first, hset, hfirst, hguards⟩
    have hlisted := (p.mem_listed_iff operation _).mpr ⟨first, hfirst, rfl⟩
    obtain ⟨pairs, hclaim⟩ := CorrelationSet.exists_claim_iff.mpr ⟨_, hguards, hlisted⟩
    exact ⟨_, CorrelationSet.get?_bindAll_of_claim hnone hset hclaim, Nat.zero_add i⟩

theorem bound_userSessions :
    ∃ v, userSessions.verify [] ⟨false⟩ = .accepted v ∧
      v.correlation.setId? "login" = some 0 := by
  have haccepted : userSessions.verify [] ⟨false⟩ =
      .accepted ⟨(userSessions.correlation []).1, userSessions.executionMode,
        userSessions.constants⟩ :=
    verify_eq_accepted_iff.mpr ⟨by decide +kernel, by decide +kernel, rfl⟩
  refine ⟨_, haccepted, (bound_iff_first_guarded [] ⟨false⟩ _ _ haccepted "login" 0).mpr ?_⟩
  exact ⟨_, _, rfl, rfl, _, List.mem_singleton_self _, _, List.mem_singleton_self _, rfl⟩

/-- An operation in two ports, under two names of one type. The set goes by the second name. -/
def renamedLogin : Program :=
  .ofDeclarations
    [.type ((TypeDefinition.native "Login" .void).addSubType (.native "user" .string)),
      .type ((TypeDefinition.native "SignIn" .void).addSubType (.native "user" .string)),
      .inputPort { InputPort.empty "Front" with operations := [.oneWay "login" "Login"] },
      .inputPort { InputPort.empty "Back" with operations := [.oneWay "login" "SignIn"] },
      .correlationSet (.ofMembers
        [(CorrelationVariable.ofPath (.ofKeys ["user"])).addAlias "SignIn" (.ofKeys ["user"])])]

/-- The set guards the request type of a declaration of the operation, and does not bind it. -/
theorem renamedLogin_unbound :
    ∃ v, renamedLogin.verify [] ⟨false⟩ = .accepted v ∧
      (∃ port ∈ renamedLogin.inputPorts, ∃ o ∈ port.allOperations, o.id = "login" ∧
        ∃ set, renamedLogin.correlationSets[0]? = some set ∧ set.Guards o.request.id) ∧
      v.correlation.setId? "login" = none := by
  refine ⟨⟨(renamedLogin.correlation []).1, _, _⟩,
    verify_eq_accepted_iff.mpr ⟨by decide +kernel, by decide +kernel, rfl⟩, ?_, by decide +kernel⟩
  exact ⟨_, List.mem_cons_of_mem _ List.mem_cons_self, _, List.mem_singleton_self _, rfl, _, rfl,
    _, List.mem_singleton_self _, _, List.mem_singleton_self _, rfl⟩

end Program

end ServiceCheck
