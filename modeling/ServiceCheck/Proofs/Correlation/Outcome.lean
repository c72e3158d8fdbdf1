import ServiceCheck.Proofs.Correlation.FirstClaim
import ServiceCheck.Proofs.Correlation.Registers

set_option autoImplicit false

namespace ServiceCheck

open Diagnostics

namespace CorrelationSet

variable {types : TypeMap} {index : RequestIndex} {set : CorrelationSet} {operation : String}

def conflict (set : CorrelationSet) (operation : String) : Diagnostic :=
  (Diagnostic.report .correlationSetConflict set.position operation).hint
    "each operation can correlate using only one correlation set"

def repetition (operation : String) (v : CorrelationVariable) : Diagnostic :=
  .report .correlationAliasError v.path.position
    ("variable `" ++ v.path.text ++ "` has more than one alias for operation `" ++
      operation ++ "`")

def incompleteness (set : CorrelationSet) (operation : String)
    (missing : List CorrelationVariable) : Diagnostic :=
  (Diagnostic.report .correlationAliasIncomplete set.position operation).hint
    ("missing: " ++ ", ".intercalate (missing.map (·.path.text)))

/-- The aliases that fill a variable from the messages of an operation. Variables of the same path
are one variable. -/
def aliasesFor (index : RequestIndex) (set : CorrelationSet) (operation : String)
    (v : CorrelationVariable) : List CorrelationAlias :=
  (set.members.filter (·.path.samePath v.path)).flatMap fun w =>
    w.aliases.filter (index.requestType? operation = some ·.guardType)

def repeated (index : RequestIndex) (set : CorrelationSet) (operation : String) :
    List CorrelationVariable :=
  set.members.filter fun v => 1 < (set.aliasesFor index operation v).length

def missing (index : RequestIndex) (set : CorrelationSet) (operation : String) :
    List CorrelationVariable :=
  set.members.filter fun v => (set.aliasesFor index operation v).length = 0

theorem pairCount_pairsFor_eq (hindex : index.ListsOnce) (v : CorrelationVariable) :
    pairCount (set.pairsFor index operation) v = (set.aliasesFor index operation v).length := by
  have hmembers : ∀ members : List CorrelationVariable,
      pairCount (members.flatMap (pairsOf index operation)) v =
        ((members.filter (·.path.samePath v.path)).flatMap fun w =>
          w.aliases.filter (index.requestType? operation = some ·.guardType)).length := by
    intro members
    induction members with
    | nil => rfl
    | cons w rest ih =>
      have hw : pairCount (pairsOf index operation w) v =
          if w.path.samePath v.path then
            (w.aliases.filter (index.requestType? operation = some ·.guardType)).length
          else 0 := by
        simp only [pairCount, pairsOf, List.countP_map, Function.comp_def,
          hindex.mem_listed_iff operation]
        by_cases h : w.path.samePath v.path <;> simp [h]
      rw [pairCount] at hw ih ⊢
      rw [List.flatMap_cons, List.countP_append, hw, ih]
      by_cases h : w.path.samePath v.path <;> simp [h]
  exact hmembers set.members

theorem coverageProblems_eq (hindex : index.ListsOnce) :
    set.coverageProblems operation (set.pairsFor index operation) =
      (set.repeated index operation).map (repetition operation) ++
        if set.missing index operation = [] then []
        else [set.incompleteness operation (set.missing index operation)] := by
  simp only [coverageProblems, pairCount_pairsFor_eq hindex, List.isEmpty_iff]
  rfl

def settledProblems (types : TypeMap) (index : RequestIndex) (setId? : String → Option Nat)
    (set : CorrelationSet) (id : Nat) : Diagnostics :=
  (set.members.flatMap fun v => v.aliases.flatMap (aliasProblems types)) ++
    (set.claimed index).flatMap fun operation =>
      if setId? operation = some id then
        set.coverageProblems operation (set.pairsFor index operation)
      else [set.conflict operation]

/-- The set of an operation once the run over some sets is over. -/
def finalSet (types : TypeMap) (index : RequestIndex) (id : Nat) (bound : Dictionary Binding)
    (sets : List CorrelationSet) (operation : String) : Option Nat :=
  (Dictionary.get? (bindAll types index id bound sets).1 operation).map (·.set)

section Problems

variable (hindex : index.ListsOnce)
include hindex

theorem finalSet_eq_some_iff {id : Nat} {bound : Dictionary Binding} {rest : List CorrelationSet}
    (hbelow : Registers.Below id bound) (hclaimed : operation ∈ set.claimed index) :
    finalSet types index id bound (set :: rest) operation = some id ↔
      Dictionary.contains bound operation = false := by
  rw [finalSet, get?_bindAll hindex, List.zipIdx_cons, List.findSome?_cons, binding?,
    if_pos hclaimed, Dictionary.contains]
  cases hbound : Dictionary.get? bound operation with
  | none => simp
  | some b => simp [Nat.ne_of_lt (hbelow _ (Dictionary.mem_of_get? hbound))]

theorem problems_eq_settledProblems {id : Nat} {bound : Dictionary Binding}
    (hbelow : Registers.Below id bound) (rest : List CorrelationSet) :
    set.problems types index bound =
      set.settledProblems types index (finalSet types index id bound (set :: rest)) id := by
  rw [problems, settledProblems, claims_eq hindex, List.flatMap_map]
  refine congrArg (_ ++ ·) (List.flatMap_congr fun operation hclaimed => ?_)
  simp only [finalSet_eq_some_iff hindex hbelow hclaimed, claimProblems]
  cases Dictionary.contains bound operation <;> rfl

theorem problems_bindAll {id : Nat} {bound : Dictionary Binding}
    (hbelow : Registers.Below id bound) (sets : List CorrelationSet) :
    (bindAll types index id bound sets).2 =
      (sets.zipIdx id).flatMap fun e =>
        e.1.settledProblems types index (finalSet types index id bound sets) e.2 := by
  induction sets generalizing id bound with
  | nil => rfl
  | cons set rest ih =>
    rw [bindAll_cons, List.zipIdx_cons, List.flatMap_cons,
      problems_eq_settledProblems hindex hbelow rest, ih (hbelow.bind set)]
    rfl

end Problems

section OfKinds

variable {setId? : String → Option Nat} {id : Nat}

theorem within_coverageProblems (pairs : List CorrelationPair) :
    Within [.correlationAliasError, .correlationAliasIncomplete]
      (set.coverageProblems operation pairs) := by
  simp [coverageProblems]

theorem within_repetitions (operation : String) (repeated : List CorrelationVariable) :
    Within [.correlationAliasError] (repeated.map (repetition operation)) := by
  simp [repetition]

theorem within_allAliasProblems (set : CorrelationSet) :
    Within [.correlationAliasError]
      (set.members.flatMap fun v => v.aliases.flatMap (aliasProblems types)) :=
  within_flatMap.mpr fun _ _ => within_flatMap.mpr fun a _ => within_aliasProblems a

theorem ofKinds_conflict :
    ofKinds [.correlationSetConflict] (set.settledProblems types index setId? id) =
      ((set.claimed index).filter (setId? · ≠ some id)).map set.conflict := by
  rw [settledProblems, ofKinds_append,
    set.within_allAliasProblems.ofKinds_eq_nil (by decide), List.nil_append, ofKinds_flatMap,
    ← flatMap_ite_singleton]
  refine List.flatMap_congr fun operation _ => ?_
  by_cases h : setId? operation = some id
  · rw [if_pos h, if_neg (not_not.mpr h)]
    exact (within_coverageProblems _).ofKinds_eq_nil (by decide)
  · rw [if_neg h, if_pos h]
    rfl

theorem ofKinds_incomplete (hindex : index.ListsOnce) :
    ofKinds [.correlationAliasIncomplete] (set.settledProblems types index setId? id) =
      ((set.claimed index).filter fun operation =>
        setId? operation = some id ∧ set.missing index operation ≠ []).map fun operation =>
          set.incompleteness operation (set.missing index operation) := by
  rw [settledProblems, ofKinds_append,
    set.within_allAliasProblems.ofKinds_eq_nil (by decide), List.nil_append, ofKinds_flatMap,
    ← flatMap_ite_singleton]
  refine List.flatMap_congr fun operation _ => ?_
  by_cases h : setId? operation = some id
  · rw [if_pos h, coverageProblems_eq hindex, ofKinds_append,
      (within_repetitions _ _).ofKinds_eq_nil (by decide)]
    by_cases hmissing : set.missing index operation = []
    · simp [hmissing]
    · simp [h, hmissing, ofKinds, incompleteness]
  · rw [if_neg h, if_neg (fun hboth => h hboth.1)]
    rfl

theorem ofKinds_aliasError (hindex : index.ListsOnce) :
    ofKinds [.correlationAliasError] (set.settledProblems types index setId? id) =
      (set.members.flatMap fun v => v.aliases.flatMap (aliasProblems types)) ++
        ((set.claimed index).filter (setId? · = some id)).flatMap fun operation =>
          (set.repeated index operation).map (repetition operation) := by
  rw [settledProblems, ofKinds_append, set.within_allAliasProblems.ofKinds_eq_self (by decide),
    ofKinds_flatMap, ← flatMap_ite_nil]
  refine congrArg (_ ++ ·) (List.flatMap_congr fun operation _ => ?_)
  by_cases h : setId? operation = some id
  · rw [if_pos h, if_pos h, coverageProblems_eq hindex, ofKinds_append,
      (within_repetitions _ _).ofKinds_eq_self (by decide)]
    by_cases hmissing : set.missing index operation = []
    · simp [hmissing]
    · simp [hmissing, ofKinds, incompleteness]
  · rw [if_neg h, if_neg h]
    rfl

end OfKinds

end CorrelationSet

open CorrelationSet

/-- What the correlation function of some sets is, and what is reported. The operations that a set
claims are those of the request types that it guards. -/
structure CorrelationFunction.Outcome (types : TypeMap) (index : RequestIndex)
    (sets : List CorrelationSet) (f : CorrelationFunction) (problems : Diagnostics) : Prop where
  sets_eq : f.sets = sets
  claimed : ∀ set ∈ sets, (set.claimed index).Nodup ∧ ∀ operation,
    operation ∈ set.claimed index ↔
      ∃ type, index.requestType? operation = some type ∧ set.Guards type
  bound : ∀ operation, f.setId? operation =
    (index.requestType? operation).bind fun type => sets.findIdx? (·.Guards type)
  pairs : ∀ operation id set, f.setId? operation = some id → sets[id]? = some set →
    f.pairs operation = set.pairsFor index operation
  conflicts : ofKinds [.correlationSetConflict] problems =
    sets.zipIdx.flatMap fun (set, id) =>
      ((set.claimed index).filter (f.setId? · ≠ some id)).map set.conflict
  incomplete : ofKinds [.correlationAliasIncomplete] problems =
    sets.zipIdx.flatMap fun (set, id) =>
      ((set.claimed index).filter fun operation =>
        f.setId? operation = some id ∧ set.missing index operation ≠ []).map fun operation =>
          set.incompleteness operation (set.missing index operation)
  aliases : ofKinds [.correlationAliasError] problems =
    sets.zipIdx.flatMap fun (set, id) =>
      (set.members.flatMap fun v => v.aliases.flatMap (aliasProblems types)) ++
        ((set.claimed index).filter (f.setId? · = some id)).flatMap fun operation =>
          (set.repeated index operation).map (repetition operation)
  entered : f.registers = Registers.enterAll index 0 .empty sets
  consistent : f.registers.Consistent sets.length

namespace CorrelationFunction

variable {types : TypeMap} {index : RequestIndex} {sets : List CorrelationSet}

theorem setId?_ofSets (hindex : index.ListsOnce) (operation : String) :
    (ofSets types index sets).1.setId? operation =
      (index.requestType? operation).bind fun type => sets.findIdx? (·.Guards type) := by
  have hget : Dictionary.get? (ofSets types index sets).1.bindings operation =
      sets.zipIdx.findSome? fun e => e.1.binding? index operation e.2 :=
    get?_bindAll hindex 0 [] sets
  rw [setId?, hget, findSome?_binding? hindex]
  simp only [Nat.zero_add, Option.map_id']

theorem pairs_ofSets (hindex : index.ListsOnce) {operation : String} {id : Nat}
    {set : CorrelationSet} (hid : (ofSets types index sets).1.setId? operation = some id)
    (hset : sets[id]? = some set) :
    (ofSets types index sets).1.pairs operation = set.pairsFor index operation := by
  obtain ⟨b, hb, rfl⟩ := Option.map_eq_some_iff.mp hid
  have hfirst := (get?_bindAll hindex 0 [] sets).symm.trans hb
  obtain ⟨e, he, hbinding⟩ := List.exists_of_findSome?_eq_some hfirst
  rw [binding?] at hbinding
  obtain ⟨-, hb'⟩ := Option.ite_none_right_eq_some.mp hbinding
  obtain rfl := Option.some.inj hb'
  obtain rfl := Option.some.inj ((List.mem_zipIdx_iff_getElem?.mp he).symm.trans hset)
  rw [CorrelationFunction.pairs, hb]
  rfl

theorem problems_ofSets (hindex : index.ListsOnce) :
    (ofSets types index sets).2 =
      sets.zipIdx.flatMap fun e =>
        e.1.settledProblems types index (ofSets types index sets).1.setId? e.2 :=
  problems_bindAll hindex (List.forall_mem_nil _) sets

/-- Every operation goes to the first set that claims it. Each further claim is reported once, and
so are each operation that lacks an alias and each variable that has several for one operation. -/
theorem outcome_of_ofSets (types : TypeMap) (index : RequestIndex) (hindex : index.ListsOnce)
    (sets : List CorrelationSet) :
    Outcome types index sets (ofSets types index sets).1 (ofSets types index sets).2 where
  sets_eq := rfl
  claimed set _ := ⟨nodup_claimed, fun _ => mem_claimed_iff hindex⟩
  bound := setId?_ofSets hindex
  pairs _ _ _ := pairs_ofSets hindex
  conflicts := by
    rw [problems_ofSets hindex, ofKinds_flatMap]
    exact List.flatMap_congr fun _ _ => ofKinds_conflict
  incomplete := by
    rw [problems_ofSets hindex, ofKinds_flatMap]
    exact List.flatMap_congr fun _ _ => ofKinds_incomplete hindex
  aliases := by
    rw [problems_ofSets hindex, ofKinds_flatMap]
    exact List.flatMap_congr fun _ _ => ofKinds_aliasError hindex
  entered := (Registers.enterAll_empty types index sets).symm
  consistent := ofSets_consistent types index sets

def rivalSets : List CorrelationSet :=
  [.ofMembers
      [((CorrelationVariable.ofPath (.ofKeys ["user"])).addAlias "Login"
          (.ofKeys ["user"])).addAlias "Login" (.ofKeys ["name"]),
        .ofPath (.ofKeys ["id"])],
    .ofMembers
      [(CorrelationVariable.ofPath (.ofKeys ["name"])).addAlias "Login" (.ofKeys ["name"])]]

def loginIndex : RequestIndex := [("Login", ["login"])]

def loginTypes : TypeMap :=
  [("Login", ((TypeDefinition.native "Login" .void).addSubType (.native "user" .string)).addSubType
    (.native "name" .string))]

theorem outcome_rivalSets :
    loginIndex.ListsOnce ∧
      (ofSets loginTypes loginIndex rivalSets).1.setId? "login" = some 0 ∧
      Diagnostics.kinds (ofSets loginTypes loginIndex rivalSets).2 =
        [.correlationAliasError, .correlationAliasIncomplete, .correlationSetConflict] ∧
      Outcome loginTypes loginIndex rivalSets (ofSets loginTypes loginIndex rivalSets).1
        (ofSets loginTypes loginIndex rivalSets).2 := by
  have hindex : loginIndex.ListsOnce := ⟨by decide, by decide⟩
  exact ⟨hindex, by decide +kernel, by decide +kernel, outcome_of_ofSets _ _ hindex rivalSets⟩

end CorrelationFunction

end ServiceCheck
