import ServiceCheck.Proofs.Correlation.Soundness
import ServiceCheck.Proofs.Types.Extension
import ServiceCheck.Proofs.Verification.Hoisting
import ServiceCheck.Proofs.Verification.KnownLinks

/-!
A type declared under a new name takes nothing away. All names that were found are found again, so
the checks that passed pass against the larger map, wherever in the program the type is put.
-/

set_option autoImplicit false

namespace ServiceCheck

section Named

variable {α : Type} {name : α → String}

theorem laterNamed_congr {taken taken' : List String} {items : List α}
    (h : ∀ item ∈ items, name item ∈ taken ↔ name item ∈ taken') :
    laterNamed name taken items = laterNamed name taken' items := by
  induction items generalizing taken taken' with
  | nil => rfl
  | cons item rest ih =>
    obtain ⟨hitem, hrest⟩ := List.forall_mem_cons.mp h
    have hnext : ∀ other ∈ rest,
        name other ∈ name item :: taken ↔ name other ∈ name item :: taken' :=
      fun other hother => by rw [List.mem_cons, List.mem_cons, hrest other hother]
    rw [laterNamed, laterNamed, ih hrest, ih hnext]
    simp only [hitem]

/-- An item with a name of its own is not later than another, and no other is later than it. -/
theorem laterNamed_insert {taken : List String} {front back : List α} {item : α}
    (htaken : name item ∉ taken) (hfront : ∀ other ∈ front, name other ≠ name item)
    (hback : ∀ other ∈ back, name other ≠ name item) :
    laterNamed name taken (front ++ item :: back) = laterNamed name taken (front ++ back) := by
  induction front generalizing taken with
  | nil =>
    rw [List.nil_append, List.nil_append, laterNamed, if_neg htaken]
    exact laterNamed_congr fun other hother => by simp [hback other hother]
  | cons first rest ih =>
    obtain ⟨hfirst, hrest⟩ := List.forall_mem_cons.mp hfront
    have hnext : name item ∉ name first :: taken := by simp [htaken, Ne.symm hfirst]
    rw [List.cons_append, List.cons_append, laterNamed, laterNamed, ih htaken hrest, ih hnext hrest]

end Named

namespace Dictionary

variable {α : Type} {key : α → String}

theorem contains_foldl_setNew (d : Dictionary α) (items : List α) (k : String) :
    contains (items.foldl (fun d item => setNew d (key item) item) d) k =
      (contains d k || items.any (key · = k)) := by
  rw [contains, get?_foldl_setNew, Option.isSome_or, ← contains, Bool.eq_iff_iff]
  simp only [Bool.or_eq_true, List.find?_isSome, List.any_eq_true]

/-- Items that are new to the one dictionary exactly where they are to the other leave it as much
longer as it was. -/
theorem length_foldl_setNew_le {items : List α} {d d' : Dictionary α} (hle : d.length ≤ d'.length)
    (hknown : ∀ item ∈ items, contains d' (key item) = contains d (key item)) :
    (items.foldl (fun d item => setNew d (key item) item) d).length ≤
      (items.foldl (fun d item => setNew d (key item) item) d').length := by
  induction items generalizing d d' with
  | nil => exact hle
  | cons item rest ih =>
    obtain ⟨hitem, hrest⟩ := List.forall_mem_cons.mp hknown
    refine ih ?_ fun other hother => ?_
    · simp only [setNew, hitem]
      split
      · exact hle
      · simpa using hle
    · simp only [contains, get?_setNew, Option.isSome_or]
      exact congrArg (· || _) (hrest other hother)

end Dictionary

theorem TypeDefinition.problems_eq_nil_of_bounds {t : TypeDefinition}
    (h : ∀ u ∈ t.nodes, 0 ≤ u.cardinality.min ∧ 0 ≤ u.cardinality.max) : t.problems = [] := by
  refine List.flatMap_eq_nil_iff.mpr fun u hu => List.append_eq_nil_iff.mpr ?_
  have hbound : ∀ (which : String) (bound : Int32), 0 ≤ bound →
      u.boundProblems which bound = [] := fun _ _ hle => if_neg (Int32.not_lt.mpr hle)
  exact ⟨hbound _ _ (h u hu).1, hbound _ _ (h u hu).2⟩

namespace Operation

variable {types types' : TypeMap}

theorem compareFaults_eq_same_mono (h : types.Extends types')
    {others faults : Dictionary TypeDefinition} {assumed : Assumptions}
    (hsame : compareFaults types others faults = .same assumed) :
    compareFaults types' others faults = .same assumed := by
  induction faults with
  | nil => exact hsame
  | cons e rest ih =>
    obtain ⟨name, fault⟩ := e
    rw [compareFaults] at hsame ⊢
    cases hother : Dictionary.get? others name with
    | none => simp [hother] at hsame
    | some other =>
      simp only [hother, Comparing.andThen_eq_same] at hsame ⊢
      obtain ⟨between, hfirst, hrest⟩ := hsame
      exact ⟨between, TypeDefinition.compare_eq_same_mono h hfirst, ih hrest⟩

theorem compareSignatures_same_mono (h : types.Extends types') {first later : Operation}
    (hsame : ∀ part ∈ compareSignatures types first later, ∃ assumed, part.2 = .same assumed) :
    ∀ part ∈ compareSignatures types' first later, ∃ assumed, part.2 = .same assumed := by
  have hcompare : ∀ {a b : TypeDefinition}, (∃ assumed, a.compare types b = .same assumed) →
      ∃ assumed, a.compare types' b = .same assumed :=
    fun ⟨assumed, hs⟩ => ⟨assumed, TypeDefinition.compare_eq_same_mono h hs⟩
  simp only [compareSignatures, List.forall_mem_append, List.forall_mem_cons] at hsame ⊢
  obtain ⟨⟨hkind, hrequest, hnil⟩, hreplies⟩ := hsame
  refine ⟨⟨hkind, hcompare hrequest, hnil⟩, ?_⟩
  cases hr : first.reply with
  | none => exact List.forall_mem_nil _
  | some r =>
    cases hr' : later.reply with
    | none => exact List.forall_mem_nil _
    | some r' =>
      simp only [hr, hr', List.forall_mem_cons] at hreplies ⊢
      obtain ⟨hresponse, ⟨assumed, hfaults⟩, hnil⟩ := hreplies
      refine ⟨hcompare hresponse, ⟨assumed, ?_⟩, hnil⟩
      split at hfaults
      · rename_i hlength
        rw [if_pos hlength]
        exact compareFaults_eq_same_mono h hfaults
      · cases hfaults

end Operation

namespace CorrelationSet

variable {types types' : TypeMap}

theorem aliasProblems_eq_nil_mono (h : types.Extends types') {a : CorrelationAlias}
    (hnone : aliasProblems types a = []) : aliasProblems types' a = [] := by
  unfold aliasProblems at hnone ⊢
  cases hguard : Dictionary.get? types a.guardType with
  | none => simp [hguard] at hnone
  | some guard =>
    simp only [hguard] at hnone
    simp only [h.found _ _ hguard]
    cases hkeys : a.path.keys? with
    | none => rfl
    | some keys =>
      simp only [hkeys] at hnone ⊢
      by_cases hadmits : guard.admits types keys = true
      · rw [if_pos (TypeDefinition.admits_mono h hadmits)]
      · rw [if_neg hadmits] at hnone
        cases hnone

theorem problems_eq_nil_mono (h : types.Extends types') {index : RequestIndex}
    {bound : Dictionary Binding} {set : CorrelationSet}
    (hnone : set.problems types index bound = []) : set.problems types' index bound = [] := by
  obtain ⟨haliases, hclaims⟩ := List.append_eq_nil_iff.mp hnone
  refine List.append_eq_nil_iff.mpr ⟨?_, hclaims⟩
  simp only [List.flatMap_eq_nil_iff] at haliases ⊢
  exact fun v hv a ha => aliasProblems_eq_nil_mono h (haliases v hv a ha)

/-- What is bound does not depend on the types. -/
theorem bindAll_mono (h : types.Extends types') {index : RequestIndex} {id : Nat}
    {bound : Dictionary Binding} {sets : List CorrelationSet}
    (hnone : (bindAll types index id bound sets).2 = []) :
    bindAll types' index id bound sets = bindAll types index id bound sets := by
  induction sets generalizing id bound with
  | nil => rfl
  | cons set rest ih =>
    rw [bindAll_cons] at hnone
    obtain ⟨hset, hrest⟩ := List.append_eq_nil_iff.mp hnone
    rw [bindAll_cons, bindAll_cons, ih hrest, problems_eq_nil_mono h hset, hset]

end CorrelationSet

namespace Program

def withType (p : Program) (place : Nat) (t : TypeDefinition) : Program :=
  { p with declarations := p.declarations.take place ++ .type t :: p.declarations.drop place }

/-- The type can be declared besides all others: its name is new, and it is in order itself. -/
structure CanDeclare (callerTypes : TypeMap) (p : Program) (t : TypeDefinition) : Prop where
  newToCaller : Dictionary.contains callerTypes t.id = false
  newToProgram : ∀ u ∈ p.types, u.id ≠ t.id
  bounds : ∀ u ∈ t.nodes, 0 ≤ u.cardinality.min ∧ 0 ≤ u.cardinality.max
  links : ∀ h target, .link h target ∈ t.nodes → Dictionary.contains callerTypes target = true ∨
    target = t.id ∨ ∃ u ∈ p.types, u.id = target

section Collected

variable (p : Program) (place : Nat) (t : TypeDefinition)

theorem filterMap_withType {β : Type} {pick : Declaration → Option β}
    (hpick : pick (.type t) = none) :
    (p.withType place t).declarations.filterMap pick = p.declarations.filterMap pick := by
  rw [withType, List.filterMap_append, List.filterMap_cons_none hpick, ← List.filterMap_append,
    List.take_append_drop]

theorem inputPorts_withType : (p.withType place t).inputPorts = p.inputPorts :=
  p.filterMap_withType place t rfl

theorem procedures_withType : (p.withType place t).procedures = p.procedures :=
  p.filterMap_withType place t rfl

theorem correlationSets_withType : (p.withType place t).correlationSets = p.correlationSets :=
  p.filterMap_withType place t rfl

theorem executionMode_withType : (p.withType place t).executionMode = p.executionMode :=
  congrArg (fun modes : List ExecutionMode => modes.getLast?.getD .single)
    (p.filterMap_withType place t rfl)

theorem overview_withType : (p.withType place t).overview = p.overview := by
  rw [overview, overview, procedures_withType, executionMode_withType]

theorem exposedOperations_withType :
    (p.withType place t).exposedOperations = p.exposedOperations := by
  rw [exposedOperations, exposedOperations, inputPorts_withType]

theorem requestIndex_withType : (p.withType place t).requestIndex = p.requestIndex := by
  rw [requestIndex, requestIndex, firstOperations, firstOperations, exposedOperations_withType]

theorem constants_withType : (p.withType place t).constants = p.constants := by
  have hwrites : (p.withType place t).declarations.flatMap Declaration.writes =
      p.declarations.flatMap Declaration.writes := by
    have hnone : (Declaration.type t).writes = [] := rfl
    rw [withType, List.flatMap_append, List.flatMap_cons, hnone, List.nil_append,
      ← List.flatMap_append, List.take_append_drop]
  rw [constants, constants, hwrites]

theorem exists_types_withType : ∃ front back, p.types = front ++ back ∧
    (p.withType place t).types = front ++ t :: back := by
  refine ⟨types ⟨p.position, p.declarations.take place⟩,
    types ⟨p.position, p.declarations.drop place⟩, ?_, ?_⟩
  · rw [types, types, types, ← List.filterMap_append, List.take_append_drop]
  · rw [types, withType, List.filterMap_append]
    rfl

end Collected

variable {callerTypes : TypeMap} {p : Program} {t : TypeDefinition}

theorem get?_allTypes_of_new (ht : p.CanDeclare callerTypes t) :
    Dictionary.get? (p.allTypes callerTypes) t.id = none := by
  have hcaller : Dictionary.get? callerTypes t.id = none :=
    Option.not_isSome_iff_eq_none.mp (Bool.eq_false_iff.mp ht.newToCaller)
  rw [get?_allTypes, hcaller, Option.none_or, List.find?_eq_none]
  simpa using ht.newToProgram

theorem get?_allTypes_withType (place : Nat) {name : String} (hname : name ≠ t.id) :
    Dictionary.get? ((p.withType place t).allTypes callerTypes) name =
      Dictionary.get? (p.allTypes callerTypes) name := by
  obtain ⟨front, back, hold, hnew⟩ := p.exists_types_withType place t
  rw [get?_allTypes, get?_allTypes, hold, hnew, List.find?_append, List.find?_append]
  simp [Ne.symm hname]

theorem allTypes_eq (callerTypes : TypeMap) (p : Program) : p.allTypes callerTypes =
    p.types.foldl (fun d u => Dictionary.setNew d u.id u) callerTypes :=
  Tables.types_declareAll (.initial callerTypes) p.declarations

theorem extends_withType (ht : p.CanDeclare callerTypes t) (place : Nat) :
    (p.allTypes callerTypes).Extends ((p.withType place t).allTypes callerTypes) where
  found name u hu := by
    by_cases hname : name = t.id
    · rw [hname, get?_allTypes_of_new ht] at hu
      cases hu
    · rw [get?_allTypes_withType place hname, hu]
  length := by
    obtain ⟨front, back, hold, hnew⟩ := p.exists_types_withType place t
    rw [allTypes_eq, allTypes_eq, hold, hnew, List.foldl_append, List.foldl_append, List.foldl_cons]
    refine Dictionary.length_foldl_setNew_le ?_ fun u hu => ?_
    · rw [Dictionary.setNew]
      split
      · exact Nat.le_refl _
      · simp
    · have hne := ht.newToProgram u (hold ▸ List.mem_append_right _ hu)
      simp [Dictionary.contains, Dictionary.get?_setNew, Ne.symm hne]

theorem laterTypes_withType (ht : p.CanDeclare callerTypes t) (place : Nat) :
    (p.withType place t).laterTypes callerTypes = p.laterTypes callerTypes := by
  obtain ⟨front, back, hold, hnew⟩ := p.exists_types_withType place t
  have hne := hold ▸ ht.newToProgram
  obtain ⟨hfront, hback⟩ := List.forall_mem_append.mp hne
  have htaken : t.id ∉ Dictionary.keys callerTypes := by
    rw [← Dictionary.get?_isSome_iff]
    exact Bool.eq_false_iff.mp ht.newToCaller
  rw [laterTypes, laterTypes, hold, hnew, laterNamed_insert htaken hfront hback]

theorem mem_links_withType {place : Nat} {link : WrittenLink} :
    link ∈ (p.withType place t).links ↔ link ∈ p.links ∨ link ∈ t.links := by
  obtain ⟨front, back, hold, hnew⟩ := p.exists_types_withType place t
  simp only [links, hold, hnew, List.flatMap_append, List.flatMap_cons, List.mem_append]
  exact ⟨by rintro (h | h | h) <;> simp [h], by rintro ((h | h) | h) <;> simp [h]⟩

section Accepted

variable {config : Config} {v : Validated} {place : Nat}

theorem linkProblems_withType (ht : p.CanDeclare callerTypes t)
    (h : p.linkProblems callerTypes = []) : (p.withType place t).linkProblems callerTypes = [] := by
  simp only [linkProblems, List.map_eq_nil_iff, List.filter_eq_nil_iff, Bool.not_eq_true',
    Bool.not_eq_false, mem_links_withType] at h ⊢
  rintro link (hlink | hlink)
  · obtain ⟨u, hu⟩ := Option.isSome_iff_exists.mp (h link hlink)
    exact Option.isSome_iff_exists.mpr ⟨u, (extends_withType ht place).found _ _ hu⟩
  · obtain ⟨hd, target, hnode, rfl⟩ := TypeDefinition.mem_links_iff.mp hlink
    obtain ⟨front, back, hold, hnew⟩ := p.exists_types_withType place t
    rw [contains_allTypes_iff, hnew]
    have htarget := ht.links hd target hnode
    rw [hold] at htarget
    grind

theorem typeComparisons_withType (ht : p.CanDeclare callerTypes t)
    (h : p.verify callerTypes config = .accepted v) {later first : TypeDefinition}
    {comparing : Comparing}
    (hmem : (later, first, comparing) ∈ (p.withType place t).typeComparisons callerTypes) :
    ∃ assumed, comparing = .same assumed := by
  obtain ⟨_, hlater, hfound⟩ := List.mem_filterMap.mp hmem
  rw [laterTypes_withType ht] at hlater
  have hne := ht.newToProgram _ (mem_of_mem_laterNamed hlater)
  rw [get?_allTypes_withType place hne] at hfound
  obtain ⟨first, hfirst, heq⟩ := Option.map_eq_some_iff.mp hfound
  cases heq
  obtain ⟨assumed, hsame⟩ := same_of_typeComparisons h
    (List.mem_filterMap.mpr ⟨later, hlater, by rw [hfirst, Option.map_some]⟩)
  exact ⟨assumed, TypeDefinition.compare_eq_same_mono (extends_withType ht place) hsame⟩

theorem signatureComparisons_withType (ht : p.CanDeclare callerTypes t)
    (h : p.verify callerTypes config = .accepted v) {later first : Operation}
    {parts : List (String × Comparing)}
    (hmem : (later, first, parts) ∈ (p.withType place t).signatureComparisons callerTypes) :
    ∀ part ∈ parts, ∃ assumed, part.2 = .same assumed := by
  rw [signatureComparisons, laterOperations, firstOperations, exposedOperations_withType] at hmem
  obtain ⟨_, hlater, hfound⟩ := List.mem_filterMap.mp hmem
  obtain ⟨first, hfirst, heq⟩ := Option.map_eq_some_iff.mp hfound
  cases heq
  exact Operation.compareSignatures_same_mono (extends_withType ht place)
    (same_of_signatureComparisons h
      (List.mem_filterMap.mpr ⟨later, hlater, by rw [firstOperations, hfirst, Option.map_some]⟩))

theorem comparesForever_withType (ht : p.CanDeclare callerTypes t)
    (h : p.verify callerTypes config = .accepted v) :
    (p.withType place t).comparesForever callerTypes = false := by
  simp only [comparesForever, Bool.or_eq_false_iff, List.any_eq_false, List.any_eq_true,
    decide_eq_true_eq]
  refine ⟨fun c hc hu => ?_, fun c hc hunending => ?_⟩
  · obtain ⟨assumed, hsame⟩ := typeComparisons_withType ht h hc
    rw [hsame] at hu
    cases hu
  · obtain ⟨part, hpart, hu⟩ := hunending
    obtain ⟨assumed, hsame⟩ := signatureComparisons_withType ht h hc part hpart
    rw [hsame] at hu
    cases hu

theorem typeProblems_withType (ht : p.CanDeclare callerTypes t)
    (h : p.verify callerTypes config = .accepted v) :
    (p.withType place t).typeProblems callerTypes = [] := by
  refine List.filterMap_eq_nil_iff.mpr fun (later, first, comparing) hc => ?_
  obtain ⟨assumed, rfl⟩ := typeComparisons_withType ht h hc
  rfl

theorem signatureProblems_withType (ht : p.CanDeclare callerTypes t)
    (h : p.verify callerTypes config = .accepted v) :
    (p.withType place t).signatureProblems callerTypes = [] := by
  refine List.filterMap_eq_nil_iff.mpr fun (later, first, parts) hc => ?_
  have hnone : parts.filter (·.2 = .different) = [] := by
    refine List.filter_eq_nil_iff.mpr fun part hpart => ?_
    obtain ⟨assumed, hsame⟩ := signatureComparisons_withType ht h hc part hpart
    simp [hsame]
  simp [hnone]

theorem correlation_withType (ht : p.CanDeclare callerTypes t)
    (h : p.verify callerTypes config = .accepted v) :
    (p.withType place t).correlation callerTypes = p.correlation callerTypes := by
  have hbound := CorrelationSet.bindAll_mono (extends_withType ht place)
    (correlation_problems_of_accepted h)
  rw [correlation, correlation, requestIndex_withType, correlationSets_withType,
    CorrelationFunction.ofSets, CorrelationFunction.ofSets, hbound]

/-- In front of every declaration the tables hold the new type at most besides what they held. -/
theorem covers_insert (d : Declaration) (tables : Tables) (front back : List Declaration) :
    Tables.Covers d (tables.declareAll (front ++ back))
      (tables.declareAll (front ++ .type t :: back)) := by
  have hports : ∀ {β : Type} {pick : Declaration → Option β}, pick (.type t) = none →
      (front ++ .type t :: back).filterMap pick = (front ++ back).filterMap pick := by
    intro β pick hpick
    rw [List.filterMap_append, List.filterMap_cons_none hpick, ← List.filterMap_append]
  have houtput : (tables.declareAll (front ++ .type t :: back)).outputPorts =
      (tables.declareAll (front ++ back)).outputPorts := by
    rw [Tables.outputPorts_declareAll, Tables.outputPorts_declareAll, hports rfl]
  have hinput : (tables.declareAll (front ++ .type t :: back)).inputPorts =
      (tables.declareAll (front ++ back)).inputPorts := by
    rw [Tables.inputPorts_declareAll, Tables.inputPorts_declareAll, hports rfl]
  exact {
    types := fun name hname => by
      rw [Tables.types_declareAll, Dictionary.contains_foldl_setNew] at hname ⊢
      simp only [List.filterMap_append, List.filterMap_cons, List.any_append, Declaration.type?,
        List.any_cons, Bool.or_eq_true] at hname ⊢
      exact hname.imp_right (Or.imp_right .inr)
    outputPorts := fun _ _ _ hport => houtput ▸ hport
    inputPorts := fun _ _ _ hport => hinput ▸ hport
    sameOutputPorts := fun _ => houtput
    sameInputPorts := fun _ => hinput
    sameProcedures := fun _ => by
      rw [Tables.procedures_declareAll, Tables.procedures_declareAll, hports rfl] }

theorem declarationProblems_withType (ht : p.CanDeclare callerTypes t)
    (h : p.declarationProblems callerTypes = []) :
    (p.withType place t).declarationProblems callerTypes = [] := by
  rw [declarationProblems_eq_nil_iff, ← List.take_append_drop place p.declarations] at h
  rw [declarationProblems_eq_nil_iff, overview_withType]
  intro before d after heq
  have hnew : ∀ tables, (Declaration.type t).problems p.overview tables = [] := fun _ =>
    (List.append_nil _).trans (TypeDefinition.problems_eq_nil_of_bounds ht.bounds)
  rcases List.append_eq_append_iff.mp heq with ⟨skipped, rfl, hrest⟩ | ⟨skipped, hfront, hrest⟩
  · cases skipped with
    | nil =>
      obtain ⟨rfl, -⟩ := List.cons.inj hrest
      exact hnew _
    | cons first skipped =>
      rw [List.cons_append] at hrest
      obtain ⟨rfl, hdrop⟩ := List.cons.inj hrest
      refine Declaration.problems_eq_nil_of_covers ?_ (covers_insert d _ _ skipped)
      exact h _ d after (by rw [hdrop, List.append_assoc])
  · cases skipped with
    | nil =>
      obtain ⟨rfl, -⟩ := List.cons.inj hrest
      exact hnew _
    | cons first skipped =>
      rw [List.cons_append] at hrest
      obtain ⟨rfl, -⟩ := List.cons.inj hrest
      refine h before d (skipped ++ p.declarations.drop place) ?_
      rw [hfront, List.append_assoc, List.cons_append]

end Accepted

/-- A type that can be declared may be put anywhere: the program stays accepted, and all that is
handed on stays the same. -/
theorem withType_accepted (callerTypes : TypeMap) (config : Config) (p : Program) (v : Validated)
    (h : p.verify callerTypes config = .accepted v) (t : TypeDefinition)
    (ht : p.CanDeclare callerTypes t) (place : Nat) :
    (p.withType place t).verify callerTypes config = .accepted v := by
  obtain ⟨hdeclarations, hlinks, -, -, hcorrelation, hmain⟩ :=
    problems_eq_nil_iff.mp (problems_eq_nil_of_accepted h)
  obtain ⟨-, -, rfl⟩ := accepted_iff_no_problems.mp h
  refine accepted_iff_no_problems.mpr ⟨comparesForever_withType ht h, ?_, ?_⟩
  · refine problems_eq_nil_iff.mpr ⟨declarationProblems_withType ht hdeclarations,
      linkProblems_withType ht hlinks, typeProblems_withType ht h, signatureProblems_withType ht h,
      ?_, ?_⟩
    · rwa [correlation_withType ht h]
    · rwa [mainProblems, procedures_withType]
  · rw [correlation_withType ht h, executionMode_withType, constants_withType]

def openSessions : Program :=
  .ofDeclarations
    [.type ((TypeDefinition.native "Login" .void).addSubType (.native "user" .string)),
      .inputPort { InputPort.empty "Front" with
        operations := [.oneWay "login" "Login",
          ⟨.unknown, "post", .link (.plain "Login") "Post", none⟩] },
      .correlationSet (.ofMembers
        [(CorrelationVariable.ofPath (.ofKeys ["user"])).addAlias "Login" (.ofKeys ["user"])])]

def postType : TypeDefinition :=
  ((TypeDefinition.native "Post" .string).addSubType
    (.link ⟨.unknown, "answers", ⟨0, 1⟩⟩ "Post")).addSubType (.link (.plain "author") "Login")

theorem openSessions_withType :
    ∃ v, openSessions.verify [] ⟨false⟩ = .accepted v ∧ openSessions.CanDeclare [] postType ∧
      (openSessions.withType 1 postType).verify [] ⟨false⟩ = .accepted v ∧
      v.correlation.setId? "login" = some 0 := by
  have haccepted : openSessions.verify [] ⟨false⟩ =
      .accepted ⟨(openSessions.correlation []).1, openSessions.executionMode,
        openSessions.constants⟩ :=
    verify_eq_accepted_iff.mpr ⟨by decide +kernel, by decide +kernel, rfl⟩
  have hlinks : ∀ link ∈ postType.links, Dictionary.contains ([] : TypeMap) link.target = true ∨
      link.target = postType.id ∨ ∃ u ∈ openSessions.types, u.id = link.target := by decide +kernel
  have hfits : openSessions.CanDeclare [] postType :=
    ⟨by decide, by decide, by decide, fun hd target hnode =>
      hlinks _ (TypeDefinition.mem_links_iff.mpr ⟨hd, target, hnode, rfl⟩)⟩
  have hplace : (openSessions.correlation []).1.setId? "login" = some 0 := by decide +kernel
  exact ⟨_, haccepted, hfits,
    withType_accepted [] ⟨false⟩ openSessions _ haccepted postType hfits 1, hplace⟩

end Program

end ServiceCheck
