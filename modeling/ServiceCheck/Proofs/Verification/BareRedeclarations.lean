import ServiceCheck.Proofs.Verification.BareDeclarations
import ServiceCheck.Verification.Redeclarations

set_option autoImplicit false

namespace ServiceCheck

open Dictionary (mapValues)

section Named

variable {α : Type} {name : α → String} {f : α → α}

theorem firstNamed_map (h : ∀ x, name (f x) = name x) (taken : List String) (items : List α) :
    firstNamed name taken (items.map f) = (firstNamed name taken items).map f := by
  induction items generalizing taken with
  | nil => rfl
  | cons x rest ih => by_cases hx : name x ∈ taken <;> simp [firstNamed, h, hx, ih]

theorem laterNamed_map (h : ∀ x, name (f x) = name x) (taken : List String) (items : List α) :
    laterNamed name taken (items.map f) = (laterNamed name taken items).map f := by
  induction items generalizing taken with
  | nil => rfl
  | cons x rest ih => by_cases hx : name x ∈ taken <;> simp [laterNamed, h, hx, ih]

end Named

def WrittenLink.bare (link : WrittenLink) : WrittenLink := { link with position := .unknown }

theorem TypeDefinition.links_bare (t : TypeDefinition) :
    t.bare.links = t.links.map WrittenLink.bare := by
  simp only [links, nodes_bare, List.filterMap_map, List.map_filterMap, id_bare]
  refine List.filterMap_congr fun u _ => ?_
  cases u <;> rfl

namespace Operation

variable (types : TypeMap)

theorem compareFaults_bare (others faults : Dictionary TypeDefinition) :
    compareFaults types.bare (mapValues TypeDefinition.bare others)
        (mapValues TypeDefinition.bare faults) =
      compareFaults types others faults := by
  induction faults with
  | nil => rfl
  | cons entry rest ih =>
    obtain ⟨name, fault⟩ := entry
    simp only [Dictionary.mapValues_cons, compareFaults, Dictionary.get?_mapValues]
    cases Dictionary.get? others name <;> simp [ih]

theorem compareSignatures_bare (first later : Operation) :
    compareSignatures types.bare first.bare later.bare =
      compareSignatures types first later := by
  have hrequest : ∀ o : Operation, o.bare.request = o.request.bare := fun _ => rfl
  have hreply : ∀ o : Operation, o.bare.reply = o.reply.map Reply.bare := fun _ => rfl
  simp only [compareSignatures, kind_bare, hrequest, hreply, TypeDefinition.compare_bare]
  cases first.reply <;> cases later.reply <;> simp [Reply.bare, compareFaults_bare]

end Operation

namespace Program

variable (callerTypes : TypeMap) (p : Program)

@[simp] theorem types_bare : p.bare.types = p.types.map TypeDefinition.bare :=
  p.filterMap_bare fun d => by cases d <;> rfl

@[simp] theorem allTypes_bare : p.bare.allTypes callerTypes.bare = (p.allTypes callerTypes).bare :=
  congrArg Tables.types (Tables.declareAll_bare (.initial callerTypes) p.declarations)

theorem laterTypes_bare :
    p.bare.laterTypes callerTypes.bare = (p.laterTypes callerTypes).map TypeDefinition.bare := by
  rw [laterTypes, types_bare, TypeMap.bare, Dictionary.keys_mapValues,
    laterNamed_map TypeDefinition.id_bare, laterTypes]

theorem exposedOperations_bare :
    p.bare.exposedOperations = p.exposedOperations.map Operation.bare := by
  simp [exposedOperations, List.flatMap_map, List.map_flatMap, firstNamed_map Operation.id_bare]

theorem firstOperations_bare : p.bare.firstOperations = p.firstOperations.map Operation.bare := by
  rw [firstOperations, exposedOperations_bare, firstNamed_map Operation.id_bare, firstOperations]

theorem laterOperations_bare : p.bare.laterOperations = p.laterOperations.map Operation.bare := by
  rw [laterOperations, exposedOperations_bare, laterNamed_map Operation.id_bare, laterOperations]

@[simp] theorem requestIndex_bare : p.bare.requestIndex = p.requestIndex := by
  have hrequest : ∀ o : Operation, o.bare.request.id = o.request.id := fun o => o.request.id_bare
  simp [requestIndex, firstOperations_bare, List.foldl_map, hrequest]

theorem linkProblems_bare :
    (p.bare.linkProblems callerTypes.bare).map Diagnostic.wording =
      (p.linkProblems callerTypes).map Diagnostic.wording := by
  have hlinks : p.bare.links = p.links.map WrittenLink.bare := by
    simp [links, TypeDefinition.links_bare, List.flatMap_map, List.map_flatMap]
  simp only [linkProblems, hlinks, allTypes_bare, List.filter_map, List.map_map,
    Function.comp_def, TypeMap.contains_bare]
  rfl

theorem typeComparisons_bare :
    p.bare.typeComparisons callerTypes.bare =
      (p.typeComparisons callerTypes).map fun c => (c.1.bare, c.2.1.bare, c.2.2) := by
  simp only [typeComparisons, laterTypes_bare, allTypes_bare, List.filterMap_map,
    List.map_filterMap]
  refine List.filterMap_congr fun later _ => ?_
  simp only [Function.comp_apply, TypeDefinition.id_bare, TypeMap.get?_bare]
  cases Dictionary.get? (p.allTypes callerTypes) later.id <;> simp

theorem typeProblems_bare :
    (p.bare.typeProblems callerTypes.bare).map Diagnostic.wording =
      (p.typeProblems callerTypes).map Diagnostic.wording := by
  simp only [typeProblems, typeComparisons_bare, List.filterMap_map, List.map_filterMap]
  refine List.filterMap_congr fun c _ => ?_
  by_cases h : c.2.2 = .different <;> simp [h]

theorem signatureComparisons_bare :
    p.bare.signatureComparisons callerTypes.bare =
      (p.signatureComparisons callerTypes).map fun c => (c.1.bare, c.2.1.bare, c.2.2) := by
  simp only [signatureComparisons, laterOperations_bare, firstOperations_bare, allTypes_bare,
    List.filterMap_map, List.map_filterMap]
  refine List.filterMap_congr fun later _ => ?_
  have hfind : (p.firstOperations.map Operation.bare).find? (·.id = later.bare.id) =
      (p.firstOperations.find? (·.id = later.id)).map Operation.bare := by
    rw [List.find?_map]
    rfl
  simp only [Function.comp_apply, hfind]
  cases p.firstOperations.find? (·.id = later.id) <;> simp [Operation.compareSignatures_bare]

theorem signatureProblems_bare :
    (p.bare.signatureProblems callerTypes.bare).map Diagnostic.wording =
      (p.signatureProblems callerTypes).map Diagnostic.wording := by
  simp only [signatureProblems, signatureComparisons_bare, List.filterMap_map,
    List.map_filterMap]
  refine List.filterMap_congr fun c _ => ?_
  obtain ⟨later, first, parts⟩ := c
  by_cases h : ((parts.filter fun part => part.2 = .different).map (·.1)).isEmpty <;>
    simp [h]

theorem comparesForever_bare :
    p.bare.comparesForever callerTypes.bare = p.comparesForever callerTypes := by
  simp [comparesForever, typeComparisons_bare, signatureComparisons_bare, Function.comp_def]

end Program

end ServiceCheck
