import Mathlib.Data.List.Basic
import ServiceCheck.Program.Construction
import ServiceCheck.Proofs.Verification.Agreement

/-!
What is declared again and differs. Each type and each exposed operation is compared once, with the
first holder of its name, and reported if the two differ. The first holder of the name of a type may
be an entry of the caller.
-/

set_option autoImplicit false

namespace ServiceCheck

open TypeDefinition (equivalent?)

section Named

variable {α : Type} {name : α → String}

/-- Each item with the holder of its name before it, if there is one: what is held from the start,
or else the first earlier item of the name. -/
def heldBefore (name : α → String) (held : String → Option α) (items : List α) :
    List (Option α × α) :=
  items.zipIdx.map fun (x, i) =>
    ((held (name x)).or ((items.take i).find? (name · = name x)), x)

def firstHolders (name : α → String) (items : List α) : List α :=
  (heldBefore name (fun _ => none) items).filterMap fun e => if e.1.isNone then some e.2 else none

/-- The items whose name is held before, each behind the holder. -/
def repeats (name : α → String) (held : String → Option α) (items : List α) : List (α × α) :=
  (heldBefore name held items).filterMap fun e => e.1.map (·, e.2)

theorem mem_of_mem_repeats {items : List α} {e : α × α}
    (h : e ∈ repeats name (fun _ => none) items) : e.1 ∈ items ∧ e.2 ∈ items := by
  obtain ⟨⟨holder, later⟩, hmem, he⟩ := List.mem_filterMap.mp h
  obtain ⟨⟨x, i⟩, hx, heq⟩ := List.mem_map.mp hmem
  cases heq
  obtain ⟨first, hfirst, rfl⟩ := Option.map_eq_some_iff.mp he
  rw [Option.none_or] at hfirst
  exact ⟨List.mem_of_mem_take (List.mem_of_find?_eq_some hfirst), List.fst_mem_of_mem_zipIdx hx⟩

/-- What is held from an item on: its own name too, unless that is held before. -/
def alsoHeld (name : α → String) (held : String → Option α) (x : α) (key : String) : Option α :=
  (held key).or (if name x = key then some x else none)

theorem alsoHeld_or_find? (held : String → Option α) (x : α) (rest : List α) (key : String) :
    (alsoHeld name held x key).or (rest.find? (name · = key)) =
      (held key).or ((x :: rest).find? (name · = key)) := by
  rw [alsoHeld, Option.or_assoc, List.find?_cons]
  by_cases h : name x = key <;> simp [h]

theorem heldBefore_cons (held : String → Option α) (x : α) (rest : List α) :
    heldBefore name held (x :: rest) =
      (held (name x), x) :: heldBefore name (alsoHeld name held x) rest := by
  rw [heldBefore, heldBefore, List.zipIdx_cons, List.zipIdx_succ, List.map_cons, List.map_map]
  refine congrArg₂ List.cons (congrArg (·, x) Option.or_none) ?_
  refine List.map_congr_left fun e _ => congrArg (·, e.1) ?_
  exact (alsoHeld_or_find? held x (rest.take e.2) (name e.1)).symm

theorem mem_taken_iff (name : α → String) {taken : List String} {held : String → Option α}
    (h : ∀ key, key ∈ taken ↔ (held key).isSome) (x : α) (key : String) :
    key ∈ (if name x ∈ taken then taken else name x :: taken) ↔
      (alsoHeld name held x key).isSome := by
  have hkey := h key
  rw [alsoHeld]
  by_cases heq : name x = key
  · subst heq
    by_cases hmem : name x ∈ taken <;> simp [hmem]
  · by_cases hmem : name x ∈ taken <;> simp [hmem, heq, Ne.symm heq, hkey]

theorem firstNamed_eq_filterMap {taken : List String} {held : String → Option α}
    (h : ∀ key, key ∈ taken ↔ (held key).isSome) (items : List α) :
    firstNamed name taken items =
      (heldBefore name held items).filterMap fun e => if e.1.isNone then some e.2 else none := by
  induction items generalizing taken held with
  | nil => rfl
  | cons x rest ih =>
    have hnext := ih (mem_taken_iff name h x)
    rw [firstNamed, heldBefore_cons]
    by_cases hmem : name x ∈ taken
    · obtain ⟨first, hfirst⟩ := Option.isSome_iff_exists.mp ((h (name x)).mp hmem)
      rw [if_pos hmem] at hnext ⊢
      rw [hnext, List.filterMap_cons_none (by simp [hfirst])]
    · have hnone : held (name x) = none := by rwa [h, Option.not_isSome_iff_eq_none] at hmem
      rw [if_neg hmem] at hnext ⊢
      rw [hnext, List.filterMap_cons_some (b := x) (by simp [hnone])]

theorem firstNamed_eq_firstHolders (items : List α) :
    firstNamed name [] items = firstHolders name items :=
  firstNamed_eq_filterMap (fun _ => by simp) items

/-- With the first holder looked up among all items, the later items are those that repeat a
name. -/
theorem laterNamed_eq_repeats {taken : List String} {held : String → Option α}
    (h : ∀ key, key ∈ taken ↔ (held key).isSome) (items : List α) :
    ((laterNamed name taken items).filterMap fun later =>
        ((held (name later)).or (items.find? (name · = name later))).map (·, later)) =
      repeats name held items := by
  induction items generalizing taken held with
  | nil => rfl
  | cons x rest ih =>
    have hnext := ih (mem_taken_iff name h x)
    simp only [alsoHeld_or_find?] at hnext
    rw [repeats, heldBefore_cons, laterNamed]
    by_cases hmem : name x ∈ taken
    · -- A held name is found at its holder, on both sides alike.
      obtain ⟨first, hfirst⟩ := Option.isSome_iff_exists.mp ((h (name x)).mp hmem)
      rw [if_pos hmem] at hnext ⊢
      rw [List.filterMap_cons_some (b := (first, x)) (by simp [hfirst]),
        List.filterMap_cons_some (b := (first, x)) (by simp [hfirst]), hnext]
      rfl
    · have hnone : held (name x) = none := by rwa [h, Option.not_isSome_iff_eq_none] at hmem
      rw [if_neg hmem] at hnext ⊢
      rw [hnext, List.filterMap_cons_none (by simp [hnone])]
      rfl

end Named

namespace Operation

variable {types : TypeMap}

/-- Faults differ in a name that only one side declares, or in the type of a name of both. -/
def faultsDiffer (types : TypeMap) (faults others : Dictionary TypeDefinition) : Bool :=
  (Dictionary.keys faults).any (· ∉ Dictionary.keys others) ||
    (Dictionary.keys others).any (· ∉ Dictionary.keys faults) ||
    faults.any fun e => (Dictionary.get? others e.1).any fun other =>
      equivalent? types e.2 other = some false

/-- The parts in which two operations differ. Replies count where both have one. -/
def differingParts (types : TypeMap) (first later : Operation) : List String :=
  (if first.kind = later.kind then [] else ["kind"]) ++
    (if equivalent? types first.request later.request = some false then ["request type"] else []) ++
    match first.reply, later.reply with
    | some r, some r' =>
      (if equivalent? types r.response r'.response = some false then ["response type"] else []) ++
        (if faultsDiffer types r.faults r'.faults then ["faults"] else [])
    | _, _ => []

/-- A comparison of faults that finds a difference ends at a fault that the others lack or give
another type. -/
theorem compareFaults_different {others faults : Dictionary TypeDefinition}
    (h : compareFaults types others faults = .different) :
    ∃ e ∈ faults, Dictionary.get? others e.1 = none ∨
      ∃ other, Dictionary.get? others e.1 = some other ∧
        equivalent? types e.2 other = some false := by
  induction faults with
  | nil => cases h
  | cons e rest ih =>
    obtain ⟨name, fault⟩ := e
    rw [compareFaults] at h
    cases hother : Dictionary.get? others name with
    | none => exact ⟨_, List.mem_cons_self, .inl hother⟩
    | some other =>
      simp only [hother, Comparing.andThen_eq_different] at h
      rcases h with h | ⟨-, -, h⟩
      · exact ⟨_, List.mem_cons_self, .inr ⟨other, hother, Comparing.answer?_eq_false.mpr h⟩⟩
      · obtain ⟨e, he, hdiffers⟩ := ih h
        exact ⟨e, List.mem_cons_of_mem _ he, hdiffers⟩

theorem faultsDiffer_iff {faults others : Dictionary TypeDefinition} :
    faultsDiffer types faults others ↔
      ¬(∀ name, name ∈ Dictionary.keys faults ↔ name ∈ Dictionary.keys others) ∨
        ∃ e ∈ faults, ∃ other, Dictionary.get? others e.1 = some other ∧
          equivalent? types e.2 other = some false := by
  simp only [faultsDiffer, Bool.or_eq_true, List.any_eq_true, Option.any_eq_true, decide_eq_true_eq]
  refine or_congr_left ?_
  grind

/-- One side is looked through, and the number of names makes up for the other. -/
theorem faults_different_iff {faults others : Dictionary TypeDefinition}
    (hfaults : (Dictionary.keys faults).Nodup) (hothers : (Dictionary.keys others).Nodup)
    (hends : faults.length = others.length → compareFaults types others faults ≠ .unending) :
    (if faults.length = others.length then compareFaults types others faults else .different) =
      .different ↔ faultsDiffer types faults others := by
  rw [faultsDiffer_iff]
  by_cases hlength : faults.length = others.length
  · rw [if_pos hlength]
    constructor
    · intro h
      obtain ⟨e, he, hmissing | hdiffers⟩ := compareFaults_different h
      · refine .inl fun hnames => ?_
        rw [Dictionary.get?_eq_none_iff, ← hnames] at hmissing
        exact hmissing (List.mem_map_of_mem he)
      · exact .inr ⟨e, he, hdiffers⟩
    · intro h
      -- No difference found means that all faults were found the same, and then nothing differs.
      by_contra hne
      obtain ⟨assumed, hsame⟩ := Comparing.exists_same hne (hends hlength)
      have hfound := compareFaults_same hsame
      rcases h with hnames | ⟨e, he, other, hother, hdiffers⟩
      · refine hnames (TypeDefinition.mem_keys_iff_of_subset hfaults (fun name hname => ?_) hlength)
        obtain ⟨e, he, rfl⟩ := List.mem_map.mp hname
        obtain ⟨other, hother, -⟩ := hfound e he
        exact (Dictionary.get?_isSome_iff others e.1).mp (by simp [hother])
      · obtain ⟨other', hother', hequivalent⟩ := hfound e he
        obtain rfl : other = other' := Option.some.inj (hother.symm.trans hother')
        rw [hdiffers] at hequivalent
        cases hequivalent
  · rw [if_neg hlength]
    refine iff_of_true rfl (.inl fun hnames => hlength ?_)
    exact TypeDefinition.length_eq_of_mem_keys_iff hfaults hothers hnames

theorem differing_cons (which : String) (c : Comparing) (rest : List (String × Comparing)) :
    (((which, c) :: rest).filter fun part => part.2 = .different).map (·.1) =
      (if c = .different then [which] else []) ++
        (rest.filter fun part => part.2 = .different).map (·.1) := by
  by_cases h : c = .different <;> simp [h]

theorem differing_compareSignatures {first later : Operation} (hfirst : first.DistinctKeys)
    (hlater : later.DistinctKeys)
    (hends : ∀ part ∈ compareSignatures types first later, part.2 ≠ .unending) :
    ((compareSignatures types first later).filter fun part => part.2 = .different).map (·.1) =
      differingParts types first later := by
  have hanswer : ∀ a b : TypeDefinition, a.compare types b = .different ↔
      equivalent? types a b = some false := fun a b => Comparing.answer?_eq_false.symm
  have hkind : (if first.kind = later.kind then Comparing.same .empty else .different) =
      .different ↔ ¬first.kind = later.kind := by
    split <;> simp_all
  rw [compareSignatures, List.cons_append, List.cons_append, List.nil_append, differing_cons,
    differing_cons, differingParts]
  simp only [hanswer, hkind, ite_not, List.append_assoc]
  congr 2
  cases hr : first.reply with
  | none => rfl
  | some r =>
    cases hr' : later.reply with
    | none => rfl
    | some r' =>
      have hfaults : r.faults.length = r'.faults.length →
          compareFaults types r'.faults r.faults ≠ .unending := by
        intro hlength
        have hpart := hends ("faults", compareFaults types r'.faults r.faults)
          (by simp [compareSignatures, hr, hr', hlength])
        exact hpart
      have hiff := faults_different_iff (faults_of_reply hr ▸ hfirst.faultNames)
        (faults_of_reply hr' ▸ hlater.faultNames) hfaults
      simp only [differing_cons, hanswer, hiff, List.filter_nil, List.map_nil, List.append_nil]

end Operation

open Diagnostics

namespace Program

/-- What the input ports offer, in document order: of each port the operations whose name no earlier
one of the port has, its own operations first and then those of its interfaces. -/
def listedOperations (p : Program) : List Operation :=
  p.inputPorts.flatMap fun port => firstHolders Operation.id port.allOperations

theorem exposedOperations_eq (p : Program) : p.exposedOperations = p.listedOperations :=
  List.flatMap_congr fun port _ => firstNamed_eq_firstHolders port.allOperations

def typeMismatch? (types : TypeMap) : TypeDefinition × TypeDefinition → Option Diagnostic
  | (first, later) =>
    if equivalent? types first later = some false then
      some ((Diagnostic.report .typeEquivalenceMismatch later.position later.id).relate
        "first defined here" first.position)
    else none

def signatureMismatch? (types : TypeMap) : Operation × Operation → Option Diagnostic
  | (first, later) =>
    let parts := Operation.differingParts types first later
    if parts.isEmpty then none
    else
      some (((Diagnostic.report .operationSignatureMismatch later.position later.id).relate
        "first declared here" first.position).hint ("differs in " ++ ", ".intercalate parts))

/-- What is reported of types declared again and of operations listed again, each against the first
of its name. All are compared against the types of the whole program. -/
structure MismatchesReported (callerTypes : TypeMap) (p : Program) (ds : Diagnostics) : Prop where
  types : ofKinds [.typeEquivalenceMismatch] ds =
    (repeats TypeDefinition.id (Dictionary.get? callerTypes) p.types).filterMap
      (typeMismatch? (p.allTypes callerTypes))
  operations : ofKinds [.operationSignatureMismatch] ds =
    (repeats Operation.id (fun _ => none) p.listedOperations).filterMap
      (signatureMismatch? (p.allTypes callerTypes))

variable (callerTypes : TypeMap) (config : Config) (p : Program)

theorem typeComparisons_eq :
    p.typeComparisons callerTypes =
      (repeats TypeDefinition.id (Dictionary.get? callerTypes) p.types).map fun (first, later) =>
        (later, first, first.compare (p.allTypes callerTypes) later) := by
  have hheld : ∀ key, key ∈ Dictionary.keys callerTypes ↔
      (Dictionary.get? callerTypes key).isSome :=
    fun key => (Dictionary.get?_isSome_iff callerTypes key).symm
  rw [← laterNamed_eq_repeats hheld, List.map_filterMap, typeComparisons, laterTypes]
  refine List.filterMap_congr fun later _ => ?_
  rw [get?_allTypes, Option.map_map]
  rfl

theorem typeProblems_eq :
    p.typeProblems callerTypes =
      (repeats TypeDefinition.id (Dictionary.get? callerTypes) p.types).filterMap
        (typeMismatch? (p.allTypes callerTypes)) := by
  rw [typeProblems, typeComparisons_eq, List.filterMap_map]
  refine List.filterMap_congr fun e _ => ?_
  simp only [Function.comp, typeMismatch?, equivalent?, Comparing.answer?_eq_false]

theorem signatureComparisons_eq :
    p.signatureComparisons callerTypes =
      (repeats Operation.id (fun _ => none) p.listedOperations).map fun (first, later) =>
        (later, first, Operation.compareSignatures (p.allTypes callerTypes) first later) := by
  have hheld : ∀ key, key ∈ [] ↔ ((fun _ => none : String → Option Operation) key).isSome := by
    simp
  rw [← laterNamed_eq_repeats hheld, List.map_filterMap, signatureComparisons, laterOperations,
    exposedOperations_eq]
  refine List.filterMap_congr fun later _ => ?_
  rw [firstOperations, find?_firstNamed, if_neg List.not_mem_nil, exposedOperations_eq,
    Option.none_or, Option.map_map]
  rfl

variable {callerTypes p}

theorem ends_of_signatureComparisons (h : p.comparesForever callerTypes = false)
    {c : Operation × Operation × List (String × Comparing)}
    (hmem : c ∈ p.signatureComparisons callerTypes) : ∀ part ∈ c.2.2, part.2 ≠ .unending := by
  simp only [comparesForever, Bool.or_eq_false_iff, List.any_eq_false] at h
  exact fun part hpart hu => h.2 _ hmem (List.any_eq_true.mpr ⟨part, hpart, by simp [hu]⟩)

theorem distinctKeys_of_listed (hkeys : p.DistinctKeys) {o : Operation}
    (ho : o ∈ p.listedOperations) : o.DistinctKeys := by
  rw [← exposedOperations_eq] at ho
  obtain ⟨port, hport, ho⟩ := List.mem_flatMap.mp ho
  exact distinctKeys_of_exposed hkeys
    (List.mem_flatMap.mpr ⟨port, hport, mem_of_mem_firstNamed ho⟩)

theorem signatureProblems_eq (h : p.comparesForever callerTypes = false) (hkeys : p.DistinctKeys) :
    p.signatureProblems callerTypes =
      (repeats Operation.id (fun _ => none) p.listedOperations).filterMap
        (signatureMismatch? (p.allTypes callerTypes)) := by
  have hends := fun c => @ends_of_signatureComparisons callerTypes p h c
  rw [signatureComparisons_eq] at hends
  rw [signatureProblems, signatureComparisons_eq, List.filterMap_map]
  refine List.filterMap_congr fun e he => ?_
  obtain ⟨hfirst, hlater⟩ := mem_of_mem_repeats he
  have hdiffering := Operation.differing_compareSignatures (distinctKeys_of_listed hkeys hfirst)
    (distinctKeys_of_listed hkeys hlater) (hends _ (List.mem_map_of_mem he))
  simp only [Function.comp, signatureMismatch?, hdiffering]

theorem ofKinds_mismatch_problems (callerTypes : TypeMap) (config : Config) (p : Program)
    {kinds : List DiagnosticKind}
    (hkinds : kinds ⊆ [.typeEquivalenceMismatch, .operationSignatureMismatch]) :
    ofKinds kinds (p.problems callerTypes config) =
      ofKinds kinds (p.typeProblems callerTypes) ++
        ofKinds kinds (p.signatureProblems callerTypes) := by
  have hnone : ∀ {kinds' ds}, Within kinds' ds →
      (∀ k ∈ kinds', k ∉ [DiagnosticKind.typeEquivalenceMismatch, .operationSignatureMismatch]) →
        ofKinds kinds ds = [] :=
    fun hwithin hother => hwithin.ofKinds_eq_nil fun k hk hmem => hother k hk (hkinds hmem)
  have hdeclarations := hnone (p.within_declarationProblems callerTypes) (by decide)
  have hlinks := hnone (p.within_linkProblems callerTypes) (by decide)
  have hcorrelation := hnone (p.within_correlation callerTypes) (by decide)
  have hmain := hnone (p.within_mainProblems config) (by decide)
  simp only [problems, ofKinds_append, hdeclarations, hlinks, hcorrelation, hmain,
    List.nil_append, List.append_nil]

/-- Where the comparisons end, exactly the types and the operations that differ from the first of
their name are reported as mismatches, each once and in document order. -/
theorem mismatches_reported (callerTypes : TypeMap) (config : Config) (p : Program)
    (hends : p.verify callerTypes config ≠ .unending) (hkeys : p.DistinctKeys) :
    p.MismatchesReported callerTypes (p.problems callerTypes config) ∧
      match p.verify callerTypes config with
      | .accepted _ => p.MismatchesReported callerTypes []
      | .rejected problems => p.MismatchesReported callerTypes problems
      | .unending => False := by
  have hfinite : p.comparesForever callerTypes = false := by
    rw [ne_eq, verify_eq_unending_iff, Bool.not_eq_true] at hends
    exact hends
  have htypes := p.within_typeProblems callerTypes
  have hsignatures := p.within_signatureProblems callerTypes
  have hreported : p.MismatchesReported callerTypes (p.problems callerTypes config) := by
    constructor
    · rw [ofKinds_mismatch_problems _ _ _ (by decide), htypes.ofKinds_eq_self (by decide),
        hsignatures.ofKinds_eq_nil (by decide), List.append_nil, typeProblems_eq]
    · rw [ofKinds_mismatch_problems _ _ _ (by decide), htypes.ofKinds_eq_nil (by decide),
        hsignatures.ofKinds_eq_self (by decide), List.nil_append,
        signatureProblems_eq hfinite hkeys]
  have hshown := verify_shows hreported
  refine ⟨hreported, ?_⟩
  cases hverdict : p.verify callerTypes config with
  | unending => exact hends hverdict
  | _ => simpa only [hverdict] using hshown

def branchOffices : Program :=
  .ofDeclarations
    [.inputPort { InputPort.empty "North" with
        operations := [.oneWay "put" "Key", .requestResponse "put" "Full" "Full"]
        interfaces := [(Interface.empty "Desk").addOperation
          ((Operation.requestResponse "ask" "Key" "Key").addFault "Full" "Full")] },
      .inputPort { InputPort.empty "South" with
        operations := [.requestResponse "put" "Key" "Key",
          (Operation.requestResponse "ask" "Key" "Key").addFault "Late" "Full"] },
      .type (.native "Full" .void), .type (.native "Key" .string), .type (.native "Full" .void)]

theorem mismatches_branchOffices :
    branchOffices.verify [("Key", .native "Key" .int)] .standard ≠ .unending ∧
      branchOffices.DistinctKeys ∧
      ofKinds [.typeEquivalenceMismatch]
          (branchOffices.problems [("Key", .native "Key" .int)] .standard) =
        [.report .typeEquivalenceMismatch .unknown "Key"] ∧
      ofKinds [.operationSignatureMismatch]
          (branchOffices.problems [("Key", .native "Key" .int)] .standard) =
        [(Diagnostic.report .operationSignatureMismatch .unknown "put").hint "differs in kind",
          (Diagnostic.report .operationSignatureMismatch .unknown "ask").hint
            "differs in faults"] := by
  have hends : branchOffices.verify [("Key", .native "Key" .int)] .standard ≠ .unending := by
    rw [ne_eq, verify_eq_unending_iff]
    decide +kernel
  have hkeys : branchOffices.DistinctKeys := .of_allAbove 6 (by decide +kernel)
  obtain ⟨hreported, -⟩ := mismatches_reported _ _ _ hends hkeys
  exact ⟨hends, hkeys, hreported.types.trans (by decide +kernel),
    hreported.operations.trans (by decide +kernel)⟩

end Program

end ServiceCheck
