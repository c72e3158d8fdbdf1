import ServiceCheck.Proofs.Verification.Agreement

set_option autoImplicit false

namespace ServiceCheck

def TypeDefinition.LinksKnown (types : TypeMap) (t : TypeDefinition) : Prop :=
  ∀ h target, .link h target ∈ t.nodes → Dictionary.contains types target = true

theorem TypeDefinition.mem_links_iff {t : TypeDefinition} {link : WrittenLink} :
    link ∈ t.links ↔ ∃ h target, .link h target ∈ t.nodes ∧ link = ⟨h.position, target, t.id⟩ := by
  simp only [links, List.mem_filterMap]
  constructor
  · rintro ⟨node, hnode, hlink⟩
    cases node <;> cases hlink
    exact ⟨_, _, hnode, rfl⟩
  · rintro ⟨h, target, hnode, rfl⟩
    exact ⟨_, hnode, rfl⟩

theorem TypeDefinition.linksKnown_iff {types : TypeMap} {t : TypeDefinition} :
    t.LinksKnown types ↔ ∀ link ∈ t.links, Dictionary.contains types link.target = true := by
  simp only [LinksKnown, mem_links_iff]
  constructor
  · rintro h _ ⟨hd, target, hnode, rfl⟩
    exact h hd target hnode
  · exact fun h hd target hnode => h _ ⟨hd, target, hnode, rfl⟩

instance {types : TypeMap} : DecidablePred (TypeDefinition.LinksKnown types) := fun _ =>
  decidable_of_iff _ TypeDefinition.linksKnown_iff.symm

theorem TypeDefinition.LinksKnown.mono {types types' : TypeMap} {t : TypeDefinition}
    (h : t.LinksKnown types) (htypes : ∀ name, Dictionary.contains types name = true →
      Dictionary.contains types' name = true) : t.LinksKnown types' :=
  fun hd target hnode => htypes target (h hd target hnode)

namespace Declaration

def port? : Declaration → Option Port
  | .inputPort p => some p.toPort
  | .outputPort p => some p
  | _ => none

theorem checked_of_headProblems {overview : Overview} {t : Tables} {d : Declaration}
    (h : d.headProblems overview t = []) {port : Port} (hport : d.port? = some port) :
    ∀ o ∈ port.allOperations, o.problems t.types = [] := by
  cases d <;> cases hport
  case inputPort p =>
    have hoperations := (List.append_eq_nil_iff.mp (List.append_eq_nil_iff.mp h).1).2
    exact (InputPort.operationProblems_eq_nil_iff.mp hoperations).2
  case outputPort => exact List.flatMap_eq_nil_iff.mp (List.append_eq_nil_iff.mp h).2

end Declaration

namespace Program

variable {callerTypes : TypeMap} {config : Config} {p : Program} {v : Validated}

theorem contains_allTypes_of_caller {name : String}
    (h : Dictionary.contains callerTypes name = true) :
    Dictionary.contains (p.allTypes callerTypes) name = true :=
  contains_allTypes_iff.mpr (.inl h)

theorem linksKnown_of_declared (h : p.verify callerTypes config = .accepted v)
    {t : TypeDefinition} (ht : t ∈ p.types) : t.LinksKnown (p.allTypes callerTypes) := by
  obtain ⟨-, hlinks, -⟩ := problems_eq_nil_iff.mp (problems_eq_nil_of_accepted h)
  refine TypeDefinition.linksKnown_iff.mpr fun link hlink => ?_
  have hkept := List.filter_eq_nil_iff.mp (List.map_eq_nil_iff.mp hlinks) link
    (List.mem_flatMap.mpr ⟨t, ht, hlink⟩)
  simpa using hkept

def ports (p : Program) : List Port := p.declarations.filterMap Declaration.port?

theorem known_of_signature (h : p.verify callerTypes config = .accepted v) {port : Port}
    (hport : port ∈ p.ports) {o : Operation} (ho : o ∈ port.allOperations) {t : TypeDefinition}
    (ht : t ∈ o.types) : Dictionary.contains (p.allTypes callerTypes) t.id = true := by
  obtain ⟨hdeclarations, -⟩ := problems_eq_nil_iff.mp (problems_eq_nil_of_accepted h)
  obtain ⟨d, hd, hdport⟩ := List.mem_filterMap.mp hport
  obtain ⟨before, after, heq⟩ := List.append_of_mem hd
  have hproblems := declarationProblems_eq_nil_iff.mp hdeclarations before d after heq
  have hchecked := Declaration.checked_of_headProblems (List.append_eq_nil_iff.mp hproblems).1
    hdport o ho
  exact Tables.contains_types_mono ⟨d :: after, heq.symm⟩
    (Operation.problems_eq_nil_iff.mp hchecked t ht)

/-- What is known of the names of types: the links in all that the final map holds or that was
declared, and the own name of every type in a signature, hence its target where it is a link that
is named after it. -/
structure NamesKnown (callerTypes : TypeMap) (p : Program) : Prop where
  entries : ∀ e ∈ p.allTypes callerTypes, e.2.LinksKnown (p.allTypes callerTypes)
  declared : ∀ t ∈ p.types, t.LinksKnown (p.allTypes callerTypes)
  signatures : ∀ port ∈ p.ports, ∀ o ∈ port.allOperations, ∀ t ∈ o.types,
    Dictionary.contains (p.allTypes callerTypes) t.id = true
  targets : ∀ port ∈ p.ports, ∀ o ∈ port.allOperations, ∀ h, .link h h.id ∈ o.types →
    Dictionary.contains (p.allTypes callerTypes) h.id = true

/-- Acceptance makes all of these names known, if the links of the caller's types are. -/
theorem namesKnown_of_accepted (callerTypes : TypeMap) (config : Config) (p : Program)
    (v : Validated) (h : p.verify callerTypes config = .accepted v)
    (hcaller : ∀ e ∈ callerTypes, e.2.LinksKnown callerTypes) : p.NamesKnown callerTypes where
  entries := by
    intro e he
    rcases mem_declareAll_types he with hold | hdeclared
    · exact (hcaller e hold).mono fun _ => contains_allTypes_of_caller
    · exact linksKnown_of_declared h ((mem_types_iff e.2).mpr hdeclared)
  declared := fun _ => linksKnown_of_declared h
  signatures := fun _ hport _ ho _ => known_of_signature h hport ho
  targets := fun _ hport _ ho _ ht => known_of_signature h hport ho ht

def treeStore : Program :=
  .ofDeclarations
    [.type (.choice (.plain "Tree") (.native "Leaf" .string)
        ((TypeDefinition.native "Node" .void).addSubType (.named "Tree"))),
      .inputPort { InputPort.empty "In" with operations := [.oneWay "keep" "Tree"] },
      .outputPort { Port.empty "Out" with
        operations := [(Operation.requestResponse "swap" "Tree" "Tree").addFault "Full" "string"] }]

theorem namesKnown_treeStore :
    ∃ v, treeStore.verify .natives ⟨false⟩ = .accepted v ∧
      (∀ e ∈ TypeMap.natives, e.2.LinksKnown .natives) ∧ treeStore.NamesKnown .natives := by
  have haccepted : treeStore.verify .natives ⟨false⟩ =
      .accepted ⟨(treeStore.correlation .natives).1, treeStore.executionMode,
        treeStore.constants⟩ :=
    verify_eq_accepted_iff.mpr ⟨by decide +kernel, by decide +kernel, rfl⟩
  have hcaller : ∀ e ∈ TypeMap.natives, e.2.LinksKnown .natives := by decide +kernel
  exact ⟨_, haccepted, hcaller, namesKnown_of_accepted .natives ⟨false⟩ treeStore _ haccepted hcaller⟩

/-- Signatures with links to a missing type: one named after another type, one inside a type. -/
def hiddenLinks : Program :=
  .ofDeclarations
    [.type (.native "Known" .void),
      .inputPort { InputPort.empty "In" with
        operations := [⟨.unknown, "first", .link (.plain "Known") "Missing", none⟩,
          ⟨.unknown, "second", (TypeDefinition.native "Known" .void).addSubType (.named "Missing"),
            none⟩] }]

theorem hiddenLinks_accepted :
    ∃ v, hiddenLinks.verify [] ⟨false⟩ = .accepted v ∧
      ∃ port ∈ hiddenLinks.ports, ∀ o ∈ port.allOperations,
        ∃ t ∈ o.types, ¬t.LinksKnown (hiddenLinks.allTypes []) := by
  refine ⟨⟨(hiddenLinks.correlation []).1, _, _⟩,
    verify_eq_accepted_iff.mpr ⟨by decide +kernel, by decide +kernel, rfl⟩, ?_⟩
  exact ⟨_, List.mem_singleton_self _, by decide +kernel⟩

end Program

end ServiceCheck
