import ServiceCheck.Proofs.Verification.Acceptance

set_option autoImplicit false

namespace ServiceCheck

namespace Dictionary

variable {α : Type} {key : α → String} {d : Dictionary α} {items items' : List α} {k : String}

theorem get?_foldl_setNew_mono (h : items <+: items') {value : α}
    (hfound : get? (items.foldl (fun d item => setNew d (key item) item) d) k = some value) :
    get? (items'.foldl (fun d item => setNew d (key item) item) d) k = some value := by
  obtain ⟨later, rfl⟩ := h
  rw [get?_foldl_setNew] at hfound ⊢
  rw [List.find?_append, ← Option.or_assoc, hfound, Option.some_or]

theorem contains_foldl_setNew_mono (h : items <+: items')
    (hfound : contains (items.foldl (fun d item => setNew d (key item) item) d) k = true) :
    contains (items'.foldl (fun d item => setNew d (key item) item) d) k = true := by
  obtain ⟨value, hvalue⟩ := Option.isSome_iff_exists.mp hfound
  exact Option.isSome_iff_exists.mpr ⟨value, get?_foldl_setNew_mono h hvalue⟩

end Dictionary

namespace Declaration

def type? : Declaration → Option TypeDefinition
  | .type t => some t
  | _ => none

def inputPort? : Declaration → Option InputPort
  | .inputPort p => some p
  | _ => none

def outputPort? : Declaration → Option OutputPort
  | .outputPort p => some p
  | _ => none

def procedure? : Declaration → Option Procedure
  | .procedure p => some p
  | _ => none

end Declaration

namespace Tables

variable (t : Tables) (ds : List Declaration)

theorem declareAll_eq_foldl {α : Type} {table : Tables → Dictionary α} {name : α → String}
    {item? : Declaration → Option α}
    (hdeclare : ∀ t d, table (t.declare d) =
      (item? d).toList.foldl (fun d x => Dictionary.setNew d (name x) x) (table t)) :
    table (t.declareAll ds) =
      (ds.filterMap item?).foldl (fun d x => Dictionary.setNew d (name x) x) (table t) := by
  induction ds generalizing t with
  | nil => rfl
  | cons d rest ih =>
    have hcons : t.declareAll (d :: rest) = (t.declare d).declareAll rest := rfl
    rw [hcons, ih, hdeclare, List.filterMap_cons]
    cases item? d <;> rfl

theorem types_declareAll : (t.declareAll ds).types =
    (ds.filterMap Declaration.type?).foldl (fun d x => Dictionary.setNew d x.id x) t.types :=
  declareAll_eq_foldl t ds fun _ d => by cases d <;> rfl

theorem inputPorts_declareAll : (t.declareAll ds).inputPorts =
    (ds.filterMap Declaration.inputPort?).foldl (fun d x => Dictionary.setNew d x.id x)
      t.inputPorts :=
  declareAll_eq_foldl t ds fun _ d => by cases d <;> rfl

theorem outputPorts_declareAll : (t.declareAll ds).outputPorts =
    (ds.filterMap Declaration.outputPort?).foldl (fun d x => Dictionary.setNew d x.id x)
      t.outputPorts :=
  declareAll_eq_foldl t ds fun _ d => by cases d <;> rfl

theorem procedures_declareAll : (t.declareAll ds).procedures =
    (ds.filterMap Declaration.procedure?).foldl (fun d x => Dictionary.setNew d x.id x)
      t.procedures :=
  declareAll_eq_foldl t ds fun _ d => by cases d <;> rfl

variable {t ds}

theorem mem_inForce_iff {t' : Tables} {d : Declaration} :
    (t', d) ∈ inForce t ds ↔
      ∃ before after, ds = before ++ d :: after ∧ t' = t.declareAll before := by
  induction ds generalizing t with
  | nil => simp [inForce]
  | cons first rest ih =>
    rw [inForce, List.mem_cons, ih]
    constructor
    · rintro (heq | ⟨before, after, rfl, rfl⟩)
      · obtain ⟨rfl, rfl⟩ := Prod.mk.inj heq
        exact ⟨[], rest, rfl, rfl⟩
      · exact ⟨first :: before, after, rfl, rfl⟩
    · rintro ⟨before, after, heq, rfl⟩
      cases before with
      | nil =>
        obtain ⟨rfl, rfl⟩ := List.cons.inj heq
        exact .inl rfl
      | cons _ before =>
        obtain ⟨rfl, rfl⟩ := List.cons.inj heq
        exact .inr ⟨before, after, rfl, rfl⟩

theorem mem_of_mem_inForce {t' : Tables} {d : Declaration} (h : (t', d) ∈ inForce t ds) :
    d ∈ ds := by
  obtain ⟨before, after, rfl, -⟩ := mem_inForce_iff.mp h
  exact List.mem_append_right _ List.mem_cons_self

theorem map_snd_inForce (t : Tables) (ds : List Declaration) :
    (inForce t ds).map (·.2) = ds := by
  induction ds generalizing t with
  | nil => rfl
  | cons d rest ih => rw [inForce, List.map_cons, ih]

theorem inForce_eq (t : Tables) (ds : List Declaration) :
    inForce t ds = ds.zipIdx.map fun (d, i) => (t.declareAll (ds.take i), d) := by
  have hfrom : ∀ before rest, inForce (t.declareAll before) rest =
      (rest.zipIdx before.length).map fun (d, i) => (t.declareAll ((before ++ rest).take i), d) := by
    intro before rest
    induction rest generalizing before with
    | nil => rfl
    | cons d rest ih =>
      have hnext : (t.declareAll before).declare d = t.declareAll (before ++ [d]) := by
        rw [declareAll, declareAll, List.foldl_append]
        rfl
      rw [inForce, hnext, ih, List.zipIdx_cons, List.map_cons]
      simp only [List.take_left, List.append_assoc, List.length_append, List.length_singleton,
        List.singleton_append]
  exact hfrom [] ds

theorem contains_types_mono {ds' : List Declaration} (h : ds <+: ds') {name : String}
    (hknown : Dictionary.contains (t.declareAll ds).types name = true) :
    Dictionary.contains (t.declareAll ds').types name = true := by
  rw [types_declareAll] at hknown ⊢
  exact Dictionary.contains_foldl_setNew_mono (h.filterMap _) hknown

end Tables

section Passing

theorem Operation.problems_eq_nil_iff {types : TypeMap} {o : Operation} :
    o.problems types = [] ↔ ∀ t ∈ o.types, Dictionary.contains types t.id = true := by
  simp [problems]

/-- Without problems no operation is repeated, so that all have been checked. -/
theorem InputPort.operationProblems_eq_nil_iff {types : TypeMap} {port : String}
    {seen : List String} {operations : List Operation} :
    operationProblems types port seen operations = [] ↔
      laterNamed Operation.id seen operations = [] ∧ ∀ o ∈ operations, o.problems types = [] := by
  induction operations generalizing seen with
  | nil => simp [operationProblems, laterNamed]
  | cons o rest ih =>
    rw [operationProblems, laterNamed, List.forall_mem_cons]
    by_cases hseen : o.id ∈ seen
    · simp [hseen]
    · rw [if_neg hseen, if_neg hseen, List.append_eq_nil_iff, ih, and_left_comm]

namespace Scene

variable {scene : Scene} {position : Position} {used : OperationKind}

theorem outputProblems_eq_nil_iff {operation port : String} :
    scene.outputProblems position operation port used = [] ↔
      ∃ p declared, Dictionary.get? scene.outputPorts port = some p ∧
        p.findOperation? operation = some declared ∧ declared.kind = used := by
  rw [outputProblems]
  cases Dictionary.get? scene.outputPorts port with
  | none => simp
  | some p => cases hfound : p.findOperation? operation <;> simp [hfound]

theorem forwardProblems_eq_nil_iff {courier : Option OperationKind} {port : Option String} :
    scene.forwardProblems courier position used port = [] ↔
      courier = some used ∧
        ∀ name, port = some name → Dictionary.contains scene.outputPorts name = true := by
  cases courier <;> cases port <;> simp [forwardProblems]

end Scene

end Passing

theorem Program.declarationProblems_eq_nil_iff {types : TypeMap} {p : Program} :
    p.declarationProblems types = [] ↔
      ∀ before d after, p.declarations = before ++ d :: after →
        d.problems p.overview ((Tables.initial types).declareAll before) = [] := by
  rw [declarationProblems, List.flatMap_eq_nil_iff]
  simp only [Prod.forall, Tables.mem_inForce_iff]
  constructor
  · exact fun h before d after heq => h _ d ⟨before, after, heq, rfl⟩
  · rintro h _ d ⟨before, after, heq, rfl⟩
    exact h before d after heq

end ServiceCheck
