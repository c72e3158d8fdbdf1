import ServiceCheck.Proofs.Program.Regrouping
import ServiceCheck.Proofs.Verification.InForce
import ServiceCheck.Proofs.Verification.Sites

set_option autoImplicit false

namespace ServiceCheck

namespace Statement

def heading (s : Statement) : Option Position × Option String := (s.position?, s.inputOperation?)

def innerSites (s : Statement) (courier : Option OperationKind) : List Site :=
  (s.judgedParts courier).flatMap fun part => part.2.sites part.1

theorem sites_eq_cons (courier : Option OperationKind) (s : Statement) :
    s.sites courier = .statement courier s :: s.innerSites courier := s.sites_eq courier

theorem innerSites_sequence (courier : Option OperationKind) (children : List Statement) :
    (sequence children).innerSites courier = children.flatMap (sites courier) := by
  simp [innerSites, judgedParts, parts, Node.sites, List.flatMap_map]

theorem innerSites_provideUntil (courier : Option OperationKind) (position : Position)
    (provide finish : Statement) :
    (provideUntil position provide finish).innerSites courier =
      if provide.isChoice && finish.isChoice then
        provide.innerSites courier ++ finish.innerSites courier
      else provide.sites courier ++ finish.sites courier := by
  rw [innerSites, judgedParts_provideUntil]
  split
  · exact List.flatMap_append
  · simp [Node.sites]

namespace Regrouped

variable {s t : Statement}

theorem isChoice_eq (h : Regrouped s t) : s.isChoice = t.isChoice :=
  h.eq_of (fun _ _ _ _ => rfl) fun frame _ _ _ _ => by cases frame <;> rfl

theorem heading_eq (h : Regrouped s t) : s.heading = t.heading := by
  rw [heading, heading, h.position?_eq, h.inputOperation?_eq]

theorem headings_eq (h : Regrouped s t) : s.guards.map heading = t.guards.map heading := by
  refine h.eq_of (f := (·.guards.map heading)) (fun _ _ _ _ => rfl) fun frame s t hst _ => ?_
  cases frame with
  | inputGuard => simp [Frame.fill, guards, hst.heading_eq]
  | inputBody => simp [Frame.fill, guards]
  | _ => rfl

section Sites

variable {α : Type} {f : Site → List α}
  (hsequence : ∀ courier children, f (.statement courier (.sequence children)) = [])
  (hshallow : ∀ courier s t, Regrouped s t → f (.statement courier s) = f (.statement courier t))

include hsequence hshallow

/-- What reads no sequence and no grouping of a single statement reads none of the sites. -/
theorem flatMap_innerSites_eq (h : Regrouped s t) (courier : Option OperationKind) :
    (s.innerSites courier).flatMap f = (t.innerSites courier).flatMap f := by
  refine congrFun (h.eq_of (f := fun s courier => (s.innerSites courier).flatMap f) ?_ ?_) courier
  · intro before head rest after
    funext courier
    simp [innerSites_sequence, sites_eq_cons courier (sequence _), hsequence]
  · intro frame s t hst ih
    have hinner : ∀ courier, (s.innerSites courier).flatMap f = (t.innerSites courier).flatMap f :=
      congrFun ih
    have hsites : ∀ courier, (s.sites courier).flatMap f = (t.sites courier).flatMap f := by
      intro courier
      rw [sites_eq_cons, sites_eq_cons, List.flatMap_cons, List.flatMap_cons, hinner,
        hshallow courier s t hst]
    funext courier
    cases frame
    case provideSide position finish =>
      simp only [Frame.fill, innerSites_provideUntil, hst.isChoice_eq]
      split <;> simp [hinner, hsites]
    case finishSide position provide =>
      simp only [Frame.fill, innerSites_provideUntil, hst.isChoice_eq]
      split <;> simp [hinner, hsites]
    all_goals
      simp [Frame.fill, innerSites, judgedParts, parts, CourierBranch.parts, Node.sites,
        List.flatMap_map, List.flatMap_assoc, hsites]

theorem flatMap_sites_eq (h : Regrouped s t) (courier : Option OperationKind) :
    (s.sites courier).flatMap f = (t.sites courier).flatMap f := by
  rw [sites_eq_cons, sites_eq_cons, List.flatMap_cons, List.flatMap_cons,
    flatMap_innerSites_eq hsequence hshallow h, hshallow courier s t h]

end Sites

end Regrouped

end Statement

namespace Scene

variable (scene : Scene)

theorem guardProblems_congr {guards guards' : List Statement}
    (h : guards.map Statement.heading = guards'.map Statement.heading) (fallback : Position)
    (seen : List String) :
    guardProblems fallback seen guards = guardProblems fallback seen guards' := by
  induction guards generalizing guards' seen with
  | nil => rw [List.map_eq_nil_iff.mp h.symm]
  | cons guard rest ih =>
    cases guards' with
    | nil => cases h
    | cons guard' rest' =>
      obtain ⟨hguard, hrest⟩ := List.cons.inj h
      obtain ⟨hposition, hoperation⟩ := Prod.mk.inj hguard
      rw [guardProblems, guardProblems, hposition, hoperation]
      simp only [fun seen => ih hrest seen]

theorem statementProblems_eq {s t : Statement} (h : s.Regrouped t)
    (courier : Option OperationKind) :
    scene.statementProblems courier s = scene.statementProblems courier t := by
  refine h.eq_of (fun _ _ _ _ => rfl) fun frame s t hst _ => ?_
  cases frame with
  | inputGuard position before body after =>
    refine guardProblems_congr ?_ position []
    simp [hst.heading_eq]
  | inputBody position before guard after =>
    refine guardProblems_congr ?_ position []
    simp
  | provideSide position finish =>
    simp only [Frame.fill, statementProblems_provideUntil, hst.isChoice_eq]
    split
    · refine guardProblems_congr ?_ position []
      rw [List.map_append, List.map_append, hst.headings_eq]
    · rfl
  | finishSide position provide =>
    simp only [Frame.fill, statementProblems_provideUntil, hst.isChoice_eq]
    split
    · refine guardProblems_congr ?_ position []
      rw [List.map_append, List.map_append, hst.headings_eq]
    · rfl
  | _ => rfl

end Scene

theorem Site.writes_statement_eq {s t : Statement} (h : s.Regrouped t)
    (courier : Option OperationKind) :
    writes (.statement courier s) = writes (.statement courier t) :=
  h.eq_of (f := fun s => writes (.statement courier s)) (fun _ _ _ _ => rfl)
    fun frame _ _ _ _ => by cases frame <;> rfl

theorem Procedure.Regrouped.isMain_eq {p q : Procedure} (h : p.Regrouped q) :
    p.isMain = q.isMain := by
  rw [isMain, isMain, h.id]

structure Tables.Regrouped (t u : Tables) : Prop where
  types : u.types = t.types
  inputPorts : u.inputPorts = t.inputPorts
  outputPorts : u.outputPorts = t.outputPorts
  procedures : Dictionary.Alike Procedure.Regrouped t.procedures u.procedures

theorem Procedure.Regrouped.problems_eq {p q : Procedure} (h : p.Regrouped q) {t u : Tables}
    (htu : t.Regrouped u) (mode : ExecutionMode) : p.problems t mode = q.problems u mode := by
  have hfirst := htu.procedures.get? p.id
  rw [problems, problems, h.id, h.position, h.isMain_eq, shapeProblems, shapeProblems, h.position,
    h.body.isInput_first_eq]
  generalize Dictionary.get? t.procedures p.id = first at hfirst
  generalize Dictionary.get? u.procedures p.id = first' at hfirst
  cases hfirst with
  | none => rfl
  | some hfirst => simp only [hfirst.position]

namespace Declaration.Regrouped

variable {d e : Declaration} {t u : Tables}

theorem declare (h : d.Regrouped e) (htu : t.Regrouped u) :
    (t.declare d).Regrouped (u.declare e) := by
  obtain ⟨htypes, hinputPorts, houtputPorts, hprocedures⟩ := htu
  cases h with
  | refl d =>
    cases d with
    | type d =>
      exact ⟨by simp only [Tables.declare, htypes], hinputPorts, houtputPorts, hprocedures⟩
    | inputPort p =>
      exact ⟨htypes, by simp only [Tables.declare, hinputPorts], houtputPorts, hprocedures⟩
    | outputPort p =>
      exact ⟨htypes, hinputPorts, by simp only [Tables.declare, houtputPorts], hprocedures⟩
    | procedure p =>
      exact ⟨htypes, hinputPorts, houtputPorts, hprocedures.setNew p.id ⟨rfl, rfl, .refl p.body⟩⟩
    | _ => exact ⟨htypes, hinputPorts, houtputPorts, hprocedures⟩
  | @procedure p q h =>
    refine ⟨htypes, hinputPorts, houtputPorts, ?_⟩
    rw [Tables.declare, Tables.declare, h.id]
    exact hprocedures.setNew p.id h
  | courier => exact ⟨htypes, hinputPorts, houtputPorts, hprocedures⟩

theorem flatMap_sites_eq {α : Type} {f : Site → List α} (h : d.Regrouped e)
    (hsequence : ∀ courier children, f (.statement courier (.sequence children)) = [])
    (hshallow : ∀ courier s t, Statement.Regrouped s t →
      f (.statement courier s) = f (.statement courier t)) :
    d.sites.flatMap f = e.sites.flatMap f := by
  cases h with
  | refl => rfl
  | procedure h => exact h.body.flatMap_sites_eq hsequence hshallow none
  | courier _ _ h => exact h.flatMap_sites_eq hsequence hshallow none

theorem writes_eq (h : d.Regrouped e) : d.writes = e.writes := by
  have hsites := h.flatMap_sites_eq (f := Site.writes) (fun _ _ => rfl)
    fun courier _ _ hst => Site.writes_statement_eq hst courier
  cases h with
  | refl => rfl
  | procedure => exact hsites
  | courier => exact hsites

theorem headProblems_eq (h : d.Regrouped e) (htu : t.Regrouped u) (overview : Overview) :
    d.headProblems overview t = e.headProblems overview u := by
  cases h with
  | refl d =>
    cases d with
    | inputPort p =>
      simp only [headProblems, InputPort.problems, htu.types, htu.inputPorts, htu.outputPorts]
    | outputPort p => simp only [headProblems, Port.outputProblems, htu.types, htu.outputPorts]
    | procedure p => exact Procedure.Regrouped.problems_eq ⟨rfl, rfl, .refl p.body⟩ htu _
    | courier c => simp only [headProblems, htu.inputPorts]
    | _ => rfl
  | procedure h => exact h.problems_eq htu _
  | courier => simp only [headProblems, htu.inputPorts]

theorem scene_eq (h : d.Regrouped e) (htu : t.Regrouped u) (overview : Overview) :
    d.scene overview t = e.scene overview u := by
  have hinitial : d.isInitial = e.isInitial := by
    cases h with
    | procedure h => simp only [isInitial, Procedure.isInitial, h.id]
    | _ => rfl
  rw [scene, scene, htu.outputPorts, hinitial]

theorem problems_eq (h : d.Regrouped e) (htu : t.Regrouped u) (overview : Overview) :
    d.problems overview t = e.problems overview u := by
  have hsites := h.flatMap_sites_eq (f := (d.scene overview t).problems) (fun _ _ => rfl)
    fun courier _ _ hst => Scene.statementProblems_eq _ hst courier
  rw [problems, problems, h.headProblems_eq htu, hsites, h.scene_eq htu]

end Declaration.Regrouped

namespace Program.Regrouped

variable {p q : Program}

theorem procedures_map_eq {α : Type} (h : p.Regrouped q) {f : Procedure → α}
    (hf : ∀ p q, p.Regrouped q → f p = f q) : p.procedures.map f = q.procedures.map f := by
  rw [← List.forall₂_eq_eq_eq, List.forall₂_map_left_iff, List.forall₂_map_right_iff]
  exact List.Forall₂.imp hf h.procedures_regrouped

theorem overview_eq (h : p.Regrouped q) : p.overview = q.overview := by
  rw [overview, overview, h.executionMode_eq, h.procedures_map_eq fun _ _ hpq => hpq.id.symm]

theorem constants_eq (h : p.Regrouped q) : p.constants = q.constants := by
  have hwrites : p.declarations.flatMap Declaration.writes =
      q.declarations.flatMap Declaration.writes := by
    rw [List.flatMap_def, List.flatMap_def, h.map_eq fun _ _ hde => hde.writes_eq]
  rw [constants, constants, hwrites]

theorem allTypes_eq (h : p.Regrouped q) (callerTypes : TypeMap) :
    p.allTypes callerTypes = q.allTypes callerTypes := by
  rw [allTypes, allTypes, Tables.types_declareAll, Tables.types_declareAll,
    h.filterMap_eq (f := Declaration.type?) fun _ _ hde => by cases hde <;> rfl]

theorem declarationProblems_eq (h : p.Regrouped q) (types : TypeMap) :
    p.declarationProblems types = q.declarationProblems types := by
  have hdeclared : ∀ {ds es : List Declaration} {t u : Tables}, t.Regrouped u →
      List.Forall₂ Declaration.Regrouped ds es →
        (Tables.inForce t ds).flatMap (fun entry => entry.2.problems p.overview entry.1) =
          (Tables.inForce u es).flatMap fun entry => entry.2.problems p.overview entry.1 := by
    intro ds es t u htu hall
    induction hall generalizing t u with
    | nil => rfl
    | cons hde _ ih =>
      rw [Tables.inForce, Tables.inForce, List.flatMap_cons, List.flatMap_cons,
        hde.problems_eq htu, ih (hde.declare htu)]
  rw [declarationProblems, declarationProblems, ← h.overview_eq]
  exact hdeclared ⟨rfl, rfl, rfl, rfl, fun _ => .none⟩ h

/-- The verdict is the same, with the same diagnostics in the same order. -/
theorem verify_eq (h : p.Regrouped q) (callerTypes : TypeMap) (config : Config) :
    p.verify callerTypes config = q.verify callerTypes config := by
  have hmain : p.procedures.any (·.isMain) = q.procedures.any (·.isMain) := by
    have hmap := congrArg (List.any · id) (h.procedures_map_eq fun _ _ hpq => hpq.isMain_eq)
    rw [List.any_map, List.any_map] at hmap
    exact hmap
  simp only [verify, comparesForever, problems, linkProblems, links, typeProblems,
    typeComparisons, laterTypes, signatureProblems, signatureComparisons, firstOperations,
    laterOperations, exposedOperations, correlation, requestIndex, mainProblems, h.types_eq,
    h.allTypes_eq, h.inputPorts_eq, h.correlationSets_eq, h.executionMode_eq, h.constants_eq,
    h.declarationProblems_eq, hmain]

end Program.Regrouped

end ServiceCheck
