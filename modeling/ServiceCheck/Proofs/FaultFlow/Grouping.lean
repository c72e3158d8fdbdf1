import ServiceCheck.FaultFlow.Report
import ServiceCheck.Program.Construction
import ServiceCheck.Proofs.FaultFlow.Reading
import ServiceCheck.Proofs.Verification.Grouping

set_option autoImplicit false

namespace ServiceCheck

namespace FaultFlow

variable (ports : Dictionary OutputPort)

theorem visit_regrouped {s t : Statement} (h : s.Regrouped t) (call : CallRule) (current : Nat)
    (w : FaultFlow) : visit ports call current s w = visit ports call current t w := by
  refine congrFun (congrFun (h.eq_of (f := fun s current w => visit ports call current s w)
    ?_ ?_) current) w
  · intro before head rest after
    funext current w
    simp only [visit, visitChildren_eq, List.foldl_append, List.foldl_cons]
  · intro frame s t _ ih
    have hvisit : ∀ current w, visit ports call current s w = visit ports call current t w :=
      fun current w => congrFun (congrFun ih current) w
    funext current w
    cases frame <;>
      simp only [Frame.fill, visit, visitChildren_eq, visitInputBranches_eq,
        visitConditionalBranches_eq, visitOtherwise_eq, visitHandlers_eq, hvisit,
        List.flatMap_append, List.flatMap_cons, List.map_append, List.map_cons,
        List.foldl_append, List.foldl_cons, Option.toList_some]

end FaultFlow

namespace Program.Regrouped

variable {p q : Program}

theorem callable_regrouped (h : p.Regrouped q) :
    Dictionary.Alike Procedure.Regrouped p.callable q.callable := by
  refine Dictionary.Alike.foldl_setNew (fun _ _ hpq => hpq.id.symm) ⟨rfl, fun _ => .none⟩ ?_
  refine List.rel_filter (fun _ _ hpq => ?_) h.procedures_regrouped
  simp only [hpq.isMain_eq]

theorem mainProcedure_regrouped (h : p.Regrouped q) :
    Option.Rel Procedure.Regrouped (p.procedures.find? (·.isMain))
      (q.procedures.find? (·.isMain)) := by
  have hprocedures := h.procedures_regrouped
  generalize p.procedures = ps at hprocedures
  generalize q.procedures = qs at hprocedures
  induction hprocedures with
  | nil => exact .none
  | @cons x y _ _ hxy _ ih =>
    rw [List.find?_cons, List.find?_cons, hxy.isMain_eq]
    cases y.isMain
    · exact ih
    · exact .some hxy

theorem readMain_eq (h : p.Regrouped q) (current : Nat) {s t : Statement} (hst : s.Regrouped t)
    (w : FaultFlow) : p.readMain current s w = q.readMain current t w := by
  have hports : p.firstOutputPorts = q.firstOutputPorts := by
    rw [firstOutputPorts, firstOutputPorts, h.outputPorts_eq]
  have hcallable : Dictionary.Alike (fun p q => p.id = q.id ∧ p.body.Regrouped q.body) p.callable
      q.callable := h.callable_regrouped.imp fun _ _ hpq => ⟨hpq.id.symm, hpq.body⟩
  rw [readMain, readMain, hports, hcallable.length_eq]
  exact FaultFlow.readUpTo_congr hcallable
    (fun call _ _ hst current w => FaultFlow.visit_regrouped _ hst call current w) _ [] current
    hst w

theorem readBranches_eq (h : p.Regrouped q) {branches branches' : List (Statement × Statement)}
    (hbranches : List.Forall₂ (fun b b' => b.1.Regrouped b'.1 ∧ b.2.Regrouped b'.2) branches
      branches') (trees : List ServedTree) (w : FaultFlow) :
    p.readBranches trees branches w = q.readBranches trees branches' w := by
  induction hbranches generalizing trees w with
  | nil => rfl
  | @cons b b' _ _ hb _ ih =>
    obtain ⟨hguard, hbody⟩ := hb
    have hreadGuard := fun current w => h.readMain_eq current hguard w
    have hreadBody := fun current w => h.readMain_eq current hbody w
    simp only [readBranches, hguard.inputOperation?_eq, hreadGuard, hreadBody, ih]

/-- A choice stays a choice and a request-response one, so that the same operations are served. -/
theorem readBody_eq (h : p.Regrouped q) {s t : Statement} (hst : s.Regrouped t) :
    p.readBody s = q.readBody t := by
  have hsame : ∀ branches : List (Statement × Statement),
      List.Forall₂ (fun b b' : Statement × Statement => b.1.Regrouped b'.1 ∧ b.2.Regrouped b'.2)
        branches branches := fun branches =>
    List.forall₂_same.mpr fun b _ => ⟨.refl b.1, .refl b.2⟩
  have hbody : p.readBody t = q.readBody t := by
    have hmain := h.readMain_eq 0 (.refl t) (FaultFlow.start.update .addRoot)
    cases t with
    | inputChoice position branches => exact h.readBranches_eq (hsame branches) [] .start
    | _ => exact congrArg (Prod.mk _) hmain
  rw [← hbody]
  refine hst.eq_of (f := p.readBody) ?_ ?_
  · intro before head rest after
    exact congrArg (Prod.mk _)
      ((refl p).readMain_eq 0 (.splice before head rest after) (FaultFlow.start.update .addRoot))
  · intro frame s t hst _
    have hmain := (refl p).readMain_eq 0 (.within frame hst) (FaultFlow.start.update .addRoot)
    cases frame with
    | inputGuard position before body after =>
      exact (refl p).readBranches_eq
        (List.rel_append (hsame before) (.cons ⟨hst, .refl body⟩ (hsame after))) [] .start
    | inputBody position before guard after =>
      exact (refl p).readBranches_eq
        (List.rel_append (hsame before) (.cons ⟨.refl guard, hst⟩ (hsame after))) [] .start
    | _ => exact congrArg (Prod.mk _) hmain

theorem faultReport_eq (h : p.Regrouped q) : p.faultReport = q.faultReport := by
  have hmain := h.mainProcedure_regrouped
  rw [faultReport, faultReport]
  generalize p.procedures.find? (·.isMain) = main at hmain
  generalize q.procedures.find? (·.isMain) = main' at hmain
  cases hmain with
  | none => rfl
  | some hmain =>
    simp only [operationFindings, servedOperation?, h.inputPorts_eq, h.readBody_eq hmain.body]

/-- Sequencing is associative: programs that differ only in how the sequences of their bodies are
grouped have the same verdict and the same fault report. -/
theorem verify_and_faultReport_eq (h : p.Regrouped q) (callerTypes : TypeMap) (config : Config) :
    p.verify callerTypes config = q.verify callerTypes config ∧ p.faultReport = q.faultReport :=
  ⟨h.verify_eq callerTypes config, h.faultReport_eq⟩

end Program.Regrouped

namespace Program

def orderShop (process : Statement) : Program :=
  .ofDeclarations
    [.execution (.ofMode .concurrent),
      .inputPort { InputPort.empty "In" with
        operations := [(Operation.requestResponse "order" "string" "string").addFault "Sold"
          "string"] },
      .procedure (.main (Statement.choosing.addBranch (.answering "order" process) .nullprocess))]

def nestedProcess : Statement :=
  .sequence [.sequence [.throwing "Late", .throwing "Sold"], .throwing "Lost"]

def plainProcess : Statement :=
  .sequence [.throwing "Late", .throwing "Sold", .throwing "Lost"]

theorem verify_and_faultReport_eq_orderShop :
    (orderShop nestedProcess).Regrouped (orderShop plainProcess) ∧
      (orderShop nestedProcess).verify .natives ⟨true⟩ =
        (orderShop plainProcess).verify .natives ⟨true⟩ ∧
      (orderShop nestedProcess).faultReport = (orderShop plainProcess).faultReport ∧
      (orderShop plainProcess).faultReport.thrown = [("order", ["Late", "Sold", "Lost"])] := by
  have hprocess : nestedProcess.Regrouped plainProcess :=
    .splice [] (.throwing "Late") [.throwing "Sold"] [.throwing "Lost"]
  have hmain := Statement.Regrouped.within (.inputGuard .unknown [] .nullprocess [])
    (.within (.process .unknown "order" none none) hprocess)
  have hregrouped : (orderShop nestedProcess).Regrouped (orderShop plainProcess) :=
    .single .unknown [_, _] [] (.procedure ⟨rfl, rfl, hmain⟩)
  obtain ⟨hverify, hreport⟩ := hregrouped.verify_and_faultReport_eq .natives ⟨true⟩
  exact ⟨hregrouped, hverify, hreport, by decide +kernel⟩

end Program

end ServiceCheck
