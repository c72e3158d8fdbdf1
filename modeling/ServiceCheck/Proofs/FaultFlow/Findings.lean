import ServiceCheck.Proofs.FaultFlow.Isolation
import ServiceCheck.Proofs.Verification.Agreement

/-!
The findings for an operation, put together of the names that it declares and the faults that
escape it. Nothing is said of declared faults where nothing escapes, so that an operation without
findings either lets nothing through or lets through exactly what it declares.
-/

set_option autoImplicit false

namespace ServiceCheck

namespace ThrownFault

theorem nodup_names_add {faults : List ThrownFault} (h : (names faults).Nodup)
    (fault : ThrownFault) : (names (add faults fault)).Nodup := by
  by_cases hany : faults.any (·.name = fault.name)
  · rwa [add, if_pos hany]
  · have hnew : fault.name ∉ names faults := by simpa [names] using hany
    have happend : names (faults ++ [fault]) = names faults ++ [fault.name] := by simp [names]
    rw [add, if_neg hany, happend, List.nodup_append]
    refine ⟨h, by simp, fun name hname other hother heq => hnew ?_⟩
    rw [← List.mem_singleton.mp hother, ← heq]
    exact hname

theorem nodup_names_merge {faults : List ThrownFault} (h : (names faults).Nodup)
    (others : List ThrownFault) : (names (merge faults others)).Nodup := by
  induction others generalizing faults with
  | nil => exact h
  | cons fault rest ih => exact ih (nodup_names_add h fault)

theorem nodup_names_settled {own : List ThrownFault} (h : (names own).Nodup)
    (caught : List CaughtFault) (children : List (List ThrownFault)) :
    (names (settled own caught children)).Nodup := by
  have hmerged : (names (children.foldl merge own)).Nodup := by
    induction children generalizing own with
    | nil => exact h
    | cons faults rest ih => exact ih (nodup_names_merge h faults)
  exact hmerged.sublist (List.filter_sublist.map _)

end ThrownFault

/-- What there is to say of a fault: declared and never thrown, or thrown and not declared. -/
inductive FaultFinding where
  | unthrown (name : String)
  | undeclared (fault : ThrownFault)
deriving DecidableEq

namespace FaultFinding

def compared (declared : List String) (thrown : List ThrownFault) : List FaultFinding :=
  ((declared.filter fun name => thrown ≠ [] ∧ name ∉ ThrownFault.names thrown).map .unthrown) ++
    (thrown.filter fun fault => fault.name ∉ declared).map .undeclared

def kind : FaultFinding → DiagnosticKind
  | .unthrown _ => .unthrownFault
  | .undeclared _ => .undeclaredFault

def sentence (operation : String) : FaultFinding → String
  | .unthrown name =>
    "fault " ++ name ++ " is never thrown by operation " ++ operation ++
      " even if it is declared in the interface"
  | .undeclared ⟨name, none⟩ =>
    "fault " ++ name ++ " could be thrown inside operation " ++ operation ++
      " but it is not declared in the interface"
  | .undeclared ⟨name, some origin⟩ =>
    "fault " ++ name ++ " could be thrown inside operation " ++ operation ++ " raised by " ++
      origin ++ " but it is not declared in the interface"

def diagnostic (declaration : Operation) (operation : String) (f : FaultFinding) : Diagnostic :=
  ⟨f.kind, if declaration.position.isKnown then some declaration.position else none,
    f.sentence operation, [], []⟩

variable {declared : List String} {thrown : List ThrownFault}

theorem nodup_compared (hdeclared : declared.Nodup) (hthrown : (ThrownFault.names thrown).Nodup) :
    (compared declared thrown).Nodup := by
  rw [compared, List.nodup_append]
  refine ⟨?_, ?_, ?_⟩
  · exact (hdeclared.filter _).map fun _ _ heq => FaultFinding.unthrown.inj heq
  · exact (hthrown.of_map.filter _).map fun _ _ heq => FaultFinding.undeclared.inj heq
  · intro first hfirst second hsecond heq
    obtain ⟨name, -, rfl⟩ := List.mem_map.mp hfirst
    obtain ⟨fault, -, rfl⟩ := List.mem_map.mp hsecond
    cases heq

theorem compared_eq_nil_iff : compared declared thrown = [] ↔
    thrown = [] ∨ ∀ name, name ∈ ThrownFault.names thrown ↔ name ∈ declared := by
  have hsplit : compared declared thrown = [] ↔
      (∀ name ∈ declared, thrown ≠ [] → name ∈ ThrownFault.names thrown) ∧
        ∀ name ∈ ThrownFault.names thrown, name ∈ declared := by
    simp [compared, ThrownFault.names, List.filter_eq_nil_iff]
  rw [hsplit]
  by_cases hnone : thrown = []
  · simp [hnone, ThrownFault.names]
  · simp only [hnone, false_or, ne_eq, not_false_eq_true, forall_const]
    constructor
    · intro h name
      exact ⟨h.2 name, h.1 name⟩
    · intro hsame
      exact ⟨fun name => (hsame name).mpr, fun name => (hsame name).mp⟩

end FaultFinding

namespace Program

def analysed (p : Program) : List String :=
  ((p.procedures.find? (·.isMain)).map (·.body.servedOperations)).getD []

/-- What the first operation of this name at the input ports declares, if that one has a reply. -/
def declaration? (p : Program) (operation : String) : Option Operation :=
  ((p.inputPorts.flatMap (·.allOperations)).find? (·.id = operation)).filter (·.reply.isSome)

theorem servedOperation?_eq (p : Program) (operation : String) :
    p.servedOperation? operation = p.declaration? operation := by
  rw [servedOperation?, declaration?, List.find?_flatMap]
  rfl

theorem unthrownProblems_eq (o : Operation) (operation : String) (thrown : List ThrownFault) :
    unthrownProblems o operation thrown =
      ((Dictionary.keys o.faults).filter fun name =>
        thrown ≠ [] ∧ name ∉ ThrownFault.names thrown).map fun name =>
          (FaultFinding.unthrown name).diagnostic o operation := by
  have hsentence : ∀ name, Diagnostic.report .unthrownFault o.position
      ("fault " ++ name ++ " is never thrown by operation " ++ operation ++
        " even if it is declared in the interface") =
      (FaultFinding.unthrown name).diagnostic o operation := by
    intro name
    simp [Diagnostic.report, Diagnostic.detail, Diagnostic.located, Diagnostic.unlocated,
      DiagnosticKind.message, DiagnosticKind.template, Template.fill, FaultFinding.diagnostic,
      FaultFinding.sentence, FaultFinding.kind]
  have hthrown : ∀ name, (thrown.any (·.name = name)) =
      decide (name ∈ ThrownFault.names thrown) := by
    intro name
    rw [Bool.eq_iff_iff]
    simp [ThrownFault.names]
  unfold unthrownProblems
  by_cases hnone : thrown = []
  · simp [hnone]
  · simp [hnone, hsentence, hthrown]

theorem undeclaredProblems_eq (o : Operation) (operation : String) (thrown : List ThrownFault) :
    undeclaredProblems o operation thrown =
      (thrown.filter fun fault => fault.name ∉ Dictionary.keys o.faults).map fun fault =>
        (FaultFinding.undeclared fault).diagnostic o operation := by
  have hsentence : ∀ fault : ThrownFault, Diagnostic.report .undeclaredFault o.position
      ("fault " ++ fault.name ++ " could be thrown inside operation " ++ operation ++
        (fault.origin.map (" raised by " ++ ·)).getD "" ++
        " but it is not declared in the interface") =
      (FaultFinding.undeclared fault).diagnostic o operation := by
    intro fault
    obtain ⟨name, origin⟩ := fault
    cases origin <;>
      simp [Diagnostic.report, Diagnostic.detail, Diagnostic.located, Diagnostic.unlocated,
        DiagnosticKind.message, DiagnosticKind.template, Template.fill, FaultFinding.diagnostic,
        FaultFinding.sentence, FaultFinding.kind, String.append_assoc]
  have hcontains : ∀ name, Dictionary.contains o.faults name =
      decide (name ∈ Dictionary.keys o.faults) := by
    intro name
    rw [Bool.eq_iff_iff, decide_eq_true_iff, ← Dictionary.get?_isSome_iff]
    rfl
  simp [undeclaredProblems, hsentence, hcontains]

theorem operationFindings_eq (p : Program) (operation : String) (thrown : List ThrownFault) :
    p.operationFindings operation thrown =
      (p.declaration? operation).toList.flatMap fun o =>
        (FaultFinding.compared (Dictionary.keys o.faults) thrown).map
          (·.diagnostic o operation) := by
  rw [operationFindings, servedOperation?_eq]
  cases p.declaration? operation with
  | none => rfl
  | some o =>
    simp only [unthrownProblems_eq, undeclaredProblems_eq, Option.toList_some,
      List.flatMap_singleton, FaultFinding.compared, List.map_append, List.map_map]
    rfl

theorem faultReport_of_analysed (p : Program) :
    p.faultReport.thrown = (p.analysed.map fun operation =>
      (operation, ThrownFault.names (p.escapingFrom operation))) ∧
    p.faultReport.diagnostics = p.analysed.flatMap fun operation =>
      p.operationFindings operation (p.escapingFrom operation) := by
  cases hmain : p.procedures.find? (·.isMain) with
  | none => simp [analysed, faultReport, hmain]
  | some main =>
    have hanalysed : p.analysed = main.body.servedOperations := by
      rw [analysed, hmain, Option.map_some, Option.getD_some]
    rw [hanalysed]
    exact faultReport_of_main hmain

theorem nodup_names_escapingFrom (p : Program) (operation : String) :
    (ThrownFault.names (p.escapingFrom operation)).Nodup := by
  rw [escapingFrom]
  cases p.servedBranch? operation with
  | none => simp [ThrownFault.names]
  | some parts =>
    have hnone : (ThrownFault.names []).Nodup := List.nodup_nil
    exact ThrownFault.nodup_names_settled (ThrownFault.nodup_names_merge hnone _) _ _

theorem nodup_declared {p : Program} (hkeys : p.DistinctKeys) {operation : String} {o : Operation}
    (h : p.declaration? operation = some o) : (Dictionary.keys o.faults).Nodup := by
  obtain ⟨hfirst, -⟩ := Option.filter_eq_some_iff.mp h
  exact of_decide_eq_true (hkeys _ (contains_of_exposed (List.mem_of_find?_eq_some hfirst)))

/-- The report goes through the analysed operations in order. Where the first declaration of an
operation has a reply, its declared names are compared with the faults that escape, each name
once. All findings are warnings, and there are none exactly where every such operation lets
nothing through or what it declares. -/
theorem findings_of_analysed (p : Program) :
    p.faultReport.thrown = (p.analysed.map fun operation =>
      (operation, ThrownFault.names (p.escapingFrom operation))) ∧
    p.faultReport.diagnostics = (p.analysed.flatMap fun operation =>
      (p.declaration? operation).toList.flatMap fun o =>
        (FaultFinding.compared (Dictionary.keys o.faults) (p.escapingFrom operation)).map
          (·.diagnostic o operation)) ∧
    (p.DistinctKeys → ∀ operation o, p.declaration? operation = some o →
      (FaultFinding.compared (Dictionary.keys o.faults) (p.escapingFrom operation)).Nodup) ∧
    (∀ d ∈ p.faultReport.diagnostics, d.severity = .warning) ∧
    (p.faultReport.diagnostics = [] ↔
      ∀ operation ∈ p.analysed, ∀ o, p.declaration? operation = some o →
        p.escapingFrom operation = [] ∨ ∀ name,
          name ∈ ThrownFault.names (p.escapingFrom operation) ↔
            name ∈ Dictionary.keys o.faults) := by
  obtain ⟨hthrown, hdiagnostics⟩ := p.faultReport_of_analysed
  simp only [operationFindings_eq] at hdiagnostics
  refine ⟨hthrown, hdiagnostics, fun hkeys operation o h => ?_, fun d hd => ?_, ?_⟩
  · exact FaultFinding.nodup_compared (nodup_declared hkeys h)
      (p.nodup_names_escapingFrom operation)
  · rw [hdiagnostics] at hd
    obtain ⟨operation, -, hd⟩ := List.mem_flatMap.mp hd
    obtain ⟨o, -, hd⟩ := List.mem_flatMap.mp hd
    obtain ⟨finding, -, rfl⟩ := List.mem_map.mp hd
    cases finding <;> rfl
  · simp only [hdiagnostics, List.flatMap_eq_nil_iff, List.map_eq_nil_iff, Option.mem_toList,
      FaultFinding.compared_eq_nil_iff]

def ticketDesk : Program :=
  .ofDeclarations
    [.inputPort { InputPort.empty "Front" with
        operations := [.oneWay "ask" "string"]
        interfaces := [(Interface.empty "Sales").addOperation
          (((Operation.requestResponse "sell" "string" "string").addFault "SoldOut"
            "string").addFault "Closed" "string")] },
      .inputPort { InputPort.empty "Back" with
        operations := [.requestResponse "ask" "string" "string",
          .requestResponse "sell" "string" "string"] },
      .outputPort { Port.empty "Bank" with
        operations := [(Operation.requestResponse "pay" "string" "string").addFault "Declined"
          "string"] },
      .procedure (.main (.inputChoice .unknown
        [(.answering "sell" (.soliciting "pay" "Bank"), .throwing "Closed"),
          (.nullprocess, .throwing "Lost"), (.answering "ask" (.throwing "Odd"), .nullprocess),
          (.answering "sell" .nullprocess, .throwing "Unread")]))]

theorem findings_ticketDesk :
    ticketDesk.DistinctKeys ∧
      (ticketDesk.analysed.map fun operation =>
        (operation, ThrownFault.names (ticketDesk.escapingFrom operation))) =
          [("sell", ["Closed", "Declined"]), ("ask", ["Odd"])] ∧
      (∀ o, ticketDesk.declaration? "sell" = some o →
        (FaultFinding.compared (Dictionary.keys o.faults)
          (ticketDesk.escapingFrom "sell")).Nodup) ∧
      ticketDesk.faultReport.diagnostics.map (·.message) =
        ["fault SoldOut is never thrown by operation sell even if it is declared in the interface",
          "fault Declined could be thrown inside operation sell raised by pay@Bank but it is " ++
            "not declared in the interface"] := by
  have hkeys : ticketDesk.DistinctKeys := .of_allAbove 6 (by decide +kernel)
  obtain ⟨hthrown, -, hnodup, -⟩ := findings_of_analysed ticketDesk
  exact ⟨hkeys, hthrown.symm.trans (by decide +kernel), hnodup hkeys "sell", by decide +kernel⟩

end Program

end ServiceCheck
