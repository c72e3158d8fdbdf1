import ServiceCheck.Proofs.Correlation.BareSets
import ServiceCheck.Proofs.FaultFlow.BareStatements

/-!
Positions decide nothing. They are read in one place, where the paths of correlation variables are
compared, and only behind keys that are computed; a program with such a variable is rejected
whatever the comparison says.
-/

set_option autoImplicit false

namespace ServiceCheck

open Dictionary (mapValues)

namespace Verdict

def diagnostics : Verdict → Diagnostics
  | .rejected problems => problems
  | _ => []

def Alike : Verdict → Verdict → Prop
  | .accepted v, .accepted w => v.bare = w.bare
  | .rejected _, .rejected _ | .unending, .unending => True
  | _, _ => False

end Verdict

namespace Program

variable (callerTypes : TypeMap) (config : Config) (p : Program)

theorem membersStatic_bare : p.bare.MembersStatic ↔ p.MembersStatic := by
  simp [MembersStatic, CorrelationSet.MembersStatic, CorrelationSet.bare, CorrelationVariable.bare]

theorem correlation_bare :
    (p.bare.correlation callerTypes.bare).1 = (p.correlation callerTypes).1.bare := by
  have hbindings := CorrelationSet.bindings_bare (p.allTypes callerTypes) p.requestIndex 0 []
    p.correlationSets
  simp only [correlation, CorrelationFunction.ofSets, CorrelationFunction.bare, allTypes_bare,
    requestIndex_bare, correlationSets_bare]
  exact congrArg (CorrelationFunction.mk _) hbindings

theorem problems_bare (h : p.MembersStatic) :
    (p.bare.problems callerTypes.bare config).map Diagnostic.wording =
      (p.problems callerTypes config).map Diagnostic.wording := by
  have hcorrelation : (p.bare.correlation callerTypes.bare).2.map Diagnostic.wording =
      (p.correlation callerTypes).2.map Diagnostic.wording := by
    simp only [correlation, CorrelationFunction.ofSets, allTypes_bare, requestIndex_bare,
      correlationSets_bare]
    exact CorrelationSet.bindProblems_bare _ p.nodup_listed 0 [] p.correlationSets h
  have hmain : p.bare.mainProblems config = p.mainProblems config := by
    rw [mainProblems, procedures_bare, List.any_map]
    rfl
  simp only [problems, List.map_append, declarationProblems_bare callerTypes p h,
    linkProblems_bare, typeProblems_bare, signatureProblems_bare, hcorrelation, hmain]

/-- A correlation variable whose name is computed is an error. -/
theorem membersStatic_of_not_hasErrors
    (h : Diagnostics.hasErrors (p.problems callerTypes config) = false) : p.MembersStatic := by
  have hlacks : Diagnostics.Lacks .invalidPathUsage (p.problems callerTypes config) := by
    intro d hd hkind
    have hnone := (Diagnostics.hasErrors_eq_false_iff _).mp h d hd
    rw [Diagnostic.isError, Diagnostic.severity, hkind] at hnone
    cases hnone
  have hused := (p.lacks_problems_iff_pathsWellUsed callerTypes config).mp hlacks
  exact fun set hset v hv => (v.path.isStatic_iff).mpr (hused.members set hset v hv).2

theorem hasErrors_bare :
    Diagnostics.hasErrors (p.bare.problems callerTypes.bare config) =
      Diagnostics.hasErrors (p.problems callerTypes config) := by
  by_cases h : p.MembersStatic
  · exact Diagnostics.hasErrors_congr (p.problems_bare callerTypes config h)
  · have herrors : Diagnostics.hasErrors (p.problems callerTypes config) = true := by
      by_contra hnone
      exact h (p.membersStatic_of_not_hasErrors callerTypes config (by simpa using hnone))
    rw [herrors]
    by_contra hnone
    exact h (p.membersStatic_bare.mp
      (p.bare.membersStatic_of_not_hasErrors callerTypes.bare config (by simpa using hnone)))

theorem diagnostics_verify :
    (p.verify callerTypes config).diagnostics =
      if !p.comparesForever callerTypes &&
          Diagnostics.hasErrors (p.problems callerTypes config) then
        p.problems callerTypes config
      else [] := by
  unfold verify
  by_cases hforever : p.comparesForever callerTypes <;>
    by_cases herrors : Diagnostics.hasErrors (p.problems callerTypes config) <;>
      simp [hforever, herrors, Verdict.diagnostics]

/-- Programs and callers' types that differ only in positions get the same answer, and what is said
on rejection is the same where all correlation variables are static. The analysis of faults finds
the same in both. -/
theorem verdict_of_bare_eq (callerTypes callerTypes' : TypeMap) (config : Config) (p q : Program)
    (htypes : callerTypes.bare = callerTypes'.bare) (h : p.bare = q.bare) :
    (p.verify callerTypes config).Alike (q.verify callerTypes' config) ∧
      (p.MembersStatic →
        (p.verify callerTypes config).diagnostics.map Diagnostic.wording =
          (q.verify callerTypes' config).diagnostics.map Diagnostic.wording) ∧
      p.faultReport.lines = q.faultReport.lines ∧
      p.faultReport.thrown = q.faultReport.thrown := by
  have hforever : p.comparesForever callerTypes = q.comparesForever callerTypes' := by
    rw [← comparesForever_bare, htypes, h, comparesForever_bare]
  have herrors : Diagnostics.hasErrors (p.problems callerTypes config) =
      Diagnostics.hasErrors (q.problems callerTypes' config) := by
    rw [← hasErrors_bare, htypes, h, hasErrors_bare]
  have hresult : Validated.bare ⟨(p.correlation callerTypes).1, p.executionMode, p.constants⟩ =
      Validated.bare ⟨(q.correlation callerTypes').1, q.executionMode, q.constants⟩ := by
    simp only [Validated.bare, ← correlation_bare, ← executionMode_bare p, ← constants_bare p,
      htypes, h, executionMode_bare, constants_bare]
  refine ⟨?_, fun hstatic => ?_, ?_, ?_⟩
  · unfold verify
    by_cases hends : p.comparesForever callerTypes <;>
      by_cases hvalid : Diagnostics.hasErrors (p.problems callerTypes config) <;>
        simp [hends, hvalid, ← hforever, ← herrors, hresult, Verdict.Alike]
  · have hstatic' : q.MembersStatic := by
      rwa [← membersStatic_bare, ← h, membersStatic_bare]
    have hproblems : (p.problems callerTypes config).map Diagnostic.wording =
        (q.problems callerTypes' config).map Diagnostic.wording := by
      rw [← p.problems_bare callerTypes config hstatic, htypes, h,
        q.problems_bare callerTypes' config hstatic']
    rw [diagnostics_verify, diagnostics_verify, hforever, herrors,
      apply_ite (List.map Diagnostic.wording), apply_ite (List.map Diagnostic.wording), hproblems]
  · rw [← (faultReport_bare p).1, h, (faultReport_bare q).1]
  · rw [← (faultReport_bare p).2, h, (faultReport_bare q).2]

def placed (outer inner : Position) : Program :=
  ⟨outer,
    [.type (((TypeDefinition.native "Login" .void).addSubType (.native "user" .string)).withPosition
        outer),
      .inputPort { InputPort.empty "Front" with operations := [.oneWay "login" "Login"] },
      .correlationSet ((CorrelationSet.ofMembers
        [(CorrelationVariable.ofPath ((VariablePath.ofKeys ["user"]).withPosition inner)).addAlias
          "Login" (.ofKeys ["user"])]).withPosition outer),
      .procedure ((Procedure.main (.sequence
        [.receiving "login",
          .assigning ((VariablePath.ofKeys ["seen"]).addStep
            (.read ((VariablePath.ofKeys ["user"]).withPosition inner))) (.int 1)])).withPosition
              outer)]⟩

theorem verdict_placed :
    ∃ v w, (placed ⟨"front.ol", 1⟩ ⟨"front.ol", 2⟩).verify [] .standard = .accepted v ∧
      (placed ⟨"back.ol", 3⟩ .unknown).verify [] .standard = .accepted w ∧ v.bare = w.bare := by
  have h := verdict_of_bare_eq [] [] .standard (placed ⟨"front.ol", 1⟩ ⟨"front.ol", 2⟩)
    (placed ⟨"back.ol", 3⟩ .unknown) rfl rfl
  have haccepted : ∀ p : Program, p.comparesForever [] = false →
      Diagnostics.hasErrors (p.problems [] .standard) = false →
      p.verify [] .standard = .accepted ⟨(p.correlation []).1, p.executionMode, p.constants⟩ :=
    fun p hends hvalid => verify_eq_accepted_iff.mpr ⟨hends, hvalid, rfl⟩
  have hfront := haccepted (placed ⟨"front.ol", 1⟩ ⟨"front.ol", 2⟩) (by decide +kernel)
    (by decide +kernel)
  have hback := haccepted (placed ⟨"back.ol", 3⟩ .unknown) (by decide +kernel) (by decide +kernel)
  rw [hfront, hback] at h
  exact ⟨_, _, hfront, hback, h.1⟩

def computedTwice (first second : Position) : Program :=
  let member (position : Position) := CorrelationVariable.ofPath
    ((VariablePath.ofKeys []).addStep (.read ((VariablePath.ofKeys ["key"]).withPosition position)))
  .ofDeclarations [.correlationSet (.ofMembers [member first, member second])]

-- Both are rejected. Only where the two paths are at one position is the variable repeated.
example : ((computedTwice .unknown .unknown).verify [] ⟨false⟩).diagnostics.length = 3 ∧
    ((computedTwice .unknown ⟨"front.ol", 1⟩).verify [] ⟨false⟩).diagnostics.length = 2 := by
  decide +kernel

end Program

end ServiceCheck
