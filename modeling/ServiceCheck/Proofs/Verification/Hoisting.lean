import Mathlib.Data.List.Perm.Basic
import ServiceCheck.Program.Construction
import ServiceCheck.Proofs.Verification.Constants
import ServiceCheck.Proofs.Verification.InForce
import ServiceCheck.Proofs.Verification.Kinds

/-!
Declarations brought into the order of their uses: types, output ports, input ports, then the rest.
Each kind keeps its own order, so that all that is collected from one kind stays the same. Of other
kinds a declaration only sees more than before, and the checks that passed pass again.
-/

set_option autoImplicit false

namespace ServiceCheck

namespace Declaration

def stage : Declaration → Nat
  | .type _ => 0
  | .outputPort _ => 1
  | .inputPort _ => 2
  | _ => 3

theorem stage_lt (d : Declaration) : d.stage < 4 := by
  cases d <;> simp [stage]

def staged (stages : Nat) (ds : List Declaration) : List Declaration :=
  (List.range stages).flatMap fun stage => ds.filter (·.stage = stage)

section Staged

variable (stages : Nat) (ds : List Declaration)

theorem staged_succ :
    staged (stages + 1) ds = staged stages ds ++ ds.filter (·.stage = stages) := by
  rw [staged, List.range_succ, List.flatMap_append, List.flatMap_singleton]
  rfl

theorem mem_staged_iff (d : Declaration) : d ∈ staged stages ds ↔ d ∈ ds ∧ d.stage < stages := by
  simp [staged, and_comm]

theorem filter_staged (stage : Nat) :
    (staged stages ds).filter (·.stage = stage) =
      if stage < stages then ds.filter (·.stage = stage) else [] := by
  induction stages with
  | zero => rfl
  | succ stages ih =>
    have hlast : (ds.filter (·.stage = stages)).filter (·.stage = stage) =
        if stage = stages then ds.filter (·.stage = stage) else [] := by
      split
      · simp [*]
      · simp only [List.filter_eq_nil_iff, List.mem_filter, decide_eq_true_eq]
        grind
    rw [staged_succ, List.filter_append, ih, hlast]
    rcases Nat.lt_trichotomy stage stages with hlt | rfl | hgt
    · simp [hlt, Nat.lt_succ_of_lt hlt, Nat.ne_of_lt hlt]
    · simp
    · simp [Nat.not_lt_of_gt hgt, Nat.ne_of_gt hgt, Nat.not_lt.mpr hgt]

theorem staged_perm : (staged stages ds).Perm (ds.filter (·.stage < stages)) := by
  induction stages with
  | zero => simp [staged]
  | succ stages ih =>
    have hsplit := List.filter_append_perm (fun d : Declaration => d.stage < stages)
      (ds.filter (·.stage < stages + 1))
    have hbelow : (ds.filter (·.stage < stages + 1)).filter (·.stage < stages) =
        ds.filter (·.stage < stages) := by
      rw [List.filter_filter]
      exact List.filter_congr fun d _ => by grind
    have hlast : (ds.filter (·.stage < stages + 1)).filter (fun d => !decide (d.stage < stages)) =
        ds.filter (·.stage = stages) := by
      rw [List.filter_filter]
      exact List.filter_congr fun d _ => by grind
    rw [hbelow, hlast] at hsplit
    rw [staged_succ]
    exact (ih.append_right _).trans hsplit

theorem pairwise_staged : (staged stages ds).Pairwise (·.stage ≤ ·.stage) := by
  induction stages with
  | zero => exact .nil
  | succ stages ih =>
    have hlast : (ds.filter (·.stage = stages)).Pairwise (·.stage ≤ ·.stage) :=
      List.pairwise_of_forall_mem_list fun a ha b hb => by grind
    rw [staged_succ, List.pairwise_append]
    refine ⟨ih, hlast, fun a ha b hb => ?_⟩
    have hbelow := ((mem_staged_iff stages ds a).mp ha).2
    have hstage : b.stage = stages := of_decide_eq_true (List.mem_filter.mp hb).2
    omega

end Staged

/-- Types, then output ports, then input ports, then the rest, each in the order they had. -/
def hoist (ds : List Declaration) : List Declaration := staged 4 ds

section Hoist

variable {ds before' after' : List Declaration} {d : Declaration} {β : Type} {stage : Nat}
  {pick : Declaration → Option β}

theorem hoist_perm (ds : List Declaration) : (hoist ds).Perm ds := by
  have hall : ds.filter (·.stage < 4) = ds :=
    List.filter_eq_self.mpr fun d _ => decide_eq_true d.stage_lt
  have hperm := staged_perm 4 ds
  rwa [hall] at hperm

def OfStage (stage : Nat) (pick : Declaration → Option β) : Prop :=
  ∀ d, d.stage ≠ stage → pick d = none

theorem ofStage_type? : OfStage 0 type? := fun d hd => by
  cases d <;> first | rfl | exact absurd rfl hd

theorem ofStage_outputPort? : OfStage 1 outputPort? := fun d hd => by
  cases d <;> first | rfl | exact absurd rfl hd

theorem ofStage_inputPort? : OfStage 2 inputPort? := fun d hd => by
  cases d <;> first | rfl | exact absurd rfl hd

theorem ofStage_procedure? : OfStage 3 procedure? := fun d hd => by
  cases d <;> first | rfl | exact absurd rfl hd

theorem OfStage.filterMap_filter (h : OfStage stage pick) (ds : List Declaration) :
    (ds.filter (·.stage = stage)).filterMap pick = ds.filterMap pick := by
  rw [List.filterMap_filter]
  refine congrArg (List.filterMap · ds) (funext fun d => ?_)
  by_cases hd : d.stage = stage
  · simp [hd]
  · simp [hd, h d hd]

theorem OfStage.filterMap_hoist (h : OfStage stage pick) (hstage : stage < 4) :
    (hoist ds).filterMap pick = ds.filterMap pick := by
  rw [← h.filterMap_filter (hoist ds), hoist, filter_staged, if_pos hstage, h.filterMap_filter]

/-- Where a declaration stood before. Of its own stage the same were ahead of it; of the stages
below, all are now. -/
theorem exists_split (h : hoist ds = before' ++ d :: after') :
    ∃ before after, ds = before ++ d :: after ∧
      before.filter (·.stage = d.stage) = before'.filter (·.stage = d.stage) ∧
      ∀ stage < d.stage, before'.filter (·.stage = stage) = ds.filter (·.stage = stage) := by
  have hstages : ∀ stage < 4,
      ds.filter (·.stage = stage) = (before' ++ d :: after').filter (·.stage = stage) := by
    intro stage hstage
    rw [← h, hoist, filter_staged, if_pos hstage]
  have hown := hstages d.stage d.stage_lt
  rw [List.filter_append, List.filter_cons_of_pos (by simp)] at hown
  obtain ⟨front, back, rfl, hfront, hback⟩ := List.filter_eq_append_iff.mp hown
  -- what stands between the last of its stage and the declaration itself is of other stages
  obtain ⟨skipped, after, rfl, hskipped, -, -⟩ := List.filter_eq_cons_iff.mp hback
  refine ⟨front ++ skipped, after, (List.append_assoc ..).symm, ?_, fun stage hstage => ?_⟩
  · rw [List.filter_append, hfront, List.filter_eq_nil_iff.mpr hskipped, List.append_nil]
  · have hsorted := pairwise_staged 4 (front ++ (skipped ++ d :: after))
    rw [← hoist, h, List.pairwise_append, List.pairwise_cons] at hsorted
    have hnone : (d :: after').filter (·.stage = stage) = [] := by
      simp only [List.filter_eq_nil_iff, List.forall_mem_cons, decide_eq_true_eq]
      refine ⟨by omega, fun other hother => ?_⟩
      have hle := hsorted.2.1.1 other hother
      omega
    rw [hstages stage (by have := d.stage_lt; omega), List.filter_append, hnone, List.append_nil]

end Hoist

end Declaration

namespace Tables

/-- The tables show a declaration all that others show it, and of its own kind nothing else. -/
structure Covers (d : Declaration) (t t' : Tables) : Prop where
  types : ∀ name, Dictionary.contains t.types name = true → Dictionary.contains t'.types name = true
  outputPorts : 1 ≤ d.stage → ∀ name port, Dictionary.get? t.outputPorts name = some port →
    Dictionary.get? t'.outputPorts name = some port
  inputPorts : 2 ≤ d.stage → ∀ name port, Dictionary.get? t.inputPorts name = some port →
    Dictionary.get? t'.inputPorts name = some port
  sameOutputPorts : d.stage = 1 → t'.outputPorts = t.outputPorts
  sameInputPorts : d.stage = 2 → t'.inputPorts = t.inputPorts
  sameProcedures : d.stage = 3 → t'.procedures = t.procedures

open Declaration

theorem exists_covers {ds before' after' : List Declaration} {d : Declaration}
    (h : hoist ds = before' ++ d :: after') (t : Tables) :
    ∃ before after, ds = before ++ d :: after ∧
      Covers d (t.declareAll before) (t.declareAll before') := by
  obtain ⟨before, after, rfl, hown, hbelow⟩ := exists_split h
  refine ⟨before, after, rfl, ?_⟩
  have hsame : ∀ {β} {pick : Declaration → Option β}, OfStage d.stage pick →
      before.filterMap pick = before'.filterMap pick := by
    intro β pick hpick
    rw [← hpick.filterMap_filter, hown, hpick.filterMap_filter]
  -- of the stages below all are ahead now, so that what was declared first is first again
  have hearlier : ∀ {β} {stage} {pick : Declaration → Option β}, OfStage stage pick →
      stage ≤ d.stage → before.filterMap pick <+: before'.filterMap pick := by
    intro β stage pick hpick hle
    rcases Nat.eq_or_lt_of_le hle with rfl | hlt
    · exact ⟨[], by rw [List.append_nil, hsame hpick]⟩
    · rw [← hpick.filterMap_filter before', hbelow stage hlt, hpick.filterMap_filter]
      exact (List.prefix_append ..).filterMap _
  exact {
    types := fun name hname => by
      rw [types_declareAll] at hname ⊢
      exact Dictionary.contains_foldl_setNew_mono (hearlier ofStage_type? (Nat.zero_le _)) hname
    outputPorts := fun hstage name port hport => by
      rw [outputPorts_declareAll] at hport ⊢
      exact Dictionary.get?_foldl_setNew_mono (hearlier ofStage_outputPort? hstage) hport
    inputPorts := fun hstage name port hport => by
      rw [inputPorts_declareAll] at hport ⊢
      exact Dictionary.get?_foldl_setNew_mono (hearlier ofStage_inputPort? hstage) hport
    sameOutputPorts := fun hstage => by
      rw [outputPorts_declareAll, outputPorts_declareAll, hsame (hstage ▸ ofStage_outputPort?)]
    sameInputPorts := fun hstage => by
      rw [inputPorts_declareAll, inputPorts_declareAll, hsame (hstage ▸ ofStage_inputPort?)]
    sameProcedures := fun hstage => by
      rw [procedures_declareAll, procedures_declareAll, hsame (hstage ▸ ofStage_procedure?)] }

end Tables

/-- A site that is in order stays so where more ports are known. -/
theorem Scene.problems_eq_nil_mono {scene scene' : Scene}
    (hnames : scene'.procedureNames = scene.procedureNames)
    (hinitial : scene'.insideInitial = scene.insideInitial)
    (hports : ∀ name port, Dictionary.get? scene.outputPorts name = some port →
      Dictionary.get? scene'.outputPorts name = some port) {site : Site}
    (h : scene.problems site = []) : scene'.problems site = [] := by
  obtain ⟨names, ports, initial⟩ := scene
  obtain ⟨names', ports', initial'⟩ := scene'
  obtain rfl : names' = names := hnames
  obtain rfl : initial' = initial := hinitial
  cases site with
  | path p => exact h
  | statement courier s =>
    cases s
    case notification | solicitResponse =>
      obtain ⟨p, declared, hport, hdeclared⟩ := outputProblems_eq_nil_iff.mp h
      exact outputProblems_eq_nil_iff.mpr ⟨p, declared, hports _ p hport, hdeclared⟩
    case notificationForward | solicitResponseForward =>
      obtain ⟨hcourier, hknown⟩ := forwardProblems_eq_nil_iff.mp h
      refine forwardProblems_eq_nil_iff.mpr ⟨hcourier, fun name hname => ?_⟩
      obtain ⟨port, hport⟩ := Option.isSome_iff_exists.mp (hknown name hname)
      exact Option.isSome_iff_exists.mpr ⟨port, hports name port hport⟩
    case provideUntil position provide finish =>
      change Scene.statementProblems _ _ _ = [] at h ⊢
      unfold statementProblems at h ⊢
      split <;> simp_all
    all_goals exact h

namespace Declaration

variable {overview : Overview} {d : Declaration} {t t' : Tables}

theorem stage_of_mem_sites {site : Site} (h : site ∈ d.sites) : d.stage = 3 := by
  cases d <;> first | rfl | cases h

theorem headProblems_eq_nil_of_covers (h : d.headProblems overview t = [])
    (hcovers : Tables.Covers d t t') : d.headProblems overview t' = [] := by
  have hoperation : ∀ o : Operation, o.problems t.types = [] → o.problems t'.types = [] := by
    intro o ho
    rw [Operation.problems_eq_nil_iff] at ho ⊢
    exact fun u hu => hcovers.types u.id (ho u hu)
  cases d with
  | inputPort p =>
    obtain ⟨hfront, haggregated⟩ := List.append_eq_nil_iff.mp h
    obtain ⟨hnew, hoperations⟩ := List.append_eq_nil_iff.mp hfront
    obtain ⟨hdistinct, hchecked⟩ := InputPort.operationProblems_eq_nil_iff.mp hoperations
    refine List.append_eq_nil_iff.mpr ⟨List.append_eq_nil_iff.mpr ⟨?_, ?_⟩, ?_⟩
    · rwa [hcovers.sameInputPorts rfl]
    · exact InputPort.operationProblems_eq_nil_iff.mpr
        ⟨hdistinct, fun o ho => hoperation o (hchecked o ho)⟩
    · simp only [InputPort.aggregationProblems, List.map_eq_nil_iff,
        List.filter_eq_nil_iff, Bool.not_eq_true', Bool.not_eq_false] at haggregated ⊢
      intro name hname
      obtain ⟨port, hport⟩ := Option.isSome_iff_exists.mp (haggregated name hname)
      have hkept := hcovers.outputPorts (by simp [stage]) name port hport
      exact Option.isSome_iff_exists.mpr ⟨port, hkept⟩
  | outputPort p =>
    obtain ⟨hnew, hoperations⟩ := List.append_eq_nil_iff.mp h
    refine List.append_eq_nil_iff.mpr ⟨?_, ?_⟩
    · rwa [hcovers.sameOutputPorts rfl]
    · rw [List.flatMap_eq_nil_iff] at hoperations ⊢
      exact fun o ho => hoperation o (hoperations o ho)
  | procedure p =>
    rwa [headProblems, Procedure.problems, hcovers.sameProcedures rfl]
  | courier c =>
    have hknown : Dictionary.contains t.inputPorts c.inputPort = true := by
      simpa [headProblems] using h
    obtain ⟨port, hport⟩ := Option.isSome_iff_exists.mp hknown
    have hkept := hcovers.inputPorts (by simp [stage]) _ port hport
    simp [headProblems, Dictionary.contains, hkept]
  | _ => exact h

theorem problems_eq_nil_of_covers (h : d.problems overview t = [])
    (hcovers : Tables.Covers d t t') : d.problems overview t' = [] := by
  obtain ⟨hhead, hsites⟩ := List.append_eq_nil_iff.mp h
  refine List.append_eq_nil_iff.mpr ⟨headProblems_eq_nil_of_covers hhead hcovers, ?_⟩
  rw [List.flatMap_eq_nil_iff] at hsites ⊢
  intro site hsite
  have hstage := stage_of_mem_sites hsite
  have hports := hcovers.outputPorts (by omega)
  exact @Scene.problems_eq_nil_mono (d.scene overview t) (d.scene overview t') rfl rfl hports site
    (hsites site hsite)

end Declaration

namespace Program

open Declaration

def hoisted (p : Program) : Program := { p with declarations := hoist p.declarations }

section Collected

variable (p : Program) (callerTypes : TypeMap)

theorem types_hoisted : p.hoisted.types = p.types := ofStage_type?.filterMap_hoist (by decide)

theorem inputPorts_hoisted : p.hoisted.inputPorts = p.inputPorts :=
  ofStage_inputPort?.filterMap_hoist (by decide)

theorem procedures_hoisted : p.hoisted.procedures = p.procedures :=
  ofStage_procedure?.filterMap_hoist (by decide)

theorem correlationSets_hoisted : p.hoisted.correlationSets = p.correlationSets := by
  refine (?_ : OfStage 3 _).filterMap_hoist (by decide)
  intro d hd
  cases d <;> first | rfl | exact absurd rfl hd

theorem executionMode_hoisted : p.hoisted.executionMode = p.executionMode := by
  refine congrArg (fun modes : List ExecutionMode => modes.getLast?.getD .single)
    ((?_ : OfStage 3 _).filterMap_hoist (by decide))
  intro d hd
  cases d <;> first | rfl | exact absurd rfl hd

theorem allTypes_hoisted : p.hoisted.allTypes callerTypes = p.allTypes callerTypes := by
  rw [allTypes, allTypes, Tables.types_declareAll, Tables.types_declareAll, hoisted,
    ofStage_type?.filterMap_hoist (by decide)]

theorem overview_hoisted : p.hoisted.overview = p.overview := by
  rw [overview, overview, procedures_hoisted, executionMode_hoisted]

theorem exposedOperations_hoisted : p.hoisted.exposedOperations = p.exposedOperations := by
  rw [exposedOperations, exposedOperations, inputPorts_hoisted]

theorem typeComparisons_hoisted :
    p.hoisted.typeComparisons callerTypes = p.typeComparisons callerTypes := by
  rw [typeComparisons, typeComparisons, laterTypes, laterTypes, allTypes_hoisted, types_hoisted]

theorem signatureComparisons_hoisted :
    p.hoisted.signatureComparisons callerTypes = p.signatureComparisons callerTypes := by
  rw [signatureComparisons, signatureComparisons, laterOperations, laterOperations,
    firstOperations, firstOperations, allTypes_hoisted, exposedOperations_hoisted]

theorem correlation_hoisted : p.hoisted.correlation callerTypes = p.correlation callerTypes := by
  rw [correlation, correlation, requestIndex, requestIndex, firstOperations, firstOperations,
    allTypes_hoisted, exposedOperations_hoisted, correlationSets_hoisted]

theorem comparesForever_hoisted :
    p.hoisted.comparesForever callerTypes = p.comparesForever callerTypes := by
  rw [comparesForever, comparesForever, typeComparisons_hoisted, signatureComparisons_hoisted]

end Collected

variable {callerTypes : TypeMap} {p : Program}

theorem declarationProblems_hoisted (h : p.declarationProblems callerTypes = []) :
    p.hoisted.declarationProblems callerTypes = [] := by
  rw [declarationProblems_eq_nil_iff] at h ⊢
  intro before' d after' heq
  obtain ⟨before, after, hsplit, hcovers⟩ := Tables.exists_covers heq (.initial callerTypes)
  rw [overview_hoisted]
  exact problems_eq_nil_of_covers (h before d after hsplit) hcovers

theorem problems_hoisted {config : Config} (h : p.problems callerTypes config = []) :
    p.hoisted.problems callerTypes config = [] := by
  obtain ⟨hdeclarations, hlinks, htypes, hsignatures, hcorrelation, hmain⟩ :=
    problems_eq_nil_iff.mp h
  refine problems_eq_nil_iff.mpr
    ⟨declarationProblems_hoisted hdeclarations, ?_, ?_, ?_, ?_, ?_⟩
  · rwa [linkProblems, links, allTypes_hoisted, types_hoisted]
  · rwa [typeProblems, typeComparisons_hoisted]
  · rwa [signatureProblems, signatureComparisons_hoisted]
  · rwa [correlation_hoisted]
  · rwa [mainProblems, procedures_hoisted]

/-- Writes are counted, so that their order does not matter. -/
theorem get?_constants_hoisted (p : Program) (name : String) :
    Dictionary.get? p.hoisted.constants name = Dictionary.get? p.constants name := by
  have hperm : (p.hoisted.declarations.flatMap Declaration.writes).Perm
      (p.declarations.flatMap Declaration.writes) :=
    (hoist_perm p.declarations).flatMap_right _
  rw [get?_constants, get?_constants, hperm.count_eq]
  simp only [hperm.mem_iff]

/-- Hoisting keeps an accepted program accepted, with the same correlation function, the same mode
and the same constant variables. -/
theorem hoisted_accepted (callerTypes : TypeMap) (config : Config) (p : Program) (v : Validated)
    (h : p.verify callerTypes config = .accepted v) :
    ∃ v', p.hoisted.verify callerTypes config = .accepted v' ∧ v'.correlation = v.correlation ∧
      v'.mode = v.mode ∧
      ∀ name, Dictionary.get? v'.constants name = Dictionary.get? v.constants name := by
  obtain ⟨hends, hnone, rfl⟩ := accepted_iff_no_problems.mp h
  refine ⟨_, accepted_iff_no_problems.mpr ⟨?_, ?_, rfl⟩, ?_, ?_, ?_⟩
  · rw [comparesForever_hoisted, hends]
  · exact problems_hoisted hnone
  · exact congrArg Prod.fst (p.correlation_hoisted callerTypes)
  · exact p.executionMode_hoisted
  · exact get?_constants_hoisted p

def frontDesk : Program :=
  .ofDeclarations
    [.procedure (.named "reset" (.assigning (.ofKeys ["guests"]) (.literal (.int 0)))),
      .type ((TypeDefinition.native "Login" .void).addSubType (.native "user" .string)),
      .inputPort { InputPort.empty "Front" with operations := [.oneWay "login" "Login"] },
      .correlationSet (.ofMembers
        [(CorrelationVariable.ofPath (.ofKeys ["user"])).addAlias "Login" (.ofKeys ["user"])]),
      .type (.native "Note" .string),
      .outputPort { Port.empty "Back" with operations := [.oneWay "note" "Note"] },
      .execution (.ofMode .concurrent),
      .procedure (.main (.sequence
        [.receiving "login", .notifying "note" "Back", .calling "reset",
          .assigning (.ofKeys ["guests"]) (.literal (.int 1))]))]

theorem hoisted_frontDesk :
    ∃ v v', frontDesk.verify [] .standard = .accepted v ∧
      frontDesk.hoisted.verify [] .standard = .accepted v' ∧
      v'.correlation = v.correlation ∧ v.correlation.setId? "login" = some 0 ∧
      v'.mode = .concurrent ∧
      Dictionary.get? v'.constants "Back" = some true ∧
      Dictionary.get? v'.constants "guests" = some false := by
  have haccepted : frontDesk.verify [] .standard =
      .accepted ⟨(frontDesk.correlation []).1, frontDesk.executionMode, frontDesk.constants⟩ :=
    verify_eq_accepted_iff.mpr ⟨by decide +kernel, by decide +kernel, rfl⟩
  obtain ⟨v', hhoisted, hcorrelation, hmode, hconstants⟩ :=
    hoisted_accepted [] .standard frontDesk _ haccepted
  refine ⟨_, v', haccepted, hhoisted, hcorrelation, ?_, hmode.trans rfl, ?_, ?_⟩
  · decide +kernel
  · rw [hconstants]
    decide +kernel
  · rw [hconstants]
    decide +kernel

end Program

end ServiceCheck
