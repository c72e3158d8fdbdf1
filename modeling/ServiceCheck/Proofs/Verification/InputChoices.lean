import Mathlib.Data.Finset.Card
import Mathlib.Data.Finset.Dedup
import Mathlib.Data.List.Basic
import ServiceCheck.Program.Construction
import ServiceCheck.Proofs.Verification.Ending
import ServiceCheck.Proofs.Verification.InForce
import ServiceCheck.Proofs.Verification.JudgedNodes
import ServiceCheck.Proofs.Verification.Kinds
import ServiceCheck.Proofs.Verification.Registration

set_option autoImplicit false

namespace ServiceCheck

namespace Statement

def received (guards : List Statement) : List String := guards.filterMap inputOperation?

/-- The guards that are no inputs, and the inputs of an operation that is received before. -/
def guardFaults (guards : List Statement) : Nat :=
  guards.countP (·.inputOperation?.isNone) +
    ((received guards).length - (received guards).toFinset.card)

structure DistinctInputs (guards : List Statement) : Prop where
  isInput : ∀ guard ∈ guards, guard.inputOperation?.isSome
  nodup : (received guards).Nodup

theorem DistinctInputs.sublist {guards part : List Statement} (h : DistinctInputs guards)
    (hpart : part.Sublist guards) : DistinctInputs part where
  isInput guard hguard := h.isInput guard (hpart.subset hguard)
  nodup := h.nodup.sublist (hpart.filterMap _)

theorem guardFaults_eq_zero_iff (guards : List Statement) :
    guardFaults guards = 0 ↔ DistinctInputs guards := by
  have hcard : (received guards).length - (received guards).toFinset.card = 0 ↔
      (received guards).Nodup := by
    rw [List.card_toFinset, Nat.sub_eq_zero_iff_le, ← List.dedup_eq_self]
    constructor
    · exact fun hle => (List.dedup_sublist _).eq_of_length_le hle
    · exact fun heq => by rw [heq]
  have hinputs : guards.countP (·.inputOperation?.isNone) = 0 ↔
      ∀ guard ∈ guards, guard.inputOperation?.isSome := by
    simp [List.countP_eq_zero, Option.isSome_iff_ne_none]
  rw [guardFaults, Nat.add_eq_zero_iff, hcard, hinputs]
  exact ⟨fun ⟨hinput, hnodup⟩ => ⟨hinput, hnodup⟩, fun h => ⟨h.isInput, h.nodup⟩⟩

end Statement

open Diagnostics
open Statement (received guardFaults DistinctInputs)

namespace Scene

variable {position : Position}

/-- What is reported are guards that are no inputs, and operations that are seen before. -/
theorem length_guardProblems_eq (seen : List String) (guards : List Statement) :
    (guardProblems position seen guards).length =
      guards.countP (·.inputOperation?.isNone) +
        (laterNamed id seen (received guards)).length := by
  induction guards generalizing seen with
  | nil => rfl
  | cons guard rest ih =>
    cases hinput : guard.inputOperation? with
    | none =>
      have hreceived : received (guard :: rest) = received rest := List.filterMap_cons_none hinput
      simp only [guardProblems, hinput, hreceived, List.length_cons, List.countP_cons, ih,
        Option.isNone_none, if_true]
      omega
    | some operation =>
      have hreceived : received (guard :: rest) = operation :: received rest :=
        List.filterMap_cons_some hinput
      simp only [guardProblems, hinput, hreceived, laterNamed, id_eq, List.countP_cons,
        Option.isNone_some, Bool.false_eq_true, if_false, Nat.add_zero]
      split
      · rw [List.length_cons, List.length_cons, ih, Nat.add_assoc]
      · exact ih (operation :: seen)

theorem length_guardProblems (guards : List Statement) :
    (guardProblems position [] guards).length = guardFaults guards := by
  have hlater := @length_laterNamed_add_card String id [] (received guards)
  rw [List.map_id, List.toFinset_nil, Finset.sdiff_empty] at hlater
  rw [length_guardProblems_eq, guardFaults]
  omega

end Scene

namespace Node

def choiceProblems : Node → Diagnostics
  | .statement (.inputChoice position branches) =>
    Scene.guardProblems position [] (branches.map (·.1))
  | .statement (.provideUntil position provide finish) =>
    if provide.isChoice && finish.isChoice then
      Scene.guardProblems position [] (provide.guards ++ finish.guards)
    else
      [.report .invalidInputChoice position "both sides of provide-until must be input choices"]
  | _ => []

def choiceGuards? : Node → Option (List Statement)
  | .statement (.inputChoice _ branches) => some (branches.map (·.1))
  | _ => none

def jointGuards? : Node → Option (List Statement)
  | .statement (.provideUntil _ provide finish) =>
    if provide.isChoice && finish.isChoice then some (provide.guards ++ finish.guards) else none
  | _ => none

def isUnpaired : Node → Bool
  | .statement (.provideUntil _ provide finish) => !(provide.isChoice && finish.isChoice)
  | _ => false

theorem length_choiceProblems (x : Node) :
    x.choiceProblems.length =
      x.choiceGuards?.elim 0 guardFaults + x.jointGuards?.elim 0 guardFaults +
        x.isUnpaired.toNat := by
  cases x
  case statement s =>
    cases s
    case inputChoice => exact Scene.length_guardProblems _
    case provideUntil position provide finish =>
      simp only [choiceProblems, choiceGuards?, jointGuards?, isUnpaired]
      cases provide.isChoice && finish.isChoice
      · rfl
      · simp [Scene.length_guardProblems]
    all_goals rfl
  all_goals rfl

theorem choiceProblems_of_ne_statement {x : Node} (hx : ∀ s, x ≠ .statement s) :
    x.choiceProblems = [] := by
  cases x <;> first | rfl | exact absurd rfl (hx _)

end Node

theorem Scene.ofKinds_choice_problems (scene : Scene) (site : Site) :
    ofKinds [.invalidInputChoice] (scene.problems site) = site.node.choiceProblems := by
  cases site with
  | path p => exact (within_pathProblems p).ofKinds_eq_nil (by decide)
  | statement courier s =>
    have hwithin : Within (statementKinds s) (scene.statementProblems courier s) :=
      within_statementProblems s
    cases s
    case inputChoice => exact hwithin.ofKinds_eq_self (by simp [statementKinds])
    case provideUntil =>
      refine (hwithin.ofKinds_eq_self (by simp [statementKinds])).trans ?_
      exact statementProblems_provideUntil ..
    all_goals exact hwithin.ofKinds_eq_nil (by simp [statementKinds])

namespace Program

variable (p : Program)

/-- The input choices that are no side of a provide-until of two choices, each with its guards. -/
def loneChoices : List (List Statement) :=
  ((Node.program p).writtenIn none).filterMap fun e =>
    if e.2.isSide e.1 then none else e.2.choiceGuards?

/-- The provide-untils of two choices, each with the guards of both. -/
def jointChoices : List (List Statement) := (Node.program p).written.filterMap Node.jointGuards?

def unpairedUntils : Nat := (Node.program p).written.countP Node.isUnpaired

def choiceFaults : Nat :=
  (p.loneChoices.map guardFaults).sum + (p.jointChoices.map guardFaults).sum + p.unpairedUntils

theorem ofKinds_choice_problems (callerTypes : TypeMap) (config : Config) :
    ofKinds [.invalidInputChoice] (p.problems callerTypes config) =
      ((Node.program p).writtenIn none).flatMap (Node.unlessSide Node.choiceProblems) := by
  have hdeclaration : ∀ (t : Tables) (d : Declaration),
      ofKinds [.invalidInputChoice] (d.problems p.overview t) =
        d.sites.flatMap (·.node.choiceProblems) := by
    intro t d
    have hhead : ∀ k ∈ d.headKinds, k ∉ [DiagnosticKind.invalidInputChoice] := by
      cases d <;> simp [Declaration.headKinds]
    rw [ofKinds_siteProblems p.overview t d hhead]
    exact List.flatMap_congr fun site _ => Scene.ofKinds_choice_problems _ site
  rw [← p.flatMap_sites fun _ => Node.choiceProblems_of_ne_statement,
    ofKinds_problems _ _ _ (by decide), declarationProblems, ofKinds_flatMap]
  conv_rhs => rw [← Tables.map_snd_inForce (.initial callerTypes) p.declarations]
  rw [List.flatMap_map]
  exact List.flatMap_congr fun e _ => hdeclaration e.1 e.2

theorem length_unlessSide_choiceProblems (e : Option Node × Node) :
    (Node.unlessSide Node.choiceProblems e).length =
      (if e.2.isSide e.1 then none else e.2.choiceGuards?).elim 0 guardFaults +
        e.2.jointGuards?.elim 0 guardFaults + e.2.isUnpaired.toNat := by
  obtain ⟨whole, x⟩ := e
  rw [Node.unlessSide]
  by_cases hside : x.isSide whole
  · rw [if_pos hside, if_pos hside]
    cases x <;> simp only [Node.isSide, Bool.false_eq_true, Bool.and_eq_true] at hside
    obtain ⟨position, branches, rfl⟩ := (Statement.isChoice_iff _).mp hside.1
    rfl
  · rw [if_neg hside, if_neg hside]
    exact x.length_choiceProblems

theorem length_flatMap_choiceProblems (written : List (Option Node × Node)) :
    (written.flatMap (Node.unlessSide Node.choiceProblems)).length =
      ((written.filterMap fun e =>
          if e.2.isSide e.1 then none else e.2.choiceGuards?).map guardFaults).sum +
        (((written.map (·.2)).filterMap Node.jointGuards?).map guardFaults).sum +
        (written.map (·.2)).countP Node.isUnpaired := by
  have hstep : ∀ {α : Type} (guards? : α → Option (List Statement)) (x : α) (rest : List α),
      (((x :: rest).filterMap guards?).map guardFaults).sum =
        (guards? x).elim 0 guardFaults + ((rest.filterMap guards?).map guardFaults).sum := by
    intro α guards? x rest
    cases h : guards? x <;> simp [h]
  have hcount : ∀ (x : Node) (rest : List Node),
      (x :: rest).countP Node.isUnpaired = x.isUnpaired.toNat + rest.countP Node.isUnpaired := by
    intro x rest
    cases h : x.isUnpaired <;> simp [h, Nat.add_comm]
  induction written with
  | nil => rfl
  | cons e rest ih =>
    rw [List.flatMap_cons, List.length_append, ih, length_unlessSide_choiceProblems, hstep,
      List.map_cons, hstep, hcount]
    omega

theorem count_choice_problems (callerTypes : TypeMap) (config : Config) :
    count .invalidInputChoice (p.problems callerTypes config) = p.choiceFaults := by
  rw [count_eq_length_ofKinds, ofKinds_choice_problems, length_flatMap_choiceProblems,
    Node.map_snd_writtenIn]
  rfl

section NoFaults

variable {p}

theorem mem_jointChoices {position : Position} {provide finish : Statement}
    (h : Node.statement (.provideUntil position provide finish) ∈ (Node.program p).written)
    (hsides : provide.isChoice && finish.isChoice) :
    provide.guards ++ finish.guards ∈ p.jointChoices :=
  List.mem_filterMap.mpr ⟨_, h, if_pos hsides⟩

/-- The guards of a choice stand alone or as a part of those of a provide-until. -/
theorem exists_guards_of_mem_written {position : Position}
    {branches : List (Statement × Statement)}
    (h : Node.statement (.inputChoice position branches) ∈ (Node.program p).written) :
    ∃ guards, (guards ∈ p.loneChoices ∨ guards ∈ p.jointChoices) ∧
      (branches.map (·.1)).Sublist guards := by
  rw [← Node.map_snd_writtenIn none] at h
  obtain ⟨⟨whole, x⟩, he, rfl⟩ := List.mem_map.mp h
  by_cases hside : (Node.statement (.inputChoice position branches)).isSide whole
  · obtain heq | ⟨y, hy, rfl, hpart⟩ := Node.mem_parts_of_mem_writtenIn he
    · cases heq
    · have hjoins : y.joinsChoices := hside
      cases y <;> simp only [Node.joinsChoices, Bool.false_eq_true] at hjoins
      rename_i s
      cases s <;> simp only [Bool.false_eq_true] at hjoins
      rename_i position' provide finish
      refine ⟨_, .inr (mem_jointChoices hy hjoins), ?_⟩
      rcases List.mem_cons.mp hpart with heq | hpart
      · cases heq
        exact List.sublist_append_left ..
      · cases List.mem_singleton.mp hpart
        exact List.sublist_append_right ..
  · exact ⟨_, .inl (List.mem_filterMap.mpr ⟨_, he, if_neg hside⟩), .refl _⟩

theorem distinctInputs_of_choiceFaults (h : p.choiceFaults = 0) :
    (∀ position branches,
      Node.statement (.inputChoice position branches) ∈ (Node.program p).written →
        DistinctInputs (branches.map (·.1))) ∧
    ∀ position provide finish,
      Node.statement (.provideUntil position provide finish) ∈ (Node.program p).written →
        provide.isChoice ∧ finish.isChoice ∧ DistinctInputs (provide.guards ++ finish.guards) := by
  obtain ⟨h, hunpaired⟩ := Nat.add_eq_zero_iff.mp h
  obtain ⟨hlone, hjoint⟩ := Nat.add_eq_zero_iff.mp h
  have hguards : ∀ {choices : List (List Statement)}, (choices.map guardFaults).sum = 0 →
      ∀ guards ∈ choices, DistinctInputs guards := fun hsum guards hmem =>
    (Statement.guardFaults_eq_zero_iff guards).mp
      (List.sum_eq_zero_iff.mp hsum _ (List.mem_map_of_mem hmem))
  constructor
  · intro position branches hwritten
    obtain ⟨guards, hmem, hsub⟩ := exists_guards_of_mem_written hwritten
    exact (hmem.elim (hguards hlone guards) (hguards hjoint guards)).sublist hsub
  · intro position provide finish hwritten
    have hpaired := List.countP_eq_zero.mp hunpaired _ hwritten
    have hsides : provide.isChoice && finish.isChoice := by simpa [Node.isUnpaired] using hpaired
    obtain ⟨hprovide, hfinish⟩ := Bool.and_eq_true_iff.mp hsides
    exact ⟨hprovide, hfinish, hguards hjoint _ (mem_jointChoices hwritten hsides)⟩

end NoFaults

/-- Every fault in the branches of a choice is reported once, those of the sides of a provide-until
with it. In an accepted program the guards of a choice, and those of a provide-until, are inputs of
pairwise distinct operations. -/
theorem input_choices_counted (callerTypes : TypeMap) (config : Config) (p : Program) :
    count .invalidInputChoice (p.problems callerTypes config) =
        (p.loneChoices.map guardFaults).sum + (p.jointChoices.map guardFaults).sum +
          p.unpairedUntils ∧
      match p.verify callerTypes config with
      | .accepted _ =>
        (∀ position branches,
          Node.statement (.inputChoice position branches) ∈ (Node.program p).written →
            DistinctInputs (branches.map (·.1))) ∧
        ∀ position provide finish,
          Node.statement (.provideUntil position provide finish) ∈ (Node.program p).written →
            provide.isChoice ∧ finish.isChoice ∧ DistinctInputs (provide.guards ++ finish.guards)
      | .rejected problems =>
        count .invalidInputChoice problems =
          (p.loneChoices.map guardFaults).sum + (p.jointChoices.map guardFaults).sum +
            p.unpairedUntils
      | .unending => p.comparesForever callerTypes = true := by
  have hcount := p.count_choice_problems callerTypes config
  refine ⟨hcount, ?_⟩
  cases hverdict : p.verify callerTypes config with
  | accepted v =>
    rw [problems_eq_nil_of_accepted hverdict] at hcount
    exact distinctInputs_of_choiceFaults hcount.symm
  | rejected problems =>
    obtain rfl := problems_of_rejected hverdict
    exact hcount
  | unending => exact (verify_eq_unending_iff ..).mp hverdict

def sharedInput : Program :=
  .ofDeclarations
    [.procedure (.main (.provideUntil .unknown
      (Statement.choosing.addBranch (.receiving "put")
        (Statement.choosing.addBranch .exit .nullprocess))
      (Statement.choosing.addBranch (.receiving "put") .nullprocess)))]

example : count .invalidInputChoice (sharedInput.problems [] .standard) = 2 := by
  decide +kernel

end Program

end ServiceCheck
