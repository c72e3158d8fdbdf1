import ServiceCheck.Proofs.FaultFlow.Semantics

set_option autoImplicit false

namespace ServiceCheck

namespace Effects

def Catches (e : Effects) (name : String) : Prop := CaughtFault.anyCatches e.caught name = true

def Throws (e : Effects) (name : String) : Prop :=
  name ∈ ThrownFault.names e.thrown ∨
    ∃ faults ∈ e.openedAt .inside, name ∈ ThrownFault.names faults

def HandsUp (e : Effects) (name : String) : Prop :=
  ∃ faults ∈ e.openedAt .beside, name ∈ ThrownFault.names faults

def Leaves (e : Effects) (name : String) : Prop :=
  (e.Throws name ∧ ¬e.Catches name) ∨ e.HandsUp name

variable (e e' : Effects) (name : String)

theorem openedAt_andThen (side : Side) :
    (e.andThen e').openedAt side = e.openedAt side ++ e'.openedAt side := by
  simp [openedAt, andThen]

theorem catches_andThen : (e.andThen e').Catches name ↔ e.Catches name ∨ e'.Catches name := by
  simp only [Catches, CaughtFault.anyCatches, andThen, Bool.or_eq_true, List.contains_iff_mem,
    List.mem_append]
  exact or_or_or_comm

theorem handsUp_andThen : (e.andThen e').HandsUp name ↔ e.HandsUp name ∨ e'.HandsUp name := by
  simp only [HandsUp, openedAt_andThen, List.mem_append, or_and_right, exists_or]

theorem throws_andThen : (e.andThen e').Throws name ↔ e.Throws name ∨ e'.Throws name := by
  have hown : name ∈ ThrownFault.names (e.andThen e').thrown ↔
      name ∈ ThrownFault.names e.thrown ∨ name ∈ ThrownFault.names e'.thrown := by
    simp [andThen, ThrownFault.names]
  simp only [Throws, hown, openedAt_andThen, List.mem_append, or_and_right, exists_or]
  exact or_or_or_comm

theorem not_catches_nothing : ¬nothing.Catches name := by
  simp [Catches, nothing, CaughtFault.anyCatches]

theorem not_throws_nothing : ¬nothing.Throws name := by
  simp [Throws, nothing, openedAt, ThrownFault.names]

theorem not_handsUp_nothing : ¬nothing.HandsUp name := by simp [HandsUp, nothing, openedAt]

section All

variable {α : Type} (items : List α) (effects : α → Effects)

/-- A set of names that is empty for no effects, and the union of both for effects one after the
other, is the union over a list. -/
theorem all_iff (P : Effects → Prop) (hnothing : ¬P nothing)
    (handThen : ∀ e e', P (e.andThen e') ↔ P e ∨ P e') :
    P (all (items.map effects)) ↔ ∃ item ∈ items, P (effects item) := by
  induction items with
  | nil => simpa [all] using hnothing
  | cons item rest ih =>
    have hcons : all ((item :: rest).map effects) =
        (effects item).andThen (all (rest.map effects)) := rfl
    rw [hcons, handThen, ih]
    simp

theorem catches_all :
    (all (items.map effects)).Catches name ↔ ∃ item ∈ items, (effects item).Catches name :=
  all_iff items effects (·.Catches name) (not_catches_nothing name)
    fun e e' => catches_andThen e e' name

theorem throws_all :
    (all (items.map effects)).Throws name ↔ ∃ item ∈ items, (effects item).Throws name :=
  all_iff items effects (·.Throws name) (not_throws_nothing name)
    fun e e' => throws_andThen e e' name

theorem handsUp_all :
    (all (items.map effects)).HandsUp name ↔ ∃ item ∈ items, (effects item).HandsUp name :=
  all_iff items effects (·.HandsUp name) (not_handsUp_nothing name)
    fun e e' => handsUp_andThen e e' name

end All

theorem mem_names_passed :
    name ∈ ThrownFault.names e.passed ↔ e.Throws name ∧ ¬e.Catches name := by
  rw [passed, ThrownFault.mem_names_settled, ThrownFault.mem_names_merge]
  simp [Throws, Catches, ThrownFault.names]

theorem mem_names_passedByRoot :
    name ∈ ThrownFault.names e.passedByRoot ↔
      (e.Throws name ∨ e.HandsUp name) ∧ ¬e.Catches name := by
  have hsides : (∃ faults ∈ e.opened.map (·.2), name ∈ ThrownFault.names faults) ↔
      (∃ faults ∈ e.openedAt .inside, name ∈ ThrownFault.names faults) ∨ e.HandsUp name := by
    simp only [HandsUp, openedAt, List.mem_map, List.mem_filter, decide_eq_true_eq]
    constructor
    · intro ⟨faults, ⟨scope, hmem, heq⟩, hname⟩
      cases h : scope.1 with
      | inside => exact .inl ⟨faults, ⟨scope, ⟨hmem, h⟩, heq⟩, hname⟩
      | beside => exact .inr ⟨faults, ⟨scope, ⟨hmem, h⟩, heq⟩, hname⟩
    · intro h
      rcases h with h | h
      · obtain ⟨faults, ⟨scope, ⟨hmem, -⟩, heq⟩, hname⟩ := h
        exact ⟨faults, ⟨scope, hmem, heq⟩, hname⟩
      · obtain ⟨faults, ⟨scope, ⟨hmem, -⟩, heq⟩, hname⟩ := h
        exact ⟨faults, ⟨scope, hmem, heq⟩, hname⟩
  rw [passedByRoot, ThrownFault.mem_names_settled, ThrownFault.mem_names_merge, hsides]
  simp [Throws, Catches, ThrownFault.names, or_assoc]

theorem openedAt_within (side other : Side) :
    (e.within side).openedAt other =
      if side = other then e.passed :: e.openedAt .beside else [] := by
  unfold openedAt within
  by_cases h : side = other
  · simp [h, List.filter_map, Function.comp_def, openedAt]
  · simp [h, List.filter_map, Function.comp_def]

theorem not_catches_within (side : Side) : ¬(e.within side).Catches name :=
  not_catches_nothing name

theorem exists_openedAt_within (side : Side) :
    (∃ faults ∈ (e.within side).openedAt side, name ∈ ThrownFault.names faults) ↔
      e.Leaves name := by
  rw [openedAt_within, if_pos rfl]
  simp [Leaves, HandsUp, mem_names_passed]

theorem throws_within_inside : (e.within .inside).Throws name ↔ e.Leaves name := by
  rw [Throws, exists_openedAt_within]
  simp [within, ThrownFault.names]

theorem handsUp_within_beside : (e.within .beside).HandsUp name ↔ e.Leaves name :=
  exists_openedAt_within e name .beside

theorem not_throws_within_beside : ¬(e.within .beside).Throws name := by
  rw [Throws, openedAt_within]
  simp [within, ThrownFault.names]

theorem not_handsUp_within_inside : ¬(e.within .inside).HandsUp name := by
  simp [HandsUp, openedAt_within]

theorem catches_catching (handlers : List (String × Statement)) :
    (catching (handlers.map fun handler => FaultFlow.caughtFault handler.1)).Catches name ↔
      ∃ handler ∈ handlers, handler.1 = name ∨ handler.1 = defaultHandler := by
  simp only [Catches, CaughtFault.anyCatches, catching, Bool.or_eq_true, List.contains_iff_mem,
    List.mem_map, FaultFlow.caughtFault]
  constructor
  · intro h
    rcases h with ⟨handler, hmem, heq⟩ | ⟨handler, hmem, heq⟩
    · by_cases hdefault : handler.1 = defaultHandler
      · exact ⟨handler, hmem, .inr hdefault⟩
      · simp [hdefault] at heq
    · by_cases hdefault : handler.1 = defaultHandler
      · exact ⟨handler, hmem, .inr hdefault⟩
      · simp only [hdefault, if_false, CaughtFault.named.injEq] at heq
        exact ⟨handler, hmem, .inl heq⟩
  · intro ⟨handler, hmem, heq⟩
    by_cases hdefault : handler.1 = defaultHandler
    · exact .inl ⟨handler, hmem, if_pos hdefault⟩
    · rcases heq with hname | heq
      · exact .inr ⟨handler, hmem, by rw [if_neg hdefault, hname]⟩
      · exact absurd heq hdefault

/-- The effects have the names of the three sets of a statement. -/
structure Means (p : Program) (stack : List String) (s : Statement) : Prop where
  catches : ∀ name, e.Catches name ↔ p.Catches stack s name
  throws : ∀ name, e.Throws name ↔ p.Throws stack s name
  handsUp : ∀ name, e.HandsUp name ↔ p.HandsUp stack s name

theorem Means.leaves {e : Effects} {p : Program} {stack : List String} {s : Statement}
    (h : e.Means p stack s) (name : String) : e.Leaves name ↔ p.Leaves stack s name := by
  rw [Leaves, Program.Leaves, h.throws, h.catches, h.handsUp]

end Effects

namespace Program

open Effects

variable {p : Program} {stack : List String} {s : Statement}

theorem means_call {id : String} {q : Procedure} (hrole : s.faultRole = .calls id)
    (hq : p.callee? id = some q) (hid : id ∉ stack) {e : Effects}
    (h : e.Means p (id :: stack) q.body) : e.Means p stack s := by
  refine ⟨fun name => ?_, fun name => ?_, fun name => ?_⟩
  · rw [h.catches, @catches_iff _ stack s, hrole]
    simp [hq, hid]
  · rw [h.throws, @throws_iff _ stack s, hrole]
    simp [hq, hid]
  · rw [h.handsUp, @handsUp_iff _ stack s, hrole]
    simp [hq, hid]

theorem means_nothing {id : String} (hrole : s.faultRole = .calls id)
    (hnone : ∀ q, p.callee? id = some q → id ∈ stack) : nothing.Means p stack s := by
  have hnot : ∀ P : Procedure → Prop, ¬∃ q, p.callee? id = some q ∧ id ∉ stack ∧ P q := by
    intro P ⟨q, hq, hid, _⟩
    exact hid (hnone q hq)
  refine ⟨fun name => ?_, fun name => ?_, fun name => ?_⟩
  · rw [catches_iff, hrole]
    exact iff_of_false (not_catches_nothing name) (hnot _)
  · rw [throws_iff, hrole]
    exact iff_of_false (not_throws_nothing name) (hnot _)
  · rw [handsUp_iff, hrole]
    exact iff_of_false (not_handsUp_nothing name) (hnot _)

theorem means_throwing {faults : List ThrownFault}
    (hthrows : ∀ name, name ∈ ThrownFault.names faults ↔ p.Throws stack s name)
    (hrole : (∃ fault, s.faultRole = .throws fault) ∨
      ∃ operation port, s.faultRole = .solicits operation port) :
    (throwing faults).Means p stack s := by
  refine ⟨fun name => ?_, fun name => ?_, fun name => ?_⟩
  · rw [catches_iff]
    rcases hrole with ⟨_, hrole⟩ | ⟨_, _, hrole⟩ <;>
      simp [hrole, Effects.Catches, throwing, CaughtFault.anyCatches]
  · simp [← hthrows, Effects.Throws, throwing, openedAt]
  · rw [handsUp_iff]
    rcases hrole with ⟨_, hrole⟩ | ⟨_, _, hrole⟩ <;>
      simp [hrole, Effects.HandsUp, throwing, openedAt]

theorem means_effects {ports : Dictionary OutputPort} {calls : String → Effects}
    (hports : ∀ operation port, ThrownFault.names (FaultFlow.solicited ports operation port) =
      p.solicitedFaults operation port)
    (hcall : ∀ id t, t.faultRole = .calls id → (calls id).Means p stack t) (s : Statement) :
    (s.effects ports calls).Means p stack s := by
  induction s using Statement.inner_induction with
  | step s ih =>
    rw [Statement.effects_eq]
    cases h : s.faultRole with
    | throws fault =>
      refine means_throwing (fun name => ?_) (.inl ⟨fault, h⟩)
      rw [throws_iff, h]
      simp [ThrownFault.names]
    | solicits operation port =>
      refine means_throwing (fun name => ?_) (.inr ⟨operation, port, h⟩)
      rw [throws_iff, h, hports]
    | opens body =>
      have hbody := ih body (by simp [h, FaultRole.inner])
      refine ⟨fun name => ?_, fun name => ?_, fun name => ?_⟩
      · rw [catches_iff, h]
        exact iff_of_false (not_catches_within _ name _) id
      · rw [throws_iff, h, throws_within_inside, hbody.leaves]
      · rw [handsUp_iff, h]
        exact iff_of_false (not_handsUp_within_inside _ name) id
    | installs handlers =>
      have hhandlers : ∀ handler ∈ handlers,
          (handler.2.effects ports calls).Means p stack handler.2 := by
        intro handler hmem
        refine ih handler.2 ?_
        rw [h]
        exact List.mem_map_of_mem hmem
      refine ⟨fun name => ?_, fun name => ?_, fun name => ?_⟩
      · rw [catches_iff, h, catches_andThen, catches_catching, catches_all]
        simp only [not_catches_within, and_false, exists_false, or_false]
      · rw [throws_iff, h, throws_andThen, throws_all]
        simp only [not_throws_within_beside, and_false, exists_false, or_false]
        simp [Effects.Throws, catching, openedAt, ThrownFault.names]
      · rw [handsUp_iff, h, handsUp_andThen, handsUp_all]
        have hnone : ¬(catching (handlers.map fun handler =>
            FaultFlow.caughtFault handler.1)).HandsUp name := not_handsUp_nothing name
        simp only [hnone, false_or, handsUp_within_beside]
        exact exists_congr fun handler =>
          and_congr_right fun hmem => (hhandlers handler hmem).leaves name
    | calls procedure => exact hcall procedure s h
    | reads parts =>
      have hparts : ∀ part ∈ parts, (part.effects ports calls).Means p stack part := by
        intro part hmem
        refine ih part ?_
        rw [h]
        exact hmem
      refine ⟨fun name => ?_, fun name => ?_, fun name => ?_⟩
      · rw [catches_iff, h, catches_all]
        exact exists_congr fun part => and_congr_right fun hmem => (hparts part hmem).catches name
      · rw [throws_iff, h, throws_all]
        exact exists_congr fun part => and_congr_right fun hmem => (hparts part hmem).throws name
      · rw [handsUp_iff, h, handsUp_all]
        exact exists_congr fun part => and_congr_right fun hmem => (hparts part hmem).handsUp name

theorem get?_callable (p : Program) (id : String) :
    Dictionary.get? p.callable id = p.callee? id :=
  Dictionary.get?_foldl_setNew _ Procedure.id [] id

def enterable (p : Program) (stack : List String) : List String :=
  (Dictionary.keys p.callable).filter (· ∉ stack)

theorem mem_enterable {id : String} {q : Procedure} (hq : p.callee? id = some q)
    (hid : id ∉ stack) : id ∈ p.enterable stack :=
  Dictionary.mem_keysOutside ((get?_callable p id).trans hq) hid

theorem length_enterable_cons {id : String} (hid : id ∈ p.enterable stack) :
    (p.enterable (id :: stack)).length < (p.enterable stack).length :=
  Dictionary.length_keysOutside_cons hid

theorem means_inlineEffects {effects : List String → Statement → Effects}
    (h : ∀ id q, p.callee? id = some q → id ∉ stack →
      (effects (id :: stack) q.body).Means p (id :: stack) q.body)
    {id : String} (hrole : s.faultRole = .calls id) :
    (FaultFlow.inlineEffects p.callable effects stack id).Means p stack s := by
  unfold FaultFlow.inlineEffects
  rw [get?_callable]
  cases hq : p.callee? id with
  | none => exact means_nothing hrole (by simp [hq])
  | some q =>
    have hname : q.id = id := by simpa using List.find?_some hq
    by_cases hid : id ∈ stack
    · simp only [hname, hid, if_true]
      exact means_nothing hrole fun _ _ => hid
    · simp only [hname, hid, if_false]
      exact means_call hrole hq hid (h id q hq hid)

theorem names_solicited (p : Program) (operation port : String) :
    ThrownFault.names (FaultFlow.solicited p.firstOutputPorts operation port) =
      p.solicitedFaults operation port := by
  have hport : Dictionary.get? p.firstOutputPorts port = p.outputPorts.find? (·.id = port) :=
    Dictionary.get?_foldl_setNew _ Port.id [] port
  unfold FaultFlow.solicited solicitedFaults
  rw [hport]
  cases (p.outputPorts.find? (·.id = port)).bind (·.findOperation? operation) with
  | none => rfl
  | some o => simp [ThrownFault.names, Function.comp_def]

theorem means_effectsUpTo {budget : Nat} (hbudget : (p.enterable stack).length ≤ budget)
    (s : Statement) :
    (FaultFlow.effectsUpTo p.firstOutputPorts p.callable budget stack s).Means p stack s := by
  induction budget generalizing stack s with
  | zero =>
    refine means_effects (names_solicited p) (fun id t hrole => ?_) s
    refine means_inlineEffects (fun id q hq hid => ?_) hrole
    have hpos := List.length_pos_of_mem (mem_enterable hq hid)
    omega
  | succ budget ih =>
    refine means_effects (names_solicited p) (fun id t hrole => ?_) s
    refine means_inlineEffects (fun id q hq hid => ih ?_ q.body) hrole
    have hlt := length_enterable_cons (mem_enterable hq hid)
    omega

end Program

end ServiceCheck
