import ServiceCheck.Proofs.FaultFlow.Effects
import ServiceCheck.Proofs.Program.AlikeDictionaries

set_option autoImplicit false

namespace ServiceCheck

namespace FaultFlow

variable (ports : Dictionary OutputPort) (call : CallRule)

theorem visitChildren_eq (current : Nat) (children : List Statement) (w : FaultFlow) :
    visitChildren ports call current children w =
      children.foldl (fun w t => visit ports call current t w) w := by
  induction children generalizing w with
  | nil => rfl
  | cons s rest ih => exact ih _

theorem visitInputBranches_eq (current : Nat) (branches : List (Statement × Statement))
    (w : FaultFlow) :
    visitInputBranches ports call current branches w =
      (branches.flatMap fun branch => [branch.1, branch.2]).foldl
        (fun w t => visit ports call current t w) w := by
  induction branches generalizing w with
  | nil => rfl
  | cons branch rest ih => exact ih _

theorem visitConditionalBranches_eq (current : Nat) (branches : List (Expression × Statement))
    (w : FaultFlow) :
    visitConditionalBranches ports call current branches w =
      (branches.map (·.2)).foldl (fun w t => visit ports call current t w) w := by
  induction branches generalizing w with
  | nil => rfl
  | cons branch rest ih => exact ih _

theorem visitOtherwise_eq (current : Nat) (otherwise : Option Statement) (w : FaultFlow) :
    visitOtherwise ports call current otherwise w =
      otherwise.toList.foldl (fun w t => visit ports call current t w) w := by
  cases otherwise <;> rfl

theorem visitHandlers_eq (target : Nat) (handlers : List (String × Statement)) (w : FaultFlow) :
    visitHandlers ports call target handlers w =
      handlers.foldl
        (fun w handler => w.within target fun scope w => visit ports call scope handler.2 w) w := by
  induction handlers generalizing w with
  | nil => rfl
  | cons handler rest ih => exact ih _

theorem visit_eq (current : Nat) (s : Statement) (w : FaultFlow) :
    visit ports call current s w =
      match s.faultRole with
      | .throws fault => w.update (.throw current ⟨fault, none⟩)
      | .opens body => w.within current fun scope w => visit ports call scope body w
      | .solicits operation port => w.solicit ports current operation port
      | .installs handlers =>
        let w := w.handleAll current (handlers.map (·.1))
        handlers.foldl (fun v handler => v.within ((w.forest.parent? current).getD current)
          fun scope v => visit ports call scope handler.2 v) w
      | .calls procedure => call current procedure w
      | .reads parts => parts.foldl (fun w t => visit ports call current t w) w := by
  cases s
  case sequence => exact visitChildren_eq ports call current _ w
  case parallel => exact visitChildren_eq ports call current _ w
  case inputChoice => exact visitInputBranches_eq ports call current _ w
  case conditional =>
    simp only [visit, Statement.faultRole, visitOtherwise_eq, visitConditionalBranches_eq,
      List.foldl_append]
  case install => exact visitHandlers_eq ports call _ _ _
  all_goals rfl

section Alike

variable {R : Statement → Statement → Prop} {procedures procedures' : Dictionary Procedure}
  (h : Dictionary.Alike (fun p q => p.id = q.id ∧ R p.body q.body) procedures procedures')

include h

theorem inlineCall_congr {read read' : List String → Nat → Statement → FaultFlow → FaultFlow}
    (hread : ∀ reading current s t w, R s t →
      read reading current s w = read' reading current t w) (reading : List String) :
    inlineCall procedures read reading = inlineCall procedures' read' reading := by
  funext current id w
  have hfound := h.get? id
  rw [inlineCall, inlineCall]
  generalize Dictionary.get? procedures id = p at hfound
  generalize Dictionary.get? procedures' id = q at hfound
  cases hfound with
  | none => rfl
  | some hpq => simp only [hpq.1, hread _ _ _ _ _ hpq.2]

/-- Related statements are read alike, whatever is called in them, if that holds of each visit. -/
theorem readUpTo_congr {ports ports' : Dictionary OutputPort}
    (hvisit : ∀ call s t, R s t → ∀ current w,
      visit ports call current s w = visit ports' call current t w)
    (budget : Nat) (reading : List String) (current : Nat) {s t : Statement} (hst : R s t)
    (w : FaultFlow) :
    readUpTo ports procedures budget reading current s w =
      readUpTo ports' procedures' budget reading current t w := by
  induction budget generalizing reading current s t w with
  | zero =>
    have hcall : inlineCall procedures (fun _ _ _ w => w) reading =
        inlineCall procedures' (fun _ _ _ w => w) reading := by
      refine inlineCall_congr h ?_ reading
      intros
      rfl
    rw [readUpTo, readUpTo, hcall, hvisit _ s t hst]
  | succ budget ih =>
    have hcall : inlineCall procedures (readUpTo ports procedures budget) reading =
        inlineCall procedures' (readUpTo ports' procedures' budget) reading :=
      inlineCall_congr h (fun reading current _ _ w hst => ih reading current hst w) reading
    rw [readUpTo, readUpTo, hcall, hvisit _ s t hst]

end Alike

end FaultFlow

namespace ScopeForest

/-- The scope that takes in what is opened on a side. A root is beside itself. -/
def holder (f : ScopeForest) (current : Nat) : Side → Nat
  | .inside => current
  | .beside => (f.parent? current).getD current

end ScopeForest

def Effects.openedUnder (e : Effects) (f : ScopeForest) (current a : Nat) :
    List (List ThrownFault) :=
  (e.opened.filter fun scope => f.holder current scope.1 = a).map (·.2)

namespace ScopeForest

/-- The forest `g` is `f` with the effects of what was read in the current scope. -/
structure Grows (f : ScopeForest) (current : Nat) (e : Effects) (g : ScopeForest) : Prop where
  sound : g.Sound
  size_le : f.size ≤ g.size
  parent?_eq : ∀ a < f.size, g.parent? a = f.parent? a
  thrown_current : g.thrown current = ThrownFault.merge (f.thrown current) e.thrown
  caught_current : g.caught current = f.caught current ++ e.caught
  thrown_other : ∀ a < f.size, a ≠ current → g.thrown a = f.thrown a
  caught_other : ∀ a < f.size, a ≠ current → g.caught a = f.caught a
  children : ∀ a < f.size, ∃ opened, g.children a = f.children a ++ opened ∧
    (∀ child ∈ opened, f.size ≤ child) ∧ opened.map g.survivors = e.openedUnder f current a

theorem holder_le {f : ScopeForest} (hf : f.Sound) (current : Nat) (side : Side) :
    f.holder current side ≤ current := by
  cases side with
  | inside => exact Nat.le_refl _
  | beside =>
    cases h : f.parent? current with
    | none => simp [holder, h]
    | some parent =>
      have hlt := hf.parent_lt h
      simp only [holder, h, Option.getD_some]
      omega

theorem Grows.holder_eq {f g : ScopeForest} {current : Nat} {e : Effects}
    (h : Grows f current e g) (hcurrent : current < f.size) (side : Side) :
    g.holder current side = f.holder current side := by
  cases side with
  | inside => rfl
  | beside => simp only [holder, h.parent?_eq current hcurrent]

/-- Reading does not reach into trees that hold neither the current scope nor what it opens. -/
theorem Grows.survivors_eq {f g : ScopeForest} {current : Nat} {e : Effects}
    (h : Grows f current e g) (hf : f.Sound) (S : Nat → Prop) (hold : ∀ a, S a → a < f.size)
    (hclosed : ∀ a, S a → ∀ child ∈ f.children a, S child)
    (hapart : ∀ a, S a → ∀ side, f.holder current side ≠ a) {id : Nat} (hid : S id) :
    g.survivors id = f.survivors id := by
  have hne : ∀ a, S a → a ≠ current := fun a ha heq => hapart a ha .inside heq.symm
  refine survivors_congr hf h.sound S hclosed
    (fun a ha => h.thrown_other a (hold a ha) (hne a ha))
    (fun a ha => h.caught_other a (hold a ha) (hne a ha)) (fun a ha => ?_) hid
  obtain ⟨opened, hchildren, -, hopened⟩ := h.children a (hold a ha)
  have hnone : e.openedUnder f current a = [] := by
    simp [Effects.openedUnder, hapart a ha]
  rw [hnone, List.map_eq_nil_iff] at hopened
  rw [hchildren, hopened, List.append_nil]

theorem openedUnder_andThen (e e' : Effects) (f : ScopeForest) (current a : Nat) :
    (e.andThen e').openedUnder f current a =
      e.openedUnder f current a ++ e'.openedUnder f current a := by
  simp [Effects.openedUnder, Effects.andThen]

theorem grows_nothing {f : ScopeForest} (hf : f.Sound) (current : Nat) :
    Grows f current .nothing f where
  sound := hf
  size_le := Nat.le_refl _
  parent?_eq _ _ := rfl
  thrown_current := rfl
  caught_current := (List.append_nil _).symm
  thrown_other _ _ _ := rfl
  caught_other _ _ _ := rfl
  children a _ := ⟨[], (List.append_nil _).symm, by simp, rfl⟩

theorem Grows.trans {f g h : ScopeForest} {current : Nat} {e e' : Effects}
    (hcurrent : current < f.size) (hfg : Grows f current e g)
    (hgh : Grows g current e' h) : Grows f current (e.andThen e') h := by
  have hsize := hfg.size_le
  have hcurrent' : current < g.size := by omega
  have hholder := hfg.holder_eq hcurrent
  refine ⟨hgh.sound, Nat.le_trans hsize hgh.size_le, fun a ha => ?_, ?_, ?_, fun a ha hne => ?_,
    fun a ha hne => ?_, fun a ha => ?_⟩
  · rw [hgh.parent?_eq a (by omega), hfg.parent?_eq a ha]
  · rw [hgh.thrown_current, hfg.thrown_current, ← ThrownFault.merge_append]
    rfl
  · rw [hgh.caught_current, hfg.caught_current, List.append_assoc]
    rfl
  · rw [hgh.thrown_other a (by omega) hne, hfg.thrown_other a ha hne]
  · rw [hgh.caught_other a (by omega) hne, hfg.caught_other a ha hne]
  · obtain ⟨opened, hchildren, hnew, hopened⟩ := hfg.children a ha
    obtain ⟨opened', hchildren', hnew', hopened'⟩ := hgh.children a (by omega)
    refine ⟨opened ++ opened', ?_, ?_, ?_⟩
    · rw [hchildren', hchildren, List.append_assoc]
    · intro child hchild
      rcases List.mem_append.mp hchild with hmem | hmem
      · exact hnew child hmem
      · have hle := hnew' child hmem
        omega
    · have hkept : opened.map h.survivors = opened.map g.survivors := by
        refine List.map_congr_left fun child hchild => ?_
        refine hgh.survivors_eq hfg.sound (fun b => f.size ≤ b ∧ b < g.size) (fun b hb => hb.2)
          (fun b hb c hc => ?_) (fun b hb side => ?_) ⟨hnew child hchild, ?_⟩
        · have hlt := hfg.sound.lt_of_mem_children hc
          have hlt' := hfg.sound.lt_size_of_mem_children hc
          omega
        · have hle := holder_le hfg.sound current side
          omega
        · have hmem : child ∈ g.children a := by
            rw [hchildren]
            exact List.mem_append_right _ hchild
          exact hfg.sound.lt_size_of_mem_children hmem
      have hsame : e'.openedUnder g current a = e'.openedUnder f current a := by
        simp only [Effects.openedUnder, hholder]
      rw [List.map_append, hkept, hopened, hopened', hsame, openedUnder_andThen]

theorem grows_throwAll {f : ScopeForest} (hf : f.Sound) {current : Nat}
    (hcurrent : current < f.size) (faults : List ThrownFault) :
    Grows f current (.throwing faults)
      (faults.foldl (fun f fault => f.throw current fault) f) := by
  have hlinks := sameLinks_throwAll faults current f
  refine ⟨hf.of_sameLinks hlinks, Nat.le_of_eq hlinks.size_eq.symm,
    fun a _ => hlinks.parent?_eq a, thrown_throwAll_self faults current hcurrent, ?_,
    fun a _ hne => thrown_throwAll_other faults current f hne,
    fun a _ _ => caught_throwAll faults current f a, fun a _ => ⟨[], ?_, by simp, rfl⟩⟩
  · rw [caught_throwAll]
    exact (List.append_nil _).symm
  · rw [hlinks.children_eq, List.append_nil]

theorem grows_handle {f : ScopeForest} (hf : f.Sound) {current : Nat}
    (hcurrent : current < f.size) (fault : CaughtFault) :
    Grows f current (.catching [fault]) (f.handle current fault) := by
  have hlinks : SameLinks f (f.handle current fault) := sameLinks_handle f current fault
  refine ⟨hf.of_sameLinks hlinks, Nat.le_of_eq hlinks.size_eq.symm,
    fun a _ => hlinks.parent?_eq a, thrown_handle f current current fault,
    caught_handle_self hcurrent fault, fun a _ _ => thrown_handle f current a fault,
    fun a _ hne => caught_handle_other f hne fault, fun a _ => ⟨[], ?_, by simp, rfl⟩⟩
  rw [hlinks.children_eq, List.append_nil]

/-- What a scope lets through that has nothing in it before it is read. -/
theorem Grows.survivors_current {f g : ScopeForest} {current : Nat} {e : Effects}
    (h : Grows f current e g) (hcurrent : current < f.size) (hthrown : f.thrown current = [])
    (hcaught : f.caught current = []) (hchildren : f.children current = []) :
    g.survivors current =
      ThrownFault.settled (ThrownFault.merge [] e.thrown) e.caught
        (e.openedUnder f current current) := by
  obtain ⟨opened, hopen, -, hmap⟩ := h.children current hcurrent
  rw [ScopeForest.survivors_eq h.sound, h.thrown_current, h.caught_current, hopen, hthrown,
    hcaught, hchildren, List.nil_append, List.nil_append, hmap]

theorem openedUnder_within (e : Effects) (f : ScopeForest) (current a : Nat) (side : Side) :
    (e.within side).openedUnder f current a =
      if f.holder current side = a then e.passed :: e.openedAt .beside else [] := by
  unfold Effects.openedUnder Effects.within
  by_cases h : f.holder current side = a
  · simp [h, List.filter_map, Function.comp_def]
  · simp [h, List.filter_map, Function.comp_def]

theorem openedUnder_addChild (e : Effects) {f : ScopeForest} {parent : Nat} (h : parent < f.size)
    (a : Nat) :
    e.openedUnder (f.addChild parent) f.size a =
      if a = f.size then e.openedAt .inside
      else if parent = a then e.openedAt .beside else [] := by
  have hinside : (f.addChild parent).holder f.size .inside = f.size := rfl
  have hbeside : (f.addChild parent).holder f.size .beside = parent := by
    rw [holder, parent?_addChild h, if_pos rfl, Option.getD_some]
  have hside : ∀ side, ((f.addChild parent).holder f.size side = a ↔
      (side = .inside ∧ a = f.size) ∨ (side = .beside ∧ parent = a)) := by
    intro side
    cases side with
    | inside => simp [hinside, eq_comm]
    | beside => simp [hbeside]
  simp only [Effects.openedUnder, Effects.openedAt, hside]
  by_cases hnew : a = f.size
  · simp [hnew, Nat.ne_of_lt h]
  · by_cases hparent : parent = a
    · simp [hnew, hparent]
    · simp [hnew, hparent]

/-- Reading in a new scope has its effects within that scope. -/
theorem Grows.within {f g : ScopeForest} (hf : f.Sound) {current : Nat}
    (hcurrent : current < f.size) (side : Side) {e : Effects}
    (h : Grows (f.addChild (f.holder current side)) f.size e g) :
    Grows f current (e.within side) g := by
  have hle := holder_le hf current side
  have htarget : f.holder current side < f.size := by omega
  have hsize : (f.addChild (f.holder current side)).size = f.size + 1 := size_addChild _ f
  have hgrown := h.size_le
  have hne : ∀ a < f.size, a ≠ f.size := fun a ha => Nat.ne_of_lt ha
  have hnew : g.survivors f.size = e.passed := by
    rw [h.survivors_current (by omega), openedUnder_addChild e htarget, if_pos rfl]
    · rfl
    · rw [thrown_addChild htarget, thrown_of_size_le (Nat.le_refl _)]
    · rw [caught_addChild htarget, caught_of_size_le (Nat.le_refl _)]
    · rw [children_addChild htarget, children_of_size_le (Nat.le_refl _),
        if_neg (Nat.ne_of_lt htarget)]
      rfl
  refine ⟨h.sound, by omega, fun a ha => ?_, ?_, ?_, fun a ha _ => ?_, fun a ha _ => ?_,
    fun a ha => ?_⟩
  · rw [h.parent?_eq a (by omega), parent?_addChild htarget, if_neg (hne a ha)]
  · rw [h.thrown_other current (by omega) (hne _ hcurrent), thrown_addChild htarget]
    rfl
  · rw [h.caught_other current (by omega) (hne _ hcurrent), caught_addChild htarget]
    exact (List.append_nil _).symm
  · rw [h.thrown_other a (by omega) (hne a ha), thrown_addChild htarget]
  · rw [h.caught_other a (by omega) (hne a ha), caught_addChild htarget]
  · obtain ⟨opened, hchildren, hopened, hmap⟩ := h.children a (by omega)
    rw [children_addChild htarget] at hchildren
    rw [openedUnder_addChild e htarget, if_neg (hne a ha)] at hmap
    rw [openedUnder_within]
    by_cases ha' : f.holder current side = a
    · rw [if_pos ha'] at hchildren hmap
      refine ⟨f.size :: opened, ?_, ?_, ?_⟩
      · rw [hchildren, List.append_assoc]
        rfl
      · intro child hchild
        rcases List.mem_cons.mp hchild with heq | hmem
        · omega
        · have hle' := hopened child hmem
          omega
      · rw [if_pos ha', List.map_cons, hnew, hmap]
    · rw [if_neg ha'] at hchildren hmap
      refine ⟨opened, ?_, fun child hchild => ?_, ?_⟩
      · rw [hchildren, List.append_nil]
      · have hle' := hopened child hchild
        omega
      · rw [if_neg ha', hmap]

end ScopeForest

namespace FaultFlow

def Adds (step : Nat → FaultFlow → FaultFlow) (e : Effects) : Prop :=
  ∀ (current : Nat) (w : FaultFlow), w.forest.Sound → current < w.forest.size →
    w.forest.Grows current e (step current w).forest

theorem adds_nothing : Adds (fun _ w => w) .nothing :=
  fun current _ hsound _ => ScopeForest.grows_nothing hsound current

theorem adds_foldl {α : Type} (items : List α) (step : α → Nat → FaultFlow → FaultFlow)
    (effects : α → Effects) (h : ∀ item ∈ items, Adds (step item) (effects item)) :
    Adds (fun current w => items.foldl (fun w item => step item current w) w)
      (.all (items.map effects)) := by
  induction items with
  | nil => exact adds_nothing
  | cons item rest ih =>
    intro current w hsound hcurrent
    have hfirst := h item List.mem_cons_self current w hsound hcurrent
    have hsize := hfirst.size_le
    exact hfirst.trans hcurrent
      (ih (fun other hother => h other (List.mem_cons_of_mem _ hother)) current _ hfirst.sound
        (by omega))

theorem adds_throwAll (faults : List ThrownFault) :
    Adds (fun current w => faults.foldl (fun w fault => w.update (.throw current fault)) w)
      (.throwing faults) := by
  intro current w hsound hcurrent
  have hforest : ∀ w : FaultFlow,
      (faults.foldl (fun w fault => w.update (.throw current fault)) w).forest =
        faults.foldl (fun f fault => f.throw current fault) w.forest := by
    induction faults with
    | nil => exact fun _ => rfl
    | cons fault rest ih => exact fun w => ih _
  rw [hforest]
  exact ScopeForest.grows_throwAll hsound hcurrent faults

theorem adds_handleAll (handlers : List String) :
    Adds (fun current w => w.handleAll current handlers)
      (.catching (handlers.map caughtFault)) := by
  induction handlers with
  | nil => exact adds_nothing
  | cons handler rest ih =>
    intro current w hsound hcurrent
    have hfirst := ScopeForest.grows_handle hsound hcurrent (caughtFault handler)
    have hsize := hfirst.size_le
    exact hfirst.trans hcurrent
      (ih current (w.update (.handle current (caughtFault handler))) hfirst.sound
        (Nat.lt_of_lt_of_le hcurrent hsize))

theorem adds_solicit (ports : Dictionary OutputPort) (operation port : String) :
    Adds (fun current w => w.solicit ports current operation port)
      (.throwing (solicited ports operation port)) := by
  intro current w hsound hcurrent
  have hall := adds_throwAll (solicited ports operation port) current w hsound hcurrent
  unfold solicit
  unfold solicited at hall ⊢
  cases h : (Dictionary.get? ports port).bind (·.findOperation? operation) with
  | none =>
    rw [h] at hall
    exact hall
  | some o =>
    rw [h] at hall
    simp only [List.foldl_map] at hall
    exact hall

theorem adds_within {step : Nat → FaultFlow → FaultFlow} {e : Effects} (h : Adds step e)
    (side : Side) :
    Adds (fun current w => w.within (w.forest.holder current side) step) (e.within side) := by
  intro current w hsound hcurrent
  have hle := ScopeForest.holder_le hsound current side
  have htarget : w.forest.holder current side < w.forest.size := by omega
  have hnew : w.forest.size < (w.forest.addChild (w.forest.holder current side)).size := by
    rw [ScopeForest.size_addChild]
    exact Nat.lt_succ_self _
  exact ScopeForest.Grows.within hsound hcurrent side
    (h w.forest.size (w.update (.addChild (w.forest.holder current side)))
      (hsound.addChild htarget) hnew)

/-- The scope beside the current one is looked up once for all handlers. -/
theorem grows_handlers {α : Type} (handlers : List α) (step : α → Nat → FaultFlow → FaultFlow)
    (effects : α → Effects) (h : ∀ handler ∈ handlers, Adds (step handler) (effects handler))
    {current : Nat} {w : FaultFlow} (hsound : w.forest.Sound) (hcurrent : current < w.forest.size)
    {target : Nat} (htarget : w.forest.holder current .beside = target) :
    w.forest.Grows current (.all (handlers.map fun handler => (effects handler).within .beside))
      (handlers.foldl (fun v handler => v.within target (step handler)) w).forest := by
  induction handlers generalizing w with
  | nil => exact ScopeForest.grows_nothing hsound current
  | cons handler rest ih =>
    have hfirst := adds_within (h handler List.mem_cons_self) .beside current w hsound hcurrent
    simp only [htarget] at hfirst
    have hsize := hfirst.size_le
    refine hfirst.trans hcurrent
      (ih (fun other hother => h other (List.mem_cons_of_mem _ hother)) hfirst.sound (by omega) ?_)
    rw [hfirst.holder_eq hcurrent, htarget]

theorem adds_visit (ports : Dictionary OutputPort) {call : CallRule} {calls : String → Effects}
    (hcall : ∀ id, Adds (fun current w => call current id w) (calls id)) (s : Statement) :
    Adds (fun current w => visit ports call current s w) (s.effects ports calls) := by
  induction s using Statement.inner_induction with
  | step s ih =>
    intro current w hsound hcurrent
    change w.forest.Grows current _ (visit ports call current s w).forest
    rw [visit_eq, Statement.effects_eq]
    cases h : s.faultRole with
    | throws fault => exact adds_throwAll [⟨fault, none⟩] current w hsound hcurrent
    | opens body =>
      have hbody := ih body (by simp [h, FaultRole.inner])
      exact adds_within hbody .inside current w hsound hcurrent
    | solicits operation port => exact adds_solicit ports operation port current w hsound hcurrent
    | installs handlers =>
      have hhandled := adds_handleAll (handlers.map (·.1)) current w hsound hcurrent
      rw [List.map_map] at hhandled
      have hsize := hhandled.size_le
      refine hhandled.trans hcurrent (grows_handlers handlers _ _ (fun handler hmem => ?_)
        hhandled.sound (by omega) rfl)
      refine ih handler.2 ?_
      rw [h]
      exact List.mem_map_of_mem hmem
    | calls procedure => exact hcall procedure current w hsound hcurrent
    | reads parts =>
      refine adds_foldl parts _ _ (fun part hmem => ih part ?_) current w hsound hcurrent
      rw [h]
      exact hmem

theorem adds_inlineCall (procedures : Dictionary Procedure)
    {read : List String → Nat → Statement → FaultFlow → FaultFlow}
    {effects : List String → Statement → Effects}
    (h : ∀ reading s, Adds (fun current w => read reading current s w) (effects reading s))
    (reading : List String) (id : String) :
    Adds (fun current w => inlineCall procedures read reading current id w)
      (inlineEffects procedures effects reading id) := by
  intro current w hsound hcurrent
  unfold inlineCall inlineEffects
  cases Dictionary.get? procedures id with
  | none => exact ScopeForest.grows_nothing hsound current
  | some p =>
    by_cases hp : p.id ∈ reading
    · simp only [hp, if_true]
      exact ScopeForest.grows_nothing hsound current
    · simp only [hp, if_false]
      exact h (p.id :: reading) p.body current w hsound hcurrent

theorem adds_readUpTo (ports : Dictionary OutputPort) (procedures : Dictionary Procedure)
    (budget : Nat) (reading : List String) (s : Statement) :
    Adds (fun current w => readUpTo ports procedures budget reading current s w)
      (effectsUpTo ports procedures budget reading s) := by
  induction budget generalizing reading s with
  | zero =>
    exact adds_visit ports (adds_inlineCall procedures (fun _ _ => adds_nothing) reading) s
  | succ budget ih => exact adds_visit ports (adds_inlineCall procedures ih reading) s

end FaultFlow

end ServiceCheck
