import ServiceCheck.FaultFlow.ScopeForest

set_option autoImplicit false

namespace ServiceCheck

def CaughtFault.anyCatches (caught : List CaughtFault) (name : String) : Bool :=
  caught.contains .all || caught.contains (.named name)

namespace ThrownFault

def names (faults : List ThrownFault) : List String := faults.map (·.name)

def add (faults : List ThrownFault) (fault : ThrownFault) : List ThrownFault :=
  if faults.any (·.name = fault.name) then faults else faults ++ [fault]

def merge (faults others : List ThrownFault) : List ThrownFault := others.foldl add faults

def settled (own : List ThrownFault) (caught : List CaughtFault)
    (children : List (List ThrownFault)) : List ThrownFault :=
  (children.foldl merge own).filter fun fault => !CaughtFault.anyCatches caught fault.name

theorem merge_append (faults others more : List ThrownFault) :
    merge faults (others ++ more) = merge (merge faults others) more := List.foldl_append

theorem mem_names_add (faults : List ThrownFault) (fault : ThrownFault) (name : String) :
    name ∈ names (add faults fault) ↔ name ∈ names faults ∨ name = fault.name := by
  by_cases h : faults.any (·.name = fault.name)
  · obtain ⟨other, hmem, heq⟩ := List.any_eq_true.mp h
    have hin : fault.name ∈ names faults := by
      rw [← of_decide_eq_true heq]
      exact List.mem_map_of_mem hmem
    rw [add, if_pos h]
    constructor
    · exact Or.inl
    · intro hname
      rcases hname with hname | hname
      · exact hname
      · exact hname ▸ hin
  · rw [add, if_neg h]
    simp [names]

theorem mem_names_merge (faults others : List ThrownFault) (name : String) :
    name ∈ names (merge faults others) ↔ name ∈ names faults ∨ name ∈ names others := by
  induction others generalizing faults with
  | nil => simp [merge, names]
  | cons fault rest ih =>
    have hstep : merge faults (fault :: rest) = merge (add faults fault) rest := rfl
    rw [hstep, ih, mem_names_add]
    simp [names, or_assoc]

theorem mem_names_foldl_merge (children : List (List ThrownFault)) (own : List ThrownFault)
    (name : String) :
    name ∈ names (children.foldl merge own) ↔
      name ∈ names own ∨ ∃ faults ∈ children, name ∈ names faults := by
  induction children generalizing own with
  | nil => simp
  | cons faults rest ih => simp [ih, mem_names_merge, or_assoc]

theorem mem_names_settled (own : List ThrownFault) (caught : List CaughtFault)
    (children : List (List ThrownFault)) (name : String) :
    name ∈ names (settled own caught children) ↔
      (name ∈ names own ∨ ∃ faults ∈ children, name ∈ names faults) ∧
        CaughtFault.anyCatches caught name = false := by
  rw [← mem_names_foldl_merge]
  simp only [settled, names, List.mem_map, List.mem_filter, Bool.not_eq_true']
  constructor
  · intro ⟨fault, ⟨hmem, hfree⟩, hname⟩
    exact ⟨⟨fault, hmem, hname⟩, hname ▸ hfree⟩
  · intro ⟨⟨fault, hmem, hname⟩, hfree⟩
    exact ⟨fault, ⟨hmem, hname ▸ hfree⟩, hname⟩

end ThrownFault

theorem Scope.throw_eq (fault : ThrownFault) (s : Scope) :
    s.throw fault = { s with thrown := ThrownFault.add s.thrown fault } := by
  unfold Scope.throw ThrownFault.add
  split <;> rfl

namespace ScopeForest

def caught (f : ScopeForest) (id : Nat) : List CaughtFault :=
  (f.scopes[id]?.map (·.caught)).getD []

/-- Parents come before their children, and the two kinds of links agree. -/
structure Sound (f : ScopeForest) : Prop where
  parent_lt : ∀ {child parent : Nat}, f.parent? child = some parent → parent < child
  mem_children : ∀ {child parent : Nat},
    child ∈ f.children parent ↔ f.parent? child = some parent
  nodup : ∀ id : Nat, (f.children id).Nodup

theorem getElem?_modify (f : ScopeForest) (id : Nat) (change : Scope → Scope) (a : Nat) :
    (f.modify id change).scopes[a]? =
      if id = a then f.scopes[a]?.map change else f.scopes[a]? := Array.getElem?_modify

theorem getElem?_addChild {f : ScopeForest} {parent : Nat} (h : parent < f.size) (a : Nat) :
    (f.addChild parent).scopes[a]? =
      if a = f.size then some (.empty (some parent))
      else if parent = a then f.scopes[a]?.map (.addChild f.size) else f.scopes[a]? := by
  have hne : parent ≠ f.scopes.size := Nat.ne_of_lt h
  simp only [addChild, getElem?_modify, Array.getElem?_push, size]
  by_cases ha : a = f.scopes.size
  · subst ha
    simp [hne]
  · simp [ha]

theorem getElem?_addRoot (f : ScopeForest) (a : Nat) :
    f.addRoot.scopes[a]? = if a = f.size then some (.empty none) else f.scopes[a]? :=
  Array.getElem?_push

theorem getElem?_eq_none {f : ScopeForest} {a : Nat} (h : f.size ≤ a) : f.scopes[a]? = none :=
  Array.getElem?_eq_none h

theorem exists_scope {f : ScopeForest} {a : Nat} (h : a < f.size) : ∃ s, f.scopes[a]? = some s :=
  ⟨_, Array.getElem?_eq_getElem h⟩

theorem lt_size_of_parent? {f : ScopeForest} {a parent : Nat} (h : f.parent? a = some parent) :
    a < f.size := by
  rcases Nat.lt_or_ge a f.size with hlt | hge
  · exact hlt
  · simp [parent?, getElem?_eq_none hge] at h

theorem parent?_of_size_le {f : ScopeForest} {a : Nat} (h : f.size ≤ a) : f.parent? a = none := by
  simp [parent?, getElem?_eq_none h]

theorem children_of_size_le {f : ScopeForest} {a : Nat} (h : f.size ≤ a) : f.children a = [] := by
  simp [children, getElem?_eq_none h]

theorem thrown_of_size_le {f : ScopeForest} {a : Nat} (h : f.size ≤ a) : f.thrown a = [] := by
  simp [thrown, getElem?_eq_none h]

theorem caught_of_size_le {f : ScopeForest} {a : Nat} (h : f.size ≤ a) : f.caught a = [] := by
  simp [caught, getElem?_eq_none h]

section Modify

variable (f : ScopeForest) (id a : Nat) (change : Scope → Scope)

theorem parent?_modify (h : ∀ s, (change s).parent = s.parent) :
    (f.modify id change).parent? a = f.parent? a := by
  rw [parent?, getElem?_modify]
  by_cases ha : id = a <;> cases hs : f.scopes[a]? <;> simp [ha, hs, h, parent?]

theorem children_modify (h : ∀ s, (change s).newestFirst = s.newestFirst) :
    (f.modify id change).children a = f.children a := by
  rw [children, getElem?_modify]
  by_cases ha : id = a <;> cases hs : f.scopes[a]? <;> simp [ha, hs, h, children, Scope.children]

theorem thrown_modify (h : ∀ s, (change s).thrown = s.thrown) :
    (f.modify id change).thrown a = f.thrown a := by
  rw [thrown, getElem?_modify]
  by_cases ha : id = a <;> cases hs : f.scopes[a]? <;> simp [ha, hs, h, thrown]

theorem caught_modify (h : ∀ s, (change s).caught = s.caught) :
    (f.modify id change).caught a = f.caught a := by
  rw [caught, getElem?_modify]
  by_cases ha : id = a <;> cases hs : f.scopes[a]? <;> simp [ha, hs, h, caught]

end Modify

theorem caught_throw (f : ScopeForest) (id a : Nat) (fault : ThrownFault) :
    (f.throw id fault).caught a = f.caught a :=
  caught_modify f id a _ fun s => by rw [Scope.throw_eq]

theorem thrown_throw_other (f : ScopeForest) {id a : Nat} (h : a ≠ id) (fault : ThrownFault) :
    (f.throw id fault).thrown a = f.thrown a := by
  simp [thrown, throw, getElem?_modify, Ne.symm h]

theorem thrown_throw_self {f : ScopeForest} {id : Nat} (h : id < f.size) (fault : ThrownFault) :
    (f.throw id fault).thrown id = ThrownFault.add (f.thrown id) fault := by
  obtain ⟨s, hs⟩ := exists_scope h
  simp [thrown, throw, getElem?_modify, hs, Scope.throw_eq]

theorem thrown_handle (f : ScopeForest) (id a : Nat) (fault : CaughtFault) :
    (f.handle id fault).thrown a = f.thrown a := thrown_modify f id a _ fun _ => rfl

theorem caught_handle_other (f : ScopeForest) {id a : Nat} (h : a ≠ id) (fault : CaughtFault) :
    (f.handle id fault).caught a = f.caught a := by
  simp [caught, handle, getElem?_modify, Ne.symm h]

theorem caught_handle_self {f : ScopeForest} {id : Nat} (h : id < f.size) (fault : CaughtFault) :
    (f.handle id fault).caught id = f.caught id ++ [fault] := by
  obtain ⟨s, hs⟩ := exists_scope h
  simp [caught, handle, getElem?_modify, hs, Scope.handle]

section AddChild

variable {f : ScopeForest} {parent : Nat} (h : parent < f.size) (a : Nat)

include h

theorem parent?_addChild :
    (f.addChild parent).parent? a = if a = f.size then some parent else f.parent? a := by
  rw [parent?, getElem?_addChild h]
  by_cases ha : a = f.size
  · simp [ha, Scope.empty]
  · by_cases hp : parent = a <;> cases hs : f.scopes[a]? <;>
      simp [ha, hp, hs, parent?, Scope.addChild]

theorem children_addChild :
    (f.addChild parent).children a = f.children a ++ if parent = a then [f.size] else [] := by
  rw [children, getElem?_addChild h]
  by_cases ha : a = f.size
  · simp [ha, children_of_size_le, Nat.ne_of_lt h, Scope.empty, Scope.children]
  · by_cases hp : parent = a
    · subst hp
      obtain ⟨s, hs⟩ := exists_scope h
      simp [ha, hs, children, Scope.children_addChild]
    · simp [ha, hp, children]

theorem thrown_addChild : (f.addChild parent).thrown a = f.thrown a := by
  rw [thrown, getElem?_addChild h]
  by_cases ha : a = f.size
  · simp [ha, thrown_of_size_le, Scope.empty]
  · by_cases hp : parent = a <;> cases hs : f.scopes[a]? <;>
      simp [ha, hp, hs, thrown, Scope.addChild]

theorem caught_addChild : (f.addChild parent).caught a = f.caught a := by
  rw [caught, getElem?_addChild h]
  by_cases ha : a = f.size
  · simp [ha, caught_of_size_le, Scope.empty]
  · by_cases hp : parent = a <;> cases hs : f.scopes[a]? <;>
      simp [ha, hp, hs, caught, Scope.addChild]

end AddChild

theorem parent?_addRoot (f : ScopeForest) (a : Nat) : f.addRoot.parent? a = f.parent? a := by
  rw [parent?, getElem?_addRoot]
  by_cases ha : a = f.size
  · simp [ha, parent?_of_size_le, Scope.empty]
  · simp [ha, parent?]

theorem children_addRoot (f : ScopeForest) (a : Nat) : f.addRoot.children a = f.children a := by
  rw [children, getElem?_addRoot]
  by_cases ha : a = f.size
  · simp [ha, children_of_size_le, Scope.empty, Scope.children]
  · simp [ha, children]

theorem thrown_addRoot (f : ScopeForest) (a : Nat) : f.addRoot.thrown a = f.thrown a := by
  rw [thrown, getElem?_addRoot]
  by_cases ha : a = f.size
  · simp [ha, thrown_of_size_le, Scope.empty]
  · simp [ha, thrown]

theorem caught_addRoot (f : ScopeForest) (a : Nat) : f.addRoot.caught a = f.caught a := by
  rw [caught, getElem?_addRoot]
  by_cases ha : a = f.size
  · simp [ha, caught_of_size_le, Scope.empty]
  · simp [ha, caught]

structure SameLinks (f g : ScopeForest) : Prop where
  size_eq : g.size = f.size
  parent?_eq : ∀ a : Nat, g.parent? a = f.parent? a
  children_eq : ∀ a : Nat, g.children a = f.children a

theorem Sound.of_sameLinks {f g : ScopeForest} (hf : f.Sound) (h : SameLinks f g) : g.Sound where
  parent_lt hp := hf.parent_lt (h.parent?_eq _ ▸ hp)
  mem_children := by
    intro child parent
    rw [h.children_eq, h.parent?_eq]
    exact hf.mem_children
  nodup a := h.children_eq a ▸ hf.nodup a

theorem Sound.lt_of_mem_children {f : ScopeForest} (hf : f.Sound) {child parent : Nat}
    (h : child ∈ f.children parent) : parent < child := hf.parent_lt (hf.mem_children.mp h)

theorem Sound.lt_size_of_mem_children {f : ScopeForest} (hf : f.Sound) {child parent : Nat}
    (h : child ∈ f.children parent) : child < f.size :=
  lt_size_of_parent? (hf.mem_children.mp h)

theorem sound_empty : ScopeForest.empty.Sound where
  parent_lt h := by simp [parent?, empty] at h
  mem_children := by simp [parent?, children, empty]
  nodup _ := by simp [children, empty]

theorem lt_size_addRoot (f : ScopeForest) : f.size < f.addRoot.size := by
  rw [size_addRoot]
  exact Nat.lt_succ_self _

theorem Sound.addRoot {f : ScopeForest} (hf : f.Sound) : f.addRoot.Sound where
  parent_lt h := hf.parent_lt (parent?_addRoot f _ ▸ h)
  mem_children := by
    intro child parent
    rw [children_addRoot, parent?_addRoot]
    exact hf.mem_children
  nodup a := children_addRoot f a ▸ hf.nodup a

theorem Sound.addChild {f : ScopeForest} (hf : f.Sound) {parent : Nat} (h : parent < f.size) :
    (f.addChild parent).Sound where
  parent_lt := by
    intro child a hp
    rw [parent?_addChild h] at hp
    by_cases hc : child = f.size
    · rw [if_pos hc] at hp
      obtain rfl := Option.some.inj hp
      omega
    · rw [if_neg hc] at hp
      exact hf.parent_lt hp
  mem_children := by
    intro child a
    rw [children_addChild h, parent?_addChild h, List.mem_append, hf.mem_children]
    by_cases hc : child = f.size
    · subst hc
      by_cases hp : parent = a <;> simp [hp, parent?_of_size_le]
    · by_cases hp : parent = a <;> simp [hp, hc]
  nodup := by
    intro a
    have hnew : f.size ∉ f.children a := fun hmem =>
      Nat.lt_irrefl _ (hf.lt_size_of_mem_children hmem)
    rw [children_addChild h]
    by_cases hp : parent = a
    · subst hp
      rw [if_pos rfl, List.nodup_append]
      refine ⟨hf.nodup parent, by simp, fun c hc d hd heq => hnew ?_⟩
      rw [← List.mem_singleton.mp hd, ← heq]
      exact hc
    · simp [hp, hf.nodup a]

theorem sameLinks_modify (f : ScopeForest) (id : Nat) (change : Scope → Scope)
    (hparent : ∀ s, (change s).parent = s.parent)
    (hchildren : ∀ s, (change s).newestFirst = s.newestFirst) :
    SameLinks f (f.modify id change) :=
  ⟨size_modify id change f, fun a => parent?_modify f id a change hparent,
    fun a => children_modify f id a change hchildren⟩

theorem sameLinks_throw (f : ScopeForest) (id : Nat) (fault : ThrownFault) :
    SameLinks f (f.throw id fault) :=
  sameLinks_modify f id _ (fun s => by rw [Scope.throw_eq]) fun s => by rw [Scope.throw_eq]

theorem sameLinks_handle (f : ScopeForest) (id : Nat) (fault : CaughtFault) :
    SameLinks f (f.handle id fault) :=
  sameLinks_modify f id _ (fun _ => rfl) fun _ => rfl

theorem SameLinks.refl (f : ScopeForest) : SameLinks f f := ⟨rfl, fun _ => rfl, fun _ => rfl⟩

theorem SameLinks.trans {f g h : ScopeForest} (hfg : SameLinks f g) (hgh : SameLinks g h) :
    SameLinks f h :=
  ⟨hgh.size_eq.trans hfg.size_eq, fun a => (hgh.parent?_eq a).trans (hfg.parent?_eq a),
    fun a => (hgh.children_eq a).trans (hfg.children_eq a)⟩

section ThrowAll

variable (faults : List ThrownFault) (id : Nat)

theorem sameLinks_throwAll (f : ScopeForest) :
    SameLinks f (faults.foldl (fun f fault => f.throw id fault) f) := by
  induction faults generalizing f with
  | nil => exact .refl f
  | cons fault rest ih => exact (sameLinks_throw f id fault).trans (ih _)

theorem caught_throwAll (f : ScopeForest) (a : Nat) :
    (faults.foldl (fun f fault => f.throw id fault) f).caught a = f.caught a := by
  induction faults generalizing f with
  | nil => rfl
  | cons fault rest ih => exact (ih _).trans (caught_throw f id a fault)

theorem thrown_throwAll_self {f : ScopeForest} (h : id < f.size) :
    (faults.foldl (fun f fault => f.throw id fault) f).thrown id =
      ThrownFault.merge (f.thrown id) faults := by
  induction faults generalizing f with
  | nil => rfl
  | cons fault rest ih =>
    rw [List.foldl_cons, ih ((sameLinks_throw f id fault).size_eq ▸ h), thrown_throw_self h]
    rfl

theorem thrown_throwAll_other (f : ScopeForest) {a : Nat} (h : a ≠ id) :
    (faults.foldl (fun f fault => f.throw id fault) f).thrown a = f.thrown a := by
  induction faults generalizing f with
  | nil => rfl
  | cons fault rest ih => exact (ih _).trans (thrown_throw_other f h fault)

end ThrowAll

/-- The faults that a scope lets through, those of scopes nested to a bounded depth included. -/
def survivorsUpTo : Nat → ScopeForest → Nat → List ThrownFault
  | 0, _, _ => []
  | depth + 1, f, id =>
    ThrownFault.settled (f.thrown id) (f.caught id)
      ((f.children id).map (survivorsUpTo depth f))

def survivors (f : ScopeForest) (id : Nat) : List ThrownFault := survivorsUpTo f.size f id

theorem survivorsUpTo_succ_eq {f : ScopeForest} (hf : f.Sound) {depth id : Nat}
    (h : f.size ≤ id + depth) : survivorsUpTo (depth + 1) f id = survivorsUpTo depth f id := by
  induction depth generalizing id with
  | zero =>
    have hle : f.size ≤ id := by omega
    simp [survivorsUpTo, thrown_of_size_le hle, children_of_size_le hle, ThrownFault.settled]
  | succ depth ih =>
    rw [survivorsUpTo, survivorsUpTo]
    congr 1
    refine List.map_congr_left fun child hchild => ih ?_
    have hlt := hf.lt_of_mem_children hchild
    omega

theorem survivorsUpTo_eq {f : ScopeForest} (hf : f.Sound) {depth id : Nat}
    (h : f.size ≤ id + depth) : survivorsUpTo depth f id = f.survivors id := by
  have hmore : ∀ extra n, f.size ≤ id + n →
      survivorsUpTo (n + extra) f id = survivorsUpTo n f id := by
    intro extra n hn
    induction extra with
    | zero => rfl
    | succ extra ih => rw [← Nat.add_assoc, survivorsUpTo_succ_eq hf (by omega), ih]
  rcases Nat.le_total depth f.size with hle | hle
  · have heq := hmore (f.size - depth) depth h
    rw [Nat.add_sub_cancel' hle] at heq
    exact heq.symm
  · have heq := hmore (depth - f.size) f.size (by omega)
    rw [Nat.add_sub_cancel' hle] at heq
    exact heq

theorem survivors_eq {f : ScopeForest} (hf : f.Sound) (id : Nat) :
    f.survivors id =
      ThrownFault.settled (f.thrown id) (f.caught id) ((f.children id).map f.survivors) := by
  rw [survivors, ← survivorsUpTo_succ_eq hf (by omega)]
  rfl

/-- The faults that a scope lets through depend on the scopes under it only. -/
theorem survivors_congr {f g : ScopeForest} (hf : f.Sound) (hg : g.Sound) (S : Nat → Prop)
    (hclosed : ∀ a, S a → ∀ child ∈ f.children a, S child)
    (hthrown : ∀ a, S a → g.thrown a = f.thrown a)
    (hcaught : ∀ a, S a → g.caught a = f.caught a)
    (hchildren : ∀ a, S a → g.children a = f.children a) {id : Nat} (hid : S id) :
    g.survivors id = f.survivors id := by
  have hdepth : ∀ depth a, S a → survivorsUpTo depth g a = survivorsUpTo depth f a := by
    intro depth
    induction depth with
    | zero =>
      intro a ha
      rfl
    | succ depth ih =>
      intro a ha
      rw [survivorsUpTo, survivorsUpTo, hthrown a ha, hcaught a ha, hchildren a ha]
      congr 1
      exact List.map_congr_left fun child hchild => ih child (hclosed a ha child hchild)
  have hf' : survivorsUpTo (f.size + g.size) f id = f.survivors id :=
    survivorsUpTo_eq hf (by omega)
  have hg' : survivorsUpTo (f.size + g.size) g id = g.survivors id :=
    survivorsUpTo_eq hg (by omega)
  rw [← hf', ← hg']
  exact hdepth _ id hid

end ScopeForest

end ServiceCheck
