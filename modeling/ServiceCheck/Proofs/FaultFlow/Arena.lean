import Mathlib.Data.List.Nodup
import ServiceCheck.Proofs.FaultFlow.Edits

/-!
Scopes as the cells of an array. Thrown faults are kept under their names, and an operation on an
index that no cell has comes to nothing at all. On arenas that are well formed, operations on cells
that exist succeed, keep the arena well formed, and are those of the forest.
-/

set_option autoImplicit false

namespace ServiceCheck

structure Cell where
  parent : Option Nat
  children : List Nat
  thrown : Dictionary ThrownFault
  caught : List CaughtFault

namespace Cell

def empty (parent : Option Nat) : Cell := ⟨parent, [], [], []⟩

def addChild (id : Nat) (c : Cell) : Cell := { c with children := c.children ++ [id] }

def throw (fault : ThrownFault) (c : Cell) : Cell :=
  { c with thrown := Dictionary.setNew c.thrown fault.name fault }

def handle (handler : String) (c : Cell) : Cell :=
  { c with caught := c.caught ++ [FaultFlow.caughtFault handler] }

def settle (c : Cell) : Cell :=
  { c with
    thrown :=
      if c.caught.contains .all then []
      else c.thrown.filter fun e => !c.caught.contains (.named e.1) }

def scope (c : Cell) : Scope :=
  ⟨c.parent, c.children.reverse, Dictionary.values c.thrown, c.caught⟩

def Keyed (c : Cell) : Prop := ∀ e ∈ c.thrown, e.1 = e.2.name

variable {c : Cell}

theorem children_scope (c : Cell) : c.scope.children = c.children := List.reverse_reverse _

theorem scope_addChild (id : Nat) (c : Cell) : (c.addChild id).scope = c.scope.addChild id := by
  simp [scope, addChild, Scope.addChild]

theorem scope_handle (handler : String) (c : Cell) :
    (c.handle handler).scope = c.scope.handle (FaultFlow.caughtFault handler) := rfl

theorem Keyed.contains_eq (h : c.Keyed) (name : String) :
    Dictionary.contains c.thrown name = c.scope.thrown.any (·.name = name) := by
  have hkeys : Dictionary.keys c.thrown = c.scope.thrown.map (·.name) := by
    rw [scope, Dictionary.values, List.map_map]
    exact List.map_congr_left h
  rw [Bool.eq_iff_iff, Dictionary.contains, Dictionary.get?_isSome_iff, hkeys]
  simp

theorem Keyed.scope_throw (h : c.Keyed) (fault : ThrownFault) :
    (c.throw fault).scope = c.scope.throw fault := by
  have hcontains := h.contains_eq fault.name
  rw [Scope.throw, ← hcontains, throw, Dictionary.setNew]
  by_cases hold : Dictionary.contains c.thrown fault.name
  · simp [hold]
  · simp [hold, scope, Dictionary.values]

theorem Keyed.scope_settle (h : c.Keyed) : c.settle.scope = c.scope.settle := by
  have hdropped : Dictionary.values c.settle.thrown =
      (Dictionary.values c.thrown).filter fun fault => !c.scope.catches fault.name := by
    by_cases hall : CaughtFault.all ∈ c.caught
    · simp [settle, hall, Scope.catches, scope, Dictionary.values]
    · have hcontains : c.caught.contains .all = false := by simpa using hall
      rw [settle, hcontains, Dictionary.values, Dictionary.values, List.filter_map]
      refine congrArg _ (List.filter_congr fun e he => ?_)
      simp [Scope.catches, scope, hall, h e he]
  rw [Scope.settle, scope, hdropped]
  rfl

theorem keyed_empty (parent : Option Nat) : (empty parent).Keyed := by simp [Keyed, empty]

theorem Keyed.throw (h : c.Keyed) (fault : ThrownFault) : (c.throw fault).Keyed := by
  intro e he
  rw [Cell.throw, Dictionary.setNew] at he
  split at he
  · exact h e he
  · rcases List.mem_append.mp he with hold | hnew
    · exact h e hold
    · rw [List.mem_singleton.mp hnew]

theorem Keyed.settle (h : c.Keyed) : c.settle.Keyed := by
  intro e he
  rw [Cell.settle] at he
  split at he
  · exact absurd he List.not_mem_nil
  · exact h e (List.mem_filter.mp he).1

end Cell

structure Arena where
  cells : Array Cell

namespace Arena

def empty : Arena := ⟨#[]⟩

def size (a : Arena) : Nat := a.cells.size

def addRoot (a : Arena) : Arena := ⟨a.cells.push (.empty none)⟩

def modify? (id : Nat) (change : Cell → Cell) (a : Arena) : Option Arena :=
  if id < a.size then some ⟨a.cells.modify id change⟩ else none

/-- The new cell is there before its parent is looked up. -/
def addChild? (parent : Nat) (a : Arena) : Option Arena :=
  modify? parent (.addChild a.size) ⟨a.cells.push (.empty (some parent))⟩

def throw? (id : Nat) (fault : ThrownFault) : Arena → Option Arena := modify? id (.throw fault)

def handle? (id : Nat) (handler : String) : Arena → Option Arena := modify? id (.handle handler)

def settle? (id : Nat) : Arena → Option Arena := modify? id .settle

def parent? (a : Arena) (id : Nat) : Option Nat := a.cells[id]?.bind (·.parent)

def children (a : Arena) (id : Nat) : List Nat := (a.cells[id]?.map (·.children)).getD []

def thrown (a : Arena) (id : Nat) : Dictionary ThrownFault :=
  (a.cells[id]?.map (·.thrown)).getD []

/-- Parents have smaller numbers than their children. A scope is listed once by its parent and by
no other scope. Children are listed in the order of their numbers, and faults stand under their
names. -/
structure WellFormed (a : Arena) : Prop where
  parent_lt : ∀ {child parent : Nat}, a.parent? child = some parent → parent < child
  listed_once : ∀ {child parent : Nat}, a.parent? child = some parent →
    (a.children parent).count child = 1
  parent_of_listed : ∀ {child other : Nat}, child ∈ a.children other →
    a.parent? child = some other
  increasing : ∀ id : Nat, (a.children id).Pairwise (· < ·)
  keyed : ∀ id : Nat, ∀ e ∈ a.thrown id, e.1 = e.2.name

def forest (a : Arena) : ScopeForest := ⟨a.cells.map Cell.scope⟩

variable {a b : Arena} {id : Nat}

@[simp] theorem size_forest (a : Arena) : a.forest.size = a.size := by
  simp [forest, ScopeForest.size, size]

theorem getElem?_forest (a : Arena) (id : Nat) :
    a.forest.scopes[id]? = a.cells[id]?.map Cell.scope := Array.getElem?_map

theorem parent?_forest (a : Arena) (id : Nat) : a.forest.parent? id = a.parent? id := by
  rw [ScopeForest.parent?, getElem?_forest, parent?]
  cases a.cells[id]? <;> rfl

theorem children_forest (a : Arena) (id : Nat) : a.forest.children id = a.children id := by
  rw [ScopeForest.children, getElem?_forest, children]
  cases a.cells[id]? with
  | none => rfl
  | some c => exact c.children_scope

theorem thrown_forest (a : Arena) (id : Nat) :
    a.forest.thrown id = Dictionary.values (a.thrown id) := by
  rw [ScopeForest.thrown, getElem?_forest, thrown]
  cases a.cells[id]? <;> rfl

theorem keyed_iff :
    (∀ id : Nat, ∀ e ∈ a.thrown id, e.1 = e.2.name) ↔
      ∀ (id : Nat) (c : Cell), a.cells[id]? = some c → c.Keyed := by
  simp only [thrown, Cell.Keyed]
  constructor
  · intro h id c hc
    simpa [hc] using h id
  · intro h id
    cases hc : a.cells[id]? with
    | none => simp
    | some c => exact h id c hc

theorem wellFormed_iff :
    a.WellFormed ↔ a.forest.Sound ∧ (∀ id, (a.forest.children id).Pairwise (· < ·)) ∧
      ∀ (id : Nat) (c : Cell), a.cells[id]? = some c → c.Keyed := by
  rw [← keyed_iff]
  simp only [children_forest]
  constructor
  · intro h
    refine ⟨⟨?_, ?_, ?_⟩, h.increasing, h.keyed⟩
    · intro child parent hp
      exact h.parent_lt (parent?_forest a child ▸ hp)
    · intro child parent
      rw [children_forest, parent?_forest]
      refine ⟨h.parent_of_listed, fun hp => List.count_pos_iff.mp ?_⟩
      rw [h.listed_once hp]
      exact Nat.one_pos
    · intro id
      rw [children_forest]
      exact (h.increasing id).imp Nat.ne_of_lt
  · rintro ⟨hsound, hincreasing, hkeyed⟩
    have hmem : ∀ {child parent : Nat}, child ∈ a.children parent ↔
        a.parent? child = some parent := fun {child parent} => by
      rw [← children_forest, ← parent?_forest]
      exact hsound.mem_children
    refine ⟨?_, fun hp => ?_, hmem.mp, hincreasing, hkeyed⟩
    · intro child parent hp
      exact hsound.parent_lt ((parent?_forest a child).trans hp)
    · exact List.count_eq_one_of_mem ((hincreasing _).imp Nat.ne_of_lt) (hmem.mpr hp)

theorem WellFormed.sound (h : a.WellFormed) : a.forest.Sound := (wellFormed_iff.mp h).1

theorem WellFormed.keyed_cell (h : a.WellFormed) {c : Cell} (hc : a.cells[id]? = some c) :
    c.Keyed := (wellFormed_iff.mp h).2.2 id c hc

theorem exists_cell (h : id < a.size) : ∃ c, a.cells[id]? = some c :=
  ⟨_, Array.getElem?_eq_getElem h⟩

theorem forest_modify (a : Arena) (id : Nat) {change : Cell → Cell} {change' : Scope → Scope}
    (hscope : ∀ c, a.cells[id]? = some c → (change c).scope = change' c.scope) :
    (Arena.mk (a.cells.modify id change)).forest = a.forest.modify id change' := by
  refine congrArg ScopeForest.mk (Array.ext_getElem? fun i => ?_)
  rw [Array.getElem?_map, Array.getElem?_modify, Array.getElem?_modify]
  by_cases hi : id = i
  · subst hi
    rw [if_pos rfl, if_pos rfl, getElem?_forest]
    cases hc : a.cells[id]? with
    | none => rfl
    | some c => exact congrArg some (hscope c hc)
  · rw [if_neg hi, if_neg hi, getElem?_forest]

theorem forest_empty : empty.forest = .empty := by
  simp [forest, empty, ScopeForest.empty]

theorem forest_push (a : Arena) (parent : Option Nat) :
    (Arena.mk (a.cells.push (.empty parent))).forest =
      ⟨a.forest.scopes.push (.empty parent)⟩ := by
  simp [forest, Cell.scope, Cell.empty, Scope.empty, Dictionary.values]

theorem forest_addRoot (a : Arena) : a.addRoot.forest = a.forest.addRoot := a.forest_push none

theorem keyed_push {parent : Option Nat} (h : a.WellFormed) {c : Cell}
    (hc : (a.cells.push (.empty parent))[id]? = some c) : c.Keyed := by
  rw [Array.getElem?_push] at hc
  split at hc
  · rw [← Option.some.inj hc]
    exact Cell.keyed_empty parent
  · exact h.keyed_cell hc

theorem keyed_modify {change : Cell → Cell} (hchange : ∀ c : Cell, c.Keyed → (change c).Keyed)
    (h : ∀ (i : Nat) (c : Cell), a.cells[i]? = some c → c.Keyed) (i : Nat) (c : Cell)
    (hc : (a.cells.modify id change)[i]? = some c) : c.Keyed := by
  rw [Array.getElem?_modify] at hc
  split at hc
  · obtain ⟨old, hold, rfl⟩ := Option.map_eq_some_iff.mp hc
    exact hchange old (h i old hold)
  · exact h i c hc

theorem wellFormed_empty : empty.WellFormed := by
  refine wellFormed_iff.mpr ⟨?_, ?_, by simp [empty]⟩
  · rw [forest_empty]
    exact ScopeForest.sound_empty
  · simp [forest_empty, ScopeForest.children, ScopeForest.empty]

/-- An arena with the links of an edited forest is well formed if its cells are keyed. -/
theorem WellFormed.of_edit (h : a.WellFormed) {e : ForestEdit} (he : e.Fits a.forest)
    (hforest : b.forest = e.apply a.forest)
    (hkeyed : ∀ (i : Nat) (c : Cell), b.cells[i]? = some c → c.Keyed) : b.WellFormed := by
  obtain ⟨hsound, hincreasing, -⟩ := wellFormed_iff.mp h
  refine wellFormed_iff.mpr ⟨?_, ?_, hkeyed⟩
  · rw [hforest]
    exact ForestEdit.sound_apply hsound he
  · rw [hforest]
    exact ForestEdit.pairwise_children_apply hsound he hincreasing

theorem WellFormed.addRoot (h : a.WellFormed) : a.addRoot.WellFormed :=
  h.of_edit (e := .addRoot) trivial a.forest_addRoot fun _ _ hc => keyed_push h hc

theorem WellFormed.exists_addChild (h : a.WellFormed) {parent : Nat} (hparent : parent < a.size) :
    ∃ b, a.addChild? parent = some b ∧ b.WellFormed ∧ b.forest = a.forest.addChild parent := by
  have hlt : parent < (Arena.mk (a.cells.push (.empty (some parent)))).size := by
    simp only [size, Array.size_push] at hparent ⊢
    omega
  have hforest := forest_modify (Arena.mk (a.cells.push (.empty (some parent)))) parent
    fun c _ => c.scope_addChild a.size
  rw [forest_push] at hforest
  have hadded : (Arena.mk ((a.cells.push (.empty (some parent))).modify parent
      (.addChild a.size))).forest = a.forest.addChild parent := by
    rw [hforest, ScopeForest.addChild, size_forest]
  have hfits : (ForestEdit.addChild parent).Fits a.forest := by
    rw [ForestEdit.Fits, size_forest]
    exact hparent
  refine ⟨_, if_pos hlt, h.of_edit hfits hadded ?_, hadded⟩
  exact keyed_modify (fun c hc => hc) fun i c hc => keyed_push h hc

theorem WellFormed.exists_throw (h : a.WellFormed) (hid : id < a.size) (fault : ThrownFault) :
    ∃ b, a.throw? id fault = some b ∧ b.WellFormed ∧ b.forest = a.forest.throw id fault := by
  have hforest := a.forest_modify id fun c hc => (h.keyed_cell hc).scope_throw fault
  have hfits : (ForestEdit.throw id fault).Fits a.forest := by
    rw [ForestEdit.Fits, size_forest]
    exact hid
  refine ⟨_, if_pos hid, h.of_edit hfits hforest ?_, hforest⟩
  exact keyed_modify (fun c hc => hc.throw fault) fun i c hc => h.keyed_cell hc

theorem WellFormed.exists_handle (h : a.WellFormed) (hid : id < a.size) (handler : String) :
    ∃ b, a.handle? id handler = some b ∧ b.WellFormed ∧
      b.forest = a.forest.handle id (FaultFlow.caughtFault handler) := by
  have hforest := a.forest_modify id fun c _ => c.scope_handle handler
  have hfits : (ForestEdit.handle id handler).Fits a.forest := by
    rw [ForestEdit.Fits, size_forest]
    exact hid
  refine ⟨_, if_pos hid, h.of_edit hfits hforest ?_, hforest⟩
  exact keyed_modify (fun c hc => hc) fun i c hc => h.keyed_cell hc

theorem WellFormed.exists_settle (h : a.WellFormed) (hid : id < a.size) :
    ∃ b, a.settle? id = some b ∧ b.WellFormed ∧ b.forest = a.forest.modify id .settle := by
  have hforest := a.forest_modify id fun c hc => (h.keyed_cell hc).scope_settle
  have hlinks : a.forest.SameLinks (a.forest.modify id .settle) :=
    ScopeForest.sameLinks_modify _ id _ (fun _ => rfl) fun _ => rfl
  refine ⟨_, if_pos hid, wellFormed_iff.mpr ⟨?_, ?_, ?_⟩, hforest⟩
  · rw [hforest]
    exact h.sound.of_sameLinks hlinks
  · intro i
    rw [hforest, hlinks.children_eq, children_forest]
    exact h.increasing i
  · exact keyed_modify (fun c hc => hc.settle) fun i c hc => h.keyed_cell hc

theorem size_of_forest_modify {change : Scope → Scope}
    (hforest : b.forest = a.forest.modify id change) : b.size = a.size := by
  rw [← size_forest b, hforest, ScopeForest.size_modify, size_forest]

theorem parent?_of_cell {c : Cell} (hc : a.cells[id]? = some c) : a.parent? id = c.parent := by
  simp [parent?, hc]

theorem children_of_cell {c : Cell} (hc : a.cells[id]? = some c) :
    a.children id = c.children := by
  simp [children, hc]

theorem WellFormed.lt_size_of_child (h : a.WellFormed) {c : Cell} (hc : a.cells[id]? = some c)
    {child : Nat} (hchild : child ∈ c.children) : id < child ∧ child < a.size := by
  have hmem : child ∈ a.forest.children id := by
    rw [children_forest, children_of_cell hc]
    exact hchild
  exact ⟨h.sound.lt_of_mem_children hmem,
    size_forest a ▸ h.sound.lt_size_of_mem_children hmem⟩

theorem WellFormed.lt_size_of_parent (h : a.WellFormed) (hid : id < a.size) {c : Cell}
    (hc : a.cells[id]? = some c) {parent : Nat} (hparent : c.parent = some parent) :
    parent < a.size := by
  have hlt := h.parent_lt ((parent?_of_cell hc).trans hparent)
  omega

end Arena

end ServiceCheck
