/-!
Scopes that faults are thrown and caught in. The scopes of a forest are numbered in the order of
their creation, so that a parent has a smaller number than its children. Operations on a number
that no scope has change nothing.
-/

set_option autoImplicit false

namespace ServiceCheck

/-- A fault that may leave a scope. The origin, `operation@port`, is given where the fault is one
that a called operation declares. -/
structure ThrownFault where
  name : String
  origin : Option String
deriving DecidableEq, Repr

inductive CaughtFault where
  | named (name : String)
  | all
deriving DecidableEq, Repr

/-- `newestFirst` holds the numbers of the children, `thrown` at most one fault of each name. -/
structure Scope where
  parent : Option Nat
  newestFirst : List Nat
  thrown : List ThrownFault
  caught : List CaughtFault
deriving DecidableEq, Repr

namespace Scope

def empty (parent : Option Nat) : Scope := ⟨parent, [], [], []⟩

def children (s : Scope) : List Nat := s.newestFirst.reverse

def addChild (id : Nat) (s : Scope) : Scope := { s with newestFirst := id :: s.newestFirst }

theorem children_addChild (id : Nat) (s : Scope) :
    (s.addChild id).children = s.children ++ [id] := by
  simp [children, addChild]

/-- The first fault of a name is kept. -/
def throw (fault : ThrownFault) (s : Scope) : Scope :=
  if s.thrown.any (·.name = fault.name) then s else { s with thrown := s.thrown ++ [fault] }

def handle (fault : CaughtFault) (s : Scope) : Scope := { s with caught := s.caught ++ [fault] }

def catches (name : String) (s : Scope) : Bool :=
  s.caught.contains .all || s.caught.contains (.named name)

/-- Drops the faults that the scope catches. -/
def settle (s : Scope) : Scope :=
  { s with thrown := s.thrown.filter fun fault => !s.catches fault.name }

end Scope

structure ScopeForest where
  scopes : Array Scope
deriving DecidableEq, Repr

namespace ScopeForest

def empty : ScopeForest := ⟨#[]⟩

def size (f : ScopeForest) : Nat := f.scopes.size

def contains (f : ScopeForest) (id : Nat) : Bool := id < f.size

/-- The number of the new scope itself counts as well: a scope can be put under itself. -/
def acceptsChild (f : ScopeForest) (parent : Nat) : Bool := parent ≤ f.size

def modify (id : Nat) (change : Scope → Scope) (f : ScopeForest) : ScopeForest :=
  ⟨f.scopes.modify id change⟩

def addRoot (f : ScopeForest) : ScopeForest := ⟨f.scopes.push (.empty none)⟩

def addChild (parent : Nat) (f : ScopeForest) : ScopeForest :=
  let id := f.size
  (ScopeForest.mk (f.scopes.push (.empty (some parent)))).modify parent (.addChild id)

theorem size_modify (id : Nat) (change : Scope → Scope) (f : ScopeForest) :
    (f.modify id change).size = f.size := by
  simp [modify, size]

theorem size_addRoot (f : ScopeForest) : f.addRoot.size = f.size + 1 := by
  simp [addRoot, size]

theorem size_addChild (parent : Nat) (f : ScopeForest) :
    (f.addChild parent).size = f.size + 1 := by
  simp [addChild, size_modify]
  simp [size]

def parent? (f : ScopeForest) (id : Nat) : Option Nat := f.scopes[id]?.bind (·.parent)

def children (f : ScopeForest) (id : Nat) : List Nat := (f.scopes[id]?.map (·.children)).getD []

def thrown (f : ScopeForest) (id : Nat) : List ThrownFault :=
  (f.scopes[id]?.map (·.thrown)).getD []

def throw (id : Nat) (fault : ThrownFault) (f : ScopeForest) : ScopeForest :=
  f.modify id (.throw fault)

def handle (id : Nat) (fault : CaughtFault) (f : ScopeForest) : ScopeForest :=
  f.modify id (.handle fault)

/-- Hands the remaining faults of a scope to its parent. -/
def handUp (id : Nat) (f : ScopeForest) : ScopeForest :=
  match f.parent? id with
  | none => f
  | some parent => (f.thrown id).foldl (fun f fault => f.throw parent fault) f

/-- Resolves scopes nested to a bounded depth. -/
def resolveUpTo : Nat → ScopeForest → Nat → ScopeForest
  | 0, f, _ => f
  | depth + 1, f, id =>
    (((f.children id).foldl (resolveUpTo depth) f).modify id .settle).handUp id

/-- Moves faults upwards in the tree under a scope: each scope takes in what its children let
through, drops what it catches, and hands the rest to its parent. -/
def resolve (id : Nat) (f : ScopeForest) : ScopeForest := resolveUpTo f.size f id

end ScopeForest

end ServiceCheck
