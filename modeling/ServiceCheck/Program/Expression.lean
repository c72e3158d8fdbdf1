import ServiceCheck.Double.Basic
import ServiceCheck.Program.TypeDefinition

set_option autoImplicit false

namespace ServiceCheck

inductive Literal where
  | int (value : Int32)
  | long (value : Int64)
  | double (value : Double)
  | bool (value : Bool)
  | string (value : String)
deriving DecidableEq, Repr

/-- Literals are equal as values: the two zeros of `double` are one. -/
def Literal.agrees : Literal → Literal → Bool
  | .double x, .double y => x.agrees y
  | x, y => x = y

inductive Arithmetic where
  | add
  | subtract
  | multiply
  | divide
  | modulus
deriving DecidableEq, Repr

inductive Comparison where
  | equal
  | notEqual
  | less
  | lessOrEqual
  | greater
  | greaterOrEqual
deriving DecidableEq, Repr

/-- Where a path is rooted: in the session, in `global`, or among the correlation variables. -/
inductive PathKind where
  | normal
  | global
  | correlation
deriving DecidableEq, Repr

mutual

inductive Expression where
  | literal (value : Literal)
  | read (path : VariablePath)
  | sum (operands : List (Arithmetic × Expression))
  | product (operands : List (Arithmetic × Expression))
  | or (children : List Expression)
  | and (children : List Expression)
  | not (inner : Expression)
  | compare (comparison : Comparison) (left right : Expression)
  | vectorSize (path : VariablePath)
  | isType (path : VariablePath)
  | instanceOf (inner : Expression) (target : TypeDefinition)
  | cast (inner : Expression) (target : NativeType)
  | inlineTree (root : Expression) (edits : List TreeEdit)
  | fresh
  | void
  /-- A variable bound when a fault handler is installed. -/
  | installFixed (path : VariablePath)
deriving Repr

/-- `a.b[i].c`, one step for each key with its index. -/
structure VariablePath where
  position : Position
  kind : PathKind
  steps : List PathStep
deriving Repr

structure PathStep where
  key : Expression
  index : Option Expression
deriving Repr

/-- One step in the construction of a tree: `.a = 1`, `.b << x`, `.c -> y`. -/
inductive TreeEdit where
  | assign (path : VariablePath) (value : Expression)
  | deepCopy (path : VariablePath) (value : Expression)
  | pointsTo (path target : VariablePath)
deriving Repr

end

namespace Expression

def string (value : String) : Expression := .literal (.string value)

def int (value : Int32) : Expression := .literal (.int value)

def constantString? : Expression → Option String
  | .literal (.string s) => some s
  | _ => none

def isConstantInt : Expression → Bool
  | .literal (.int _) => true
  | _ => false

end Expression

mutual

/-- Equality in every field. Positions count; numbers and type blocks compare as values. -/
def Expression.agrees : Expression → Expression → Bool
  | .literal x, .literal y => x.agrees y
  | .read p, .read q => p.agrees q
  | .sum xs, .sum ys => Expression.operandsAgree xs ys
  | .product xs, .product ys => Expression.operandsAgree xs ys
  | .or xs, .or ys => Expression.childrenAgree xs ys
  | .and xs, .and ys => Expression.childrenAgree xs ys
  | .not x, .not y => x.agrees y
  | .compare c x x', .compare d y y' => c = d && x.agrees y && x'.agrees y'
  | .vectorSize p, .vectorSize q => p.agrees q
  | .isType p, .isType q => p.agrees q
  | .instanceOf x t, .instanceOf y u => x.agrees y && t.agrees u
  | .cast x t, .cast y u => x.agrees y && t = u
  | .inlineTree x es, .inlineTree y fs => x.agrees y && TreeEdit.allAgree es fs
  | .fresh, .fresh => true
  | .void, .void => true
  | .installFixed p, .installFixed q => p.agrees q
  | _, _ => false

def Expression.operandsAgree :
    List (Arithmetic × Expression) → List (Arithmetic × Expression) → Bool
  | [], [] => true
  | (a, x) :: xs, (b, y) :: ys => a = b && x.agrees y && Expression.operandsAgree xs ys
  | _, _ => false

def Expression.childrenAgree : List Expression → List Expression → Bool
  | [], [] => true
  | x :: xs, y :: ys => x.agrees y && Expression.childrenAgree xs ys
  | _, _ => false

def VariablePath.agrees : VariablePath → VariablePath → Bool
  | ⟨p, k, ss⟩, ⟨q, l, ts⟩ => p = q && k = l && PathStep.allAgree ss ts

def PathStep.allAgree : List PathStep → List PathStep → Bool
  | [], [] => true
  | ⟨k, none⟩ :: ss, ⟨l, none⟩ :: ts => k.agrees l && PathStep.allAgree ss ts
  | ⟨k, some i⟩ :: ss, ⟨l, some j⟩ :: ts =>
    k.agrees l && i.agrees j && PathStep.allAgree ss ts
  | _, _ => false

def TreeEdit.allAgree : List TreeEdit → List TreeEdit → Bool
  | [], [] => true
  | .assign p x :: es, .assign q y :: fs => p.agrees q && x.agrees y && TreeEdit.allAgree es fs
  | .deepCopy p x :: es, .deepCopy q y :: fs =>
    p.agrees q && x.agrees y && TreeEdit.allAgree es fs
  | .pointsTo p t :: es, .pointsTo q u :: fs =>
    p.agrees q && t.agrees u && TreeEdit.allAgree es fs
  | _, _ => false

end

namespace PathStep

def named (key : String) : PathStep := ⟨.string key, none⟩

/-- The key is a constant string and the index, if any, a constant integer. -/
def isStatic (s : PathStep) : Bool :=
  s.key.constantString?.isSome && s.index.all (·.isConstantInt)

end PathStep

namespace VariablePath

def ofKeys (keys : List String) : VariablePath := ⟨.unknown, .normal, keys.map .named⟩

def isGlobal (p : VariablePath) : Bool := p.kind = .global

def isCorrelation (p : VariablePath) : Bool := p.kind = .correlation

def isStatic (p : VariablePath) : Bool := p.steps.all (·.isStatic)

/-- The first key, when it is a constant string. -/
def rootName? (p : VariablePath) : Option String := p.steps.head?.bind (·.key.constantString?)

def keys? (p : VariablePath) : Option (List String) := p.steps.mapM (·.key.constantString?)

/-- Equality of kind, keys and indexes, wherever the paths were written. -/
def samePath (p q : VariablePath) : Bool := p.kind = q.kind && PathStep.allAgree p.steps q.steps

def text (p : VariablePath) : String :=
  match p.keys? with
  | some keys => ".".intercalate keys
  | none => "<dynamic>"

end VariablePath

end ServiceCheck
