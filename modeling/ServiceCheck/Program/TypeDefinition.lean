import ServiceCheck.Dictionary

set_option autoImplicit false

namespace ServiceCheck

/-- A source name and a line counted from 1; line 0 says that no line was recorded. -/
structure Position where
  source : String
  line : UInt32
deriving DecidableEq, Repr

namespace Position

def unknown : Position := ⟨"", 0⟩

def isKnown (p : Position) : Bool := p.source != "" || p.line != 0

def text (p : Position) : String := p.source ++ ":" ++ p.line.toNat.repr

def orElse (p fallback : Position) : Position := if p.isKnown then p else fallback

end Position

inductive NativeType where
  | void
  | bool
  | int
  | long
  | double
  | string
  | raw
  | any
deriving DecidableEq, Repr

namespace NativeType

def all : List NativeType := [.void, .bool, .int, .long, .double, .string, .raw, .any]

def id : NativeType → String
  | .void => "void"
  | .bool => "bool"
  | .int => "int"
  | .long => "long"
  | .double => "double"
  | .string => "string"
  | .raw => "raw"
  | .any => "any"

def ofId? (id : String) : Option NativeType := all.find? (·.id = id)

theorem mem_all (t : NativeType) : t ∈ all := by cases t <;> simp [all]

end NativeType

/-- How often a node may occur. Negative bounds can be written and are reported later. -/
structure Cardinality where
  min : Int32
  max : Int32
deriving DecidableEq, Repr

namespace Cardinality

def unbounded : Int32 := 2147483647

def one : Cardinality := ⟨1, 1⟩

def text (c : Cardinality) : String :=
  let upper := if c.max = unbounded then "*" else toString c.max.toInt
  "[" ++ toString c.min.toInt ++ "," ++ upper ++ "]"

end Cardinality

structure TypeHead where
  position : Position
  id : String
  cardinality : Cardinality
deriving DecidableEq, Repr

def TypeHead.plain (id : String) : TypeHead := ⟨.unknown, id, .one⟩

/-- `subTypes` is `none` where no block was written; `untyped` accepts any sub-tree. -/
inductive TypeDefinition where
  | inline (head : TypeHead) (native : NativeType)
      (subTypes : Option (List (String × TypeDefinition))) (untyped : Bool)
  | link (head : TypeHead) (target : String)
  | choice (head : TypeHead) (left right : TypeDefinition)
deriving Repr

abbrev TypeMap := Dictionary TypeDefinition

namespace TypeDefinition

def head : TypeDefinition → TypeHead
  | .inline h _ _ _ => h
  | .link h _ => h
  | .choice h _ _ => h

def mapHead (f : TypeHead → TypeHead) : TypeDefinition → TypeDefinition
  | .inline h n s u => .inline (f h) n s u
  | .link h t => .link (f h) t
  | .choice h l r => .choice (f h) l r

def id (t : TypeDefinition) : String := t.head.id

def position (t : TypeDefinition) : Position := t.head.position

def cardinality (t : TypeDefinition) : Cardinality := t.head.cardinality

def withCardinality (c : Cardinality) : TypeDefinition → TypeDefinition :=
  mapHead ({ · with cardinality := c })

def withPosition (p : Position) : TypeDefinition → TypeDefinition :=
  mapHead ({ · with position := p })

def native (id : String) (n : NativeType) : TypeDefinition := .inline (.plain id) n none false

/-- A link that bears the name of its target, as in the signature of an operation. -/
def named (name : String) : TypeDefinition := .link (.plain name) name

/-- Only an in-line definition has a block; there the sub-type is filed under its own name. -/
def addSubType (t sub : TypeDefinition) : TypeDefinition :=
  match t with
  | .inline h n s u => .inline h n (some (Dictionary.set (s.getD []) sub.id sub)) u
  | t => t

def acceptUntyped : TypeDefinition → TypeDefinition
  | .inline h n s _ => .inline h n s true
  | t => t

mutual

def size : TypeDefinition → Nat
  | .inline _ _ s _ => 1 + blockSize s
  | .link _ _ => 1
  | .choice _ l r => 1 + l.size + r.size

def blockSize : Option (List (String × TypeDefinition)) → Nat
  | none => 0
  | some members => membersSize members

def membersSize : List (String × TypeDefinition) → Nat
  | [] => 0
  | (_, t) :: rest => t.size + membersSize rest

end

mutual

/-- Equality in every field, except that blocks compare without regard to order. -/
def agrees : TypeDefinition → TypeDefinition → Bool
  | .inline h n s u, .inline h' n' s' u' =>
    h = h' && n = n' && blockAgrees s s' && u == u'
  | .link h t, .link h' t' => h = h' && t = t'
  | .choice h l r, .choice h' l' r' => h = h' && l.agrees l' && r.agrees r'
  | _, _ => false

def blockAgrees : Option (List (String × TypeDefinition)) →
    Option (List (String × TypeDefinition)) → Bool
  | none, none => true
  | some members, some others =>
    members.length == others.length && membersAgree members others
  | _, _ => false

def membersAgree : List (String × TypeDefinition) → List (String × TypeDefinition) → Bool
  | [], _ => true
  | (key, t) :: rest, others =>
    (match Dictionary.get? others key with
      | some other => t.agrees other
      | none => false) && membersAgree rest others

end

mutual

/-- The definitions written inside, this one first and in document order. -/
def nodes : TypeDefinition → List TypeDefinition
  | .inline h n s u => .inline h n s u :: blockNodes s
  | .link h t => [.link h t]
  | .choice h l r => .choice h l r :: (l.nodes ++ r.nodes)

def blockNodes : Option (List (String × TypeDefinition)) → List TypeDefinition
  | none => []
  | some members => membersNodes members

def membersNodes : List (String × TypeDefinition) → List TypeDefinition
  | [] => []
  | (_, t) :: rest => t.nodes ++ membersNodes rest

end

end TypeDefinition

def undefinedType : String := "undefined"

def TypeMap.natives : TypeMap :=
  NativeType.all.map (fun n => (n.id, TypeDefinition.native n.id n)) ++
    [(undefinedType, (TypeDefinition.native undefinedType .any).acceptUntyped)]

end ServiceCheck
