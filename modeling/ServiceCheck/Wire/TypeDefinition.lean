import ServiceCheck.Program.TypeDefinition
import ServiceCheck.Wire.Decoder

set_option autoImplicit false

namespace ServiceCheck

open Decoder (required defaulted)

def Json.tagged (tag : String) (content : Json) : Json := Json.record [(tag, content)]

def Json.dictionary (members : List (String × Json)) : Json := Json.record members

def Position.toJson (p : Position) : Json :=
  Json.record [("source", Json.text p.source), ("line", Json.int p.line.toNat)]

def Position.decoder : Decoder Position :=
  Decoder.record (Position.mk <$> required "source" .string <*> required "line" .uint32)

/-- The position of a record that may leave it out. -/
def Decoder.position : Decoder.Fields Position := defaulted "ctx" .unknown Position.decoder

def NativeType.names : List (String × NativeType) := NativeType.all.map fun n => (n.id, n)

def NativeType.toJson (n : NativeType) : Json := Json.text n.id

def NativeType.decoder : Decoder NativeType := Decoder.named NativeType.names

def Cardinality.toJson (c : Cardinality) : Json :=
  Json.record [("min", Json.int c.min.toInt), ("max", Json.int c.max.toInt)]

def Cardinality.decoder : Decoder Cardinality :=
  Decoder.record (Cardinality.mk <$> required "min" .int32 <*> required "max" .int32)

namespace TypeDefinition

def tag : TypeDefinition → String
  | .inline .. => "inline"
  | .link .. => "link"
  | .choice .. => "choice"

mutual

def contentJson : TypeDefinition → Json
  | .inline h n s u => Json.record
      [("ctx", h.position.toJson), ("id", Json.text h.id), ("native_type", n.toJson),
        ("cardinality", h.cardinality.toJson), ("sub_types", blockJson s),
        ("untyped_sub_types", .bool u)]
  | .link h t => Json.record
      [("ctx", h.position.toJson), ("id", Json.text h.id),
        ("cardinality", h.cardinality.toJson), ("linked_type_name", Json.text t)]
  | .choice h l r => Json.record
      [("ctx", h.position.toJson), ("id", Json.text h.id),
        ("cardinality", h.cardinality.toJson), ("left", Json.tagged l.tag l.contentJson),
        ("right", Json.tagged r.tag r.contentJson)]

def blockJson : Option (List (String × TypeDefinition)) → Json
  | none => .null
  | some members => Json.dictionary (membersJson members)

def membersJson : List (String × TypeDefinition) → List (String × Json)
  | [] => []
  | (key, t) :: rest => (key, Json.tagged t.tag t.contentJson) :: membersJson rest

end

def toJson (t : TypeDefinition) : Json := Json.tagged t.tag t.contentJson

def inlineFields (self : Decoder TypeDefinition) : Decoder.Fields TypeDefinition :=
  (fun p i n c s u => .inline ⟨p, i, c⟩ n s u) <$> Decoder.position <*> required "id" .string <*>
    required "native_type" NativeType.decoder <*>
    defaulted "cardinality" .one Cardinality.decoder <*>
    defaulted "sub_types" none (.optional (.dictionary self)) <*>
    defaulted "untyped_sub_types" false .bool

def linkFields : Decoder.Fields TypeDefinition :=
  (fun p i c t => .link ⟨p, i, c⟩ t) <$> Decoder.position <*> required "id" .string <*>
    defaulted "cardinality" .one Cardinality.decoder <*> required "linked_type_name" .string

def choiceFields (self : Decoder TypeDefinition) : Decoder.Fields TypeDefinition :=
  (fun p i c l r => .choice ⟨p, i, c⟩ l r) <$> Decoder.position <*> required "id" .string <*>
    defaulted "cardinality" .one Cardinality.decoder <*> required "left" self <*>
    required "right" self

def decoderUpTo : Nat → Nat → Json → Except DecodeError TypeDefinition
  | 0, _, _ => .error .malformed
  | depth + 1, room, j =>
    Decoder.choice
      [("inline", .value (.record (inlineFields (decoderUpTo depth)))),
        ("link", .value (.record linkFields)),
        ("choice", .value (.record (choiceFields (decoderUpTo depth))))] room j

/-- A definition inside another opens a bracket, so the room left bounds the depth. -/
def decoder : Decoder TypeDefinition := fun room j => decoderUpTo (room + 1) room j

end TypeDefinition

def TypeMap.decoder : Decoder TypeMap := Decoder.dictionary TypeDefinition.decoder

def TypeMap.toJson (types : TypeMap) : Json :=
  Json.dictionary (types.map fun (name, t) => (name, t.toJson))

end ServiceCheck
