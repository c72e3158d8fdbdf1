import ServiceCheck.Program.Expression
import ServiceCheck.Wire.TypeDefinition

set_option autoImplicit false

namespace ServiceCheck

open Decoder (required defaulted)

def Literal.toJson : Literal → Json
  | .int i => Json.tagged "int" (Json.int i.toInt)
  | .long i => Json.tagged "long" (Json.int i.toInt)
  | .double x => Json.tagged "double" (Json.double x)
  | .bool b => Json.tagged "bool" (.bool b)
  | .string s => Json.tagged "string" (Json.text s)

def Literal.decoder : Decoder Literal :=
  Decoder.choice
    [("int", .value fun room j => (Decoder.int32 room j).map .int),
      ("long", .value fun room j => (Decoder.int64 room j).map .long),
      ("double", .value fun room j => (Decoder.double room j).map .double),
      ("bool", .value fun room j => (Decoder.bool room j).map .bool),
      ("string", .value fun room j => (Decoder.string room j).map .string)]

def Arithmetic.names : List (String × Arithmetic) :=
  [("add", .add), ("subtract", .subtract), ("multiply", .multiply), ("divide", .divide),
    ("modulus", .modulus)]

def Comparison.names : List (String × Comparison) :=
  [("equal", .equal), ("not_equal", .notEqual), ("less", .less),
    ("less_or_equal", .lessOrEqual), ("greater", .greater),
    ("greater_or_equal", .greaterOrEqual)]

def PathKind.names : List (String × PathKind) :=
  [("normal", .normal), ("global", .global), ("correlation_set", .correlation)]

def PathKind.name (k : PathKind) : String := nameIn PathKind.names k

namespace Expression

def tag : Expression → String
  | .literal _ => "constant"
  | .read _ => "variable"
  | .sum _ => "sum"
  | .product _ => "product"
  | .or _ => "or"
  | .and _ => "and"
  | .not _ => "not"
  | .compare .. => "compare"
  | .vectorSize _ => "vector_size"
  | .isType _ => "is_type"
  | .instanceOf .. => "instance_of"
  | .cast .. => "cast"
  | .inlineTree .. => "inline_tree"
  | .fresh => "fresh"
  | .void => "void"
  | .installFixed _ => "install_fixed_variable"

end Expression

mutual

def Expression.toJson : Expression → Json
  | .literal v => Json.tagged "constant" v.toJson
  | .read p => Json.tagged "variable" p.toJson
  | .sum xs => Json.tagged "sum" (Json.list (Expression.operandsJson xs))
  | .product xs => Json.tagged "product" (Json.list (Expression.operandsJson xs))
  | .or xs => Json.tagged "or" (Json.list (Expression.childrenJson xs))
  | .and xs => Json.tagged "and" (Json.list (Expression.childrenJson xs))
  | .not x => Json.tagged "not" x.toJson
  | .compare c x y => Json.tagged "compare" (Json.record
      [("operator", Json.text (nameIn Comparison.names c)), ("left", x.toJson),
        ("right", y.toJson)])
  | .vectorSize p => Json.tagged "vector_size" p.toJson
  | .isType p => Json.tagged "is_type" p.toJson
  | .instanceOf x t => Json.tagged "instance_of" (Json.record
      [("expression", x.toJson), ("target", t.toJson)])
  | .cast x t => Json.tagged "cast" (Json.record
      [("expression", x.toJson), ("target", t.toJson)])
  | .inlineTree x edits => Json.tagged "inline_tree" (Json.record
      [("root", x.toJson), ("operations", Json.list (TreeEdit.listJson edits))])
  | .fresh => Json.text "fresh"
  | .void => Json.text "void"
  | .installFixed p => Json.tagged "install_fixed_variable" p.toJson

def Expression.operandsJson : List (Arithmetic × Expression) → List Json
  | [] => []
  | (a, x) :: rest =>
    Json.list [Json.text (nameIn Arithmetic.names a), x.toJson] :: Expression.operandsJson rest

def Expression.childrenJson : List Expression → List Json
  | [] => []
  | x :: rest => x.toJson :: Expression.childrenJson rest

def VariablePath.toJson : VariablePath → Json
  | ⟨position, kind, steps⟩ => Json.record
      [("ctx", position.toJson), ("path_type", Json.text kind.name),
        ("steps", Json.list (PathStep.listJson steps))]

def PathStep.listJson : List PathStep → List Json
  | [] => []
  | ⟨key, none⟩ :: rest =>
    Json.record [("key", key.toJson), ("index", .null)] :: PathStep.listJson rest
  | ⟨key, some index⟩ :: rest =>
    Json.record [("key", key.toJson), ("index", index.toJson)] :: PathStep.listJson rest

def TreeEdit.listJson : List TreeEdit → List Json
  | [] => []
  | .assign p x :: rest =>
    Json.tagged "assign" (Json.record [("path", p.toJson), ("expression", x.toJson)]) ::
      TreeEdit.listJson rest
  | .deepCopy p x :: rest =>
    Json.tagged "deep_copy" (Json.record [("path", p.toJson), ("expression", x.toJson)]) ::
      TreeEdit.listJson rest
  | .pointsTo p t :: rest =>
    Json.tagged "points_to" (Json.record [("path", p.toJson), ("target", t.toJson)]) ::
      TreeEdit.listJson rest

end

namespace Expression

def stepDecoder (self : Decoder Expression) : Decoder PathStep :=
  .record (PathStep.mk <$> required "key" self <*> defaulted "index" none (.optional self))

def pathDecoder (self : Decoder Expression) : Decoder VariablePath :=
  .record (VariablePath.mk <$> Decoder.position <*>
    defaulted "path_type" .normal (.named PathKind.names) <*>
    required "steps" (.list (stepDecoder self)))

def editDecoder (self : Decoder Expression) : Decoder TreeEdit :=
  .choice
    [("assign", .value (.record (TreeEdit.assign <$> required "path" (pathDecoder self) <*>
        required "expression" self))),
      ("deep_copy", .value (.record (TreeEdit.deepCopy <$> required "path" (pathDecoder self) <*>
        required "expression" self))),
      ("points_to", .value (.record (TreeEdit.pointsTo <$> required "path" (pathDecoder self) <*>
        required "target" (pathDecoder self))))]

def operandDecoder (self : Decoder Expression) : Decoder (Arithmetic × Expression) :=
  .pair (.named Arithmetic.names) self

def variants (self : Decoder Expression) : List (String × Decoder.Content Expression) :=
  let path (make : VariablePath → Expression) : Decoder.Content Expression :=
    .value fun room j => (pathDecoder self room j).map make
  [("constant", .value fun room j => (Literal.decoder room j).map .literal),
    ("variable", path .read),
    ("sum", .value fun room j => (Decoder.list (operandDecoder self) room j).map .sum),
    ("product", .value fun room j => (Decoder.list (operandDecoder self) room j).map .product),
    ("or", .value fun room j => (Decoder.list self room j).map .or),
    ("and", .value fun room j => (Decoder.list self room j).map .and),
    ("not", .value fun room j => (self room j).map .not),
    ("compare", .value (.record (Expression.compare <$>
      required "operator" (.named Comparison.names) <*> required "left" self <*>
      required "right" self))),
    ("vector_size", path .vectorSize),
    ("is_type", path .isType),
    ("instance_of", .value (.record (Expression.instanceOf <$> required "expression" self <*>
      required "target" TypeDefinition.decoder))),
    ("cast", .value (.record (Expression.cast <$> required "expression" self <*>
      required "target" NativeType.decoder))),
    ("inline_tree", .value (.record (Expression.inlineTree <$> required "root" self <*>
      required "operations" (.list (editDecoder self))))),
    ("fresh", .unit .fresh),
    ("void", .unit .void),
    ("install_fixed_variable", path .installFixed)]

def decoderUpTo : Nat → Nat → Json → Except DecodeError Expression
  | 0, _, _ => .error .malformed
  | depth + 1, room, j => Decoder.choice (variants (decoderUpTo depth)) room j

def decoder : Decoder Expression := fun room j => decoderUpTo (room + 1) room j

end Expression

def VariablePath.decoder : Decoder VariablePath := Expression.pathDecoder Expression.decoder

end ServiceCheck
