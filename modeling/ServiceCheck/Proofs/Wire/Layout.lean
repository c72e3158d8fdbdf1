import ServiceCheck.Wire.Declaration

/-!
The written form as data: which parts are records, which of their fields may be left out, and where
order and names carry meaning. A record can be worded in many ways that mean the same.
-/

set_option autoImplicit false

namespace ServiceCheck

inductive Part where
  | type
  | expression
  | statement
deriving DecidableEq, Repr

/-- A field of a record. One that may be left out tells for which values this changes nothing,
given the arrays and objects that may still be opened. -/
structure Slot (σ : Type) where
  name : String
  omissible : Option (Nat → Json → Prop)
  content : σ

inductive Layout where
  | plain
  | optional (inner : Layout)
  | list (item : Layout)
  | pair (first second : Layout)
  | dictionary (value : Layout)
  | variants (contents : List (String × Option Layout))
  | record (slots : List (Slot Layout))
  | part (p : Part)

namespace Slot

def required (name : String) (content : Layout) : Slot Layout := ⟨name, none, content⟩

def defaulted {α : Type} (name : String) (value : α) (d : Decoder α) (content : Layout) :
    Slot Layout :=
  ⟨name, some fun room j => d room j = .ok value, content⟩

def optional {α : Type} (name : String) (d : Decoder α) (content : Layout) : Slot Layout :=
  defaulted name none (.optional d) (.optional content)

def plain (name : String) : Slot Layout := required name .plain

end Slot

def Layout.named {α : Type} (names : List (String × α)) : Layout :=
  .variants (names.map fun n => (n.1, none))

def Position.layout : Layout := .record [.plain "source", .plain "line"]

def Slot.position : Slot Layout := .defaulted "ctx" .unknown Position.decoder Position.layout

def Slot.located : Slot Layout := .required "ctx" Position.layout

def NativeType.layout : Layout := .named NativeType.names

def Slot.cardinality : Slot Layout :=
  .defaulted "cardinality" .one Cardinality.decoder (.record [.plain "min", .plain "max"])

def TypeDefinition.layout : Layout :=
  .variants
    [("inline", some (.record
      [.position, .plain "id", .required "native_type" NativeType.layout, .cardinality,
        .optional "sub_types" (.dictionary TypeDefinition.decoder) (.dictionary (.part .type)),
        .defaulted "untyped_sub_types" false .bool .plain])),
      ("link", some (.record [.position, .plain "id", .cardinality, .plain "linked_type_name"])),
      ("choice", some (.record
        [.position, .plain "id", .cardinality, .required "left" (.part .type),
          .required "right" (.part .type)]))]

def Literal.layout : Layout :=
  .variants
    [("int", some .plain), ("long", some .plain), ("double", some .plain), ("bool", some .plain),
      ("string", some .plain)]

def PathStep.layout : Layout :=
  .record
    [.required "key" (.part .expression),
      .optional "index" Expression.decoder (.part .expression)]

def VariablePath.layout : Layout :=
  .record
    [.position, .defaulted "path_type" .normal (.named PathKind.names) (.named PathKind.names),
      .required "steps" (.list PathStep.layout)]

def Slot.path (name : String) : Slot Layout := required name VariablePath.layout

def Slot.optionalPath (name : String) : Slot Layout :=
  optional name VariablePath.decoder VariablePath.layout

def Slot.expression (name : String) : Slot Layout := required name (.part .expression)

def Slot.optionalExpression (name : String) : Slot Layout :=
  optional name Expression.decoder (.part .expression)

def Slot.statement (name : String) : Slot Layout := required name (.part .statement)

def TreeEdit.layout : Layout :=
  .variants
    [("assign", some (.record [.path "path", .expression "expression"])),
      ("deep_copy", some (.record [.path "path", .expression "expression"])),
      ("points_to", some (.record [.path "path", .path "target"]))]

def Expression.layout : Layout :=
  .variants
    [("constant", some Literal.layout), ("variable", some VariablePath.layout),
      ("sum", some (.list (.pair (.named Arithmetic.names) (.part .expression)))),
      ("product", some (.list (.pair (.named Arithmetic.names) (.part .expression)))),
      ("or", some (.list (.part .expression))), ("and", some (.list (.part .expression))),
      ("not", some (.part .expression)),
      ("compare", some (.record
        [.required "operator" (.named Comparison.names), .expression "left", .expression "right"])),
      ("vector_size", some VariablePath.layout), ("is_type", some VariablePath.layout),
      ("instance_of", some (.record [.expression "expression", .required "target" (.part .type)])),
      ("cast", some (.record [.expression "expression", .required "target" NativeType.layout])),
      ("inline_tree", some (.record
        [.expression "root", .required "operations" (.list TreeEdit.layout)])),
      ("fresh", none), ("void", none), ("install_fixed_variable", some VariablePath.layout)]

namespace Statement

def leafSlots : List (String × List (Slot Layout)) :=
  [("one_way", [.position, .plain "id", .optionalPath "input_path"]),
    ("notification",
      [.position, .plain "id", .plain "output_port_id", .optionalExpression "output_expression"]),
    ("solicit_response",
      [.position, .plain "id", .plain "output_port_id", .optionalExpression "output_expression",
        .optionalPath "input_path"]),
    ("assign", [.located, .path "path", .expression "expression"]),
    ("compound_assign",
      [.located, .required "operator" (.named AssignOperator.names), .path "path",
        .expression "expression"]),
    ("pointer", [.located, .path "left", .path "right"]),
    ("deep_copy", [.located, .path "left", .expression "right"]),
    ("step", [.located, .required "kind" (.named StepKind.names), .path "path"]),
    ("undef", [.located, .path "path"]),
    ("call", [.position, .plain "id"]),
    ("throw", [.located, .plain "id", .optionalExpression "expression"]),
    ("compensate", [.located, .plain "id"]),
    ("run", [.located, .expression "expression"]),
    ("link_in", [.located, .plain "id"]),
    ("link_out", [.located, .plain "id"]),
    ("notification_forward",
      [.located, .optional "output_port_id" .string .plain, .optionalPath "output_path"]),
    ("solicit_response_forward",
      [.located, .optional "output_port_id" .string .plain, .optionalPath "output_path",
        .optionalPath "input_path"])]

def courierTargetLayout : Layout :=
  .variants [("interface", some .plain), ("operation", some .plain)]

def courierBranchLayout : Layout :=
  .record
    [.required "target" courierTargetLayout,
      .required "operation_type" (.named OperationKind.names), .optionalPath "input_path",
      .optionalPath "output_path", .statement "body"]

def nodeSlots : List (String × List (Slot Layout)) :=
  [("input_choice",
      [.position, .required "branches" (.list (.pair (.part .statement) (.part .statement)))]),
    ("request_response",
      [.position, .plain "id", .optionalPath "input_path", .optionalExpression "output_expression",
        .statement "process"]),
    ("if",
      [.located, .required "branches" (.list (.pair (.part .expression) (.part .statement))),
        .optional "else_branch" Statement.decoder (.part .statement)]),
    ("while", [.located, .expression "condition", .statement "body"]),
    ("for",
      [.located, .statement "init", .expression "condition", .statement "post", .statement "body"]),
    ("for_each",
      [.located, .required "kind" (.named ForEachKind.names), .path "key_path", .path "target_path",
        .statement "body"]),
    ("scope", [.located, .plain "id", .statement "body"]),
    ("install", [.position, .required "handlers" (.list (.pair .plain (.part .statement)))]),
    ("synchronized", [.located, .plain "id", .statement "body"]),
    ("spawn",
      [.located, .path "index_path", .expression "upper_bound", .optionalPath "in_path",
        .statement "body"]),
    ("provide_until", [.located, .statement "provide", .statement "until"]),
    ("courier_choice", [.position, .required "branches" (.list courierBranchLayout)])]

def layout : Layout :=
  .variants
    ([("nullprocess", none), ("exit", none), ("current_handler", none),
      ("sequence", some (.list (.part .statement))),
      ("parallel", some (.list (.part .statement)))] ++
    (leafSlots ++ nodeSlots).map fun (name, slots) => (name, some (.record slots)))

end Statement

def Part.layout : Part → Layout
  | .type => TypeDefinition.layout
  | .expression => Expression.layout
  | .statement => Statement.layout

def Operation.layout : Layout :=
  .variants
    [("one_way", some (.record
      [.position, .plain "id", .required "request_type" (.part .type)])),
      ("request_response", some (.record
        [.position, .plain "id", .required "request_type" (.part .type),
          .required "response_type" (.part .type),
          .defaulted "faults" [] TypeMap.decoder (.dictionary (.part .type))]))]

def Interface.layout : Layout :=
  .record
    [.position, .plain "name",
      .defaulted "operations" [] (.dictionary Operation.decoder) (.dictionary Operation.layout)]

def Aggregation.layout : Layout :=
  .record
    [.required "output_ports" (.list .plain), .optional "interface_extender" .string .plain]

def Port.slots : List (Slot Layout) :=
  [.position, .plain "id", .optional "location" .string .plain, .optional "protocol" .string .plain,
    .defaulted "operations" [] (.list Operation.decoder) (.list Operation.layout),
    .defaulted "interfaces" [] (.list Interface.decoder) (.list Interface.layout)]

def CorrelationVariable.layout : Layout :=
  .record
    [.path "path",
      .defaulted "aliases" [] (.list CorrelationAlias.decoder)
        (.list (.record [.plain "guard_name", .path "path"]))]

def Declaration.layout : Layout :=
  .variants
    [("type", some (.part .type)), ("interface", some Interface.layout),
      ("input_port", some (.record (Port.slots ++
        [.defaulted "aggregation_list" [] (.list Aggregation.decoder)
          (.list Aggregation.layout)]))),
      ("output_port", some (.record Port.slots)),
      ("execution", some (.record [.position, .required "mode" (.named ExecutionMode.names)])),
      ("correlation_set", some (.record
        [.position, .required "variables" (.list CorrelationVariable.layout)])),
      ("procedure", some (.record [.position, .plain "id", .statement "body"])),
      ("courier", some (.record [.position, .plain "input_port_name", .statement "body"])),
      ("embedded_service", some (.record
        [.position, .plain "service_type", .plain "service_path",
          .optional "port_id" .string .plain]))]

def Program.layout : Layout :=
  .record [.position, .required "children" (.list Declaration.layout)]

namespace Layout

/-- The second value is the first with one place worded otherwise: a record with its fields in
another order, without a field that has its default or with a field of an unknown name, or a bare
variant with nothing put behind its name. The number tells how many arrays and objects may still
be opened. -/
inductive Varies : Layout → Nat → Json → Json → Prop where
  | optional {inner : Layout} {room : Nat} {j j' : Json} (h : Varies inner room j j') :
    Varies (.optional inner) room j j'
  | item {item : Layout} {room : Nat} {j j' : Json} (before after : List Json) (ending : Ending)
    (h : Varies item room j j') :
    Varies (.list item) (room + 1) (.array (before ++ j :: after) ending)
      (.array (before ++ j' :: after) ending)
  | first {first second : Layout} {room : Nat} {j j' : Json} (after : List Json)
    (ending : Ending) (h : Varies first room j j') :
    Varies (.pair first second) (room + 1) (.array (j :: after) ending)
      (.array (j' :: after) ending)
  | second {first second : Layout} {room : Nat} {j j' : Json} (before : Json)
    (after : List Json) (ending : Ending) (h : Varies second room j j') :
    Varies (.pair first second) (room + 1) (.array (before :: j :: after) ending)
      (.array (before :: j' :: after) ending)
  | entry {value : Layout} {room : Nat} {j j' : Json} (key : Option String)
    (before after : List (Option String × Json)) (ending : Ending) (h : Varies value room j j') :
    Varies (.dictionary value) (room + 1) (.object (before ++ (key, j) :: after) ending)
      (.object (before ++ (key, j') :: after) ending)
  | content {contents : List (String × Option Layout)} {content : Layout} {room : Nat}
    {j j' : Json} {name : String} (after : List (Option String × Json)) (ending : Ending)
    (hname : contents.lookup name = some (some content)) (h : Varies content room j j') :
    Varies (.variants contents) (room + 1) (.object ((some name, j) :: after) ending)
      (.object ((some name, j') :: after) ending)
  | bare {contents : List (String × Option Layout)} {name : String} (room : Nat)
    (hname : contents.lookup name = some none) :
    Varies (.variants contents) (room + 1) (.string (some name))
      (.object [(some name, .null)] .closed)
  | permuted {members members' : List (Option String × Json)} (slots : List (Slot Layout))
    (room : Nat) (ending : Ending) (h : members.Perm members') :
    Varies (.record slots) (room + 1) (.object members ending) (.object members' ending)
  | omitted {slots : List (Slot Layout)} {slot : Slot Layout} {isDefault : Nat → Json → Prop}
    {room : Nat} {j : Json} (before after : List (Option String × Json)) (ending : Ending)
    (hslot : slot ∈ slots) (homissible : slot.omissible = some isDefault)
    (h : isDefault room j) :
    Varies (.record slots) (room + 1) (.object (before ++ (some slot.name, j) :: after) ending)
      (.object (before ++ after) ending)
  | added {slots : List (Slot Layout)} {name : String} (room : Nat) (j : Json)
    (before after : List (Option String × Json)) (ending : Ending)
    (hname : name ∉ slots.map Slot.name) :
    Varies (.record slots) (room + 1) (.object (before ++ after) ending)
      (.object (before ++ (some name, j) :: after) ending)
  | member {slots : List (Slot Layout)} {slot : Slot Layout} {room : Nat} {j j' : Json}
    (before after : List (Option String × Json)) (ending : Ending) (hslot : slot ∈ slots)
    (h : Varies slot.content room j j') :
    Varies (.record slots) (room + 1) (.object (before ++ (some slot.name, j) :: after) ending)
      (.object (before ++ (some slot.name, j') :: after) ending)
  | place {slots : List (Slot Layout)} {slot : Slot Layout} {room : Nat} {j j' : Json}
    (before after : List Json) (ending : Ending) (hslot : slots[before.length]? = some slot)
    (h : Varies slot.content room j j') :
    Varies (.record slots) (room + 1) (.array (before ++ j :: after) ending)
      (.array (before ++ j' :: after) ending)
  | part {p : Part} {room : Nat} {j j' : Json} (h : Varies p.layout room j j') :
    Varies (.part p) room j j'

end Layout

end ServiceCheck
