import ServiceCheck.Program.Statement
import ServiceCheck.Wire.Expression

set_option autoImplicit false

namespace ServiceCheck

open Decoder (required defaulted nullable)

def OperationKind.names : List (String × OperationKind) :=
  [("one_way", .oneWay), ("request_response", .requestResponse)]

def AssignOperator.names : List (String × AssignOperator) :=
  [("add", .add), ("subtract", .subtract), ("multiply", .multiply), ("divide", .divide)]

def StepKind.names : List (String × StepKind) :=
  [("pre_increment", .preIncrement), ("post_increment", .postIncrement),
    ("pre_decrement", .preDecrement), ("post_decrement", .postDecrement)]

def ForEachKind.names : List (String × ForEachKind) :=
  [("sub_node", .subNode), ("array_item", .arrayItem)]

def CourierTarget.toJson : CourierTarget → Json
  | .interface name => Json.tagged "interface" (Json.text name)
  | .operation name => Json.tagged "operation" (Json.text name)

def CourierTarget.decoder : Decoder CourierTarget :=
  Decoder.choice
    [("interface", .value fun room j => (Decoder.string room j).map .interface),
      ("operation", .value fun room j => (Decoder.string room j).map .operation)]

def Json.optionalText (s : Option String) : Json := Json.optional (s.map Json.text)

def Json.optionalPath (p : Option VariablePath) : Json :=
  Json.optional (p.map VariablePath.toJson)

def Json.optionalExpression (x : Option Expression) : Json :=
  Json.optional (x.map Expression.toJson)

namespace Statement

def tag : Statement → String
  | .nullprocess => "nullprocess"
  | .sequence _ => "sequence"
  | .parallel _ => "parallel"
  | .inputChoice .. => "input_choice"
  | .oneWay .. => "one_way"
  | .requestResponse .. => "request_response"
  | .notification .. => "notification"
  | .solicitResponse .. => "solicit_response"
  | .assign .. => "assign"
  | .compoundAssign .. => "compound_assign"
  | .pointer .. => "pointer"
  | .deepCopy .. => "deep_copy"
  | .step .. => "step"
  | .undef .. => "undef"
  | .conditional .. => "if"
  | .whileLoop .. => "while"
  | .forLoop .. => "for"
  | .forEach .. => "for_each"
  | .call .. => "call"
  | .scope .. => "scope"
  | .install .. => "install"
  | .throw .. => "throw"
  | .compensate .. => "compensate"
  | .exit => "exit"
  | .run .. => "run"
  | .synchronized .. => "synchronized"
  | .spawn .. => "spawn"
  | .currentHandler => "current_handler"
  | .linkIn .. => "link_in"
  | .linkOut .. => "link_out"
  | .provideUntil .. => "provide_until"
  | .courierChoice .. => "courier_choice"
  | .notificationForward .. => "notification_forward"
  | .solicitResponseForward .. => "solicit_response_forward"

/-- Puts the tag in front of the content; three statements have none and are bare tags. -/
def wrap (s : Statement) (content : Json) : Json :=
  match s with
  | .nullprocess => Json.text "nullprocess"
  | .exit => Json.text "exit"
  | .currentHandler => Json.text "current_handler"
  | s => Json.tagged s.tag content

mutual

def contentJson : Statement → Json
  | .nullprocess | .exit | .currentHandler => .null
  | .sequence children => Json.list (childrenJson children)
  | .parallel children => Json.list (childrenJson children)
  | .inputChoice p branches => Json.record
      [("ctx", p.toJson), ("branches", Json.list (inputBranchesJson branches))]
  | .oneWay p operation input => Json.record
      [("ctx", p.toJson), ("id", Json.text operation), ("input_path", Json.optionalPath input)]
  | .requestResponse p operation input output process => Json.record
      [("ctx", p.toJson), ("id", Json.text operation), ("input_path", Json.optionalPath input),
        ("output_expression", Json.optionalExpression output),
        ("process", process.wrap process.contentJson)]
  | .notification p operation port output => Json.record
      [("ctx", p.toJson), ("id", Json.text operation), ("output_port_id", Json.text port),
        ("output_expression", Json.optionalExpression output)]
  | .solicitResponse p operation port output input => Json.record
      [("ctx", p.toJson), ("id", Json.text operation), ("output_port_id", Json.text port),
        ("output_expression", Json.optionalExpression output),
        ("input_path", Json.optionalPath input)]
  | .assign p path value => Json.record
      [("ctx", p.toJson), ("path", path.toJson), ("expression", value.toJson)]
  | .compoundAssign p operator path value => Json.record
      [("ctx", p.toJson), ("operator", Json.text (nameIn AssignOperator.names operator)),
        ("path", path.toJson), ("expression", value.toJson)]
  | .pointer p left right => Json.record
      [("ctx", p.toJson), ("left", left.toJson), ("right", right.toJson)]
  | .deepCopy p left right => Json.record
      [("ctx", p.toJson), ("left", left.toJson), ("right", right.toJson)]
  | .step p kind path => Json.record
      [("ctx", p.toJson), ("kind", Json.text (nameIn StepKind.names kind)),
        ("path", path.toJson)]
  | .undef p path => Json.record [("ctx", p.toJson), ("path", path.toJson)]
  | .conditional p branches otherwise => Json.record
      [("ctx", p.toJson), ("branches", Json.list (conditionalBranchesJson branches)),
        ("else_branch", otherwiseJson otherwise)]
  | .whileLoop p condition body => Json.record
      [("ctx", p.toJson), ("condition", condition.toJson), ("body", body.wrap body.contentJson)]
  | .forLoop p first condition post body => Json.record
      [("ctx", p.toJson), ("init", first.wrap first.contentJson), ("condition", condition.toJson),
        ("post", post.wrap post.contentJson), ("body", body.wrap body.contentJson)]
  | .forEach p kind key target body => Json.record
      [("ctx", p.toJson), ("kind", Json.text (nameIn ForEachKind.names kind)),
        ("key_path", key.toJson), ("target_path", target.toJson),
        ("body", body.wrap body.contentJson)]
  | .call p procedure => Json.record [("ctx", p.toJson), ("id", Json.text procedure)]
  | .scope p id body => Json.record
      [("ctx", p.toJson), ("id", Json.text id), ("body", body.wrap body.contentJson)]
  | .install p handlers => Json.record
      [("ctx", p.toJson), ("handlers", Json.list (handlersJson handlers))]
  | .throw p fault value => Json.record
      [("ctx", p.toJson), ("id", Json.text fault), ("expression", Json.optionalExpression value)]
  | .compensate p id => Json.record [("ctx", p.toJson), ("id", Json.text id)]
  | .run p value => Json.record [("ctx", p.toJson), ("expression", value.toJson)]
  | .synchronized p id body => Json.record
      [("ctx", p.toJson), ("id", Json.text id), ("body", body.wrap body.contentJson)]
  | .spawn p index bound into body => Json.record
      [("ctx", p.toJson), ("index_path", index.toJson), ("upper_bound", bound.toJson),
        ("in_path", Json.optionalPath into), ("body", body.wrap body.contentJson)]
  | .linkIn p id => Json.record [("ctx", p.toJson), ("id", Json.text id)]
  | .linkOut p id => Json.record [("ctx", p.toJson), ("id", Json.text id)]
  | .provideUntil p provide finish => Json.record
      [("ctx", p.toJson), ("provide", provide.wrap provide.contentJson),
        ("until", finish.wrap finish.contentJson)]
  | .courierChoice p branches => Json.record
      [("ctx", p.toJson), ("branches", Json.list (courierBranchesJson branches))]
  | .notificationForward p port output => Json.record
      [("ctx", p.toJson), ("output_port_id", Json.optionalText port),
        ("output_path", Json.optionalPath output)]
  | .solicitResponseForward p port output input => Json.record
      [("ctx", p.toJson), ("output_port_id", Json.optionalText port),
        ("output_path", Json.optionalPath output), ("input_path", Json.optionalPath input)]

def childrenJson : List Statement → List Json
  | [] => []
  | s :: rest => s.wrap s.contentJson :: childrenJson rest

def inputBranchesJson : List (Statement × Statement) → List Json
  | [] => []
  | (guard, body) :: rest =>
    Json.list [guard.wrap guard.contentJson, body.wrap body.contentJson] :: inputBranchesJson rest

def conditionalBranchesJson : List (Expression × Statement) → List Json
  | [] => []
  | (condition, body) :: rest =>
    Json.list [condition.toJson, body.wrap body.contentJson] :: conditionalBranchesJson rest

def otherwiseJson : Option Statement → Json
  | none => .null
  | some s => s.wrap s.contentJson

def handlersJson : List (String × Statement) → List Json
  | [] => []
  | (fault, body) :: rest =>
    Json.list [Json.text fault, body.wrap body.contentJson] :: handlersJson rest

def courierBranchesJson : List CourierBranch → List Json
  | [] => []
  | ⟨target, kind, input, output, body⟩ :: rest =>
    Json.record
      [("target", target.toJson), ("operation_type", Json.text (nameIn OperationKind.names kind)),
        ("input_path", Json.optionalPath input), ("output_path", Json.optionalPath output),
        ("body", body.wrap body.contentJson)] :: courierBranchesJson rest

end

def toJson (s : Statement) : Json := s.wrap s.contentJson

/-- The position of a record that has to give it. -/
def located : Decoder.Fields Position := required "ctx" Position.decoder

def pathField (name : String) : Decoder.Fields VariablePath := required name VariablePath.decoder

def expressionField (name : String) : Decoder.Fields Expression :=
  required name Expression.decoder

def defaultedPath (name : String) : Decoder.Fields (Option VariablePath) :=
  defaulted name none (.optional VariablePath.decoder)

def defaultedExpression (name : String) : Decoder.Fields (Option Expression) :=
  defaulted name none (.optional Expression.decoder)

def text (name : String) : Decoder.Fields String := required name .string

def leafFields : List (String × Decoder.Fields Statement) :=
  [("one_way", oneWay <$> Decoder.position <*> text "id" <*> defaultedPath "input_path"),
    ("notification", notification <$> Decoder.position <*> text "id" <*> text "output_port_id" <*>
      defaultedExpression "output_expression"),
    ("solicit_response", solicitResponse <$> Decoder.position <*> text "id" <*>
      text "output_port_id" <*> defaultedExpression "output_expression" <*>
      defaultedPath "input_path"),
    ("assign", assign <$> located <*> pathField "path" <*> expressionField "expression"),
    ("compound_assign", compoundAssign <$> located <*>
      required "operator" (.named AssignOperator.names) <*> pathField "path" <*>
      expressionField "expression"),
    ("pointer", pointer <$> located <*> pathField "left" <*> pathField "right"),
    ("deep_copy", deepCopy <$> located <*> pathField "left" <*> expressionField "right"),
    ("step", step <$> located <*> required "kind" (.named StepKind.names) <*> pathField "path"),
    ("undef", undef <$> located <*> pathField "path"),
    ("call", call <$> Decoder.position <*> text "id"),
    ("throw", throw <$> located <*> text "id" <*> nullable "expression" Expression.decoder),
    ("compensate", compensate <$> located <*> text "id"),
    ("run", run <$> located <*> expressionField "expression"),
    ("link_in", linkIn <$> located <*> text "id"),
    ("link_out", linkOut <$> located <*> text "id"),
    ("notification_forward", notificationForward <$> located <*>
      nullable "output_port_id" .string <*> nullable "output_path" VariablePath.decoder),
    ("solicit_response_forward", solicitResponseForward <$> located <*>
      nullable "output_port_id" .string <*> nullable "output_path" VariablePath.decoder <*>
      nullable "input_path" VariablePath.decoder)]

def courierBranchFields (self : Decoder Statement) : Decoder.Fields CourierBranch :=
  CourierBranch.mk <$> required "target" CourierTarget.decoder <*>
    required "operation_type" (.named OperationKind.names) <*> defaultedPath "input_path" <*>
    defaultedPath "output_path" <*> required "body" self

def nodeFields (self : Decoder Statement) : List (String × Decoder.Fields Statement) :=
  [("input_choice", inputChoice <$> Decoder.position <*>
      required "branches" (.list (.pair self self))),
    ("request_response", requestResponse <$> Decoder.position <*> text "id" <*>
      defaultedPath "input_path" <*> defaultedExpression "output_expression" <*>
      required "process" self),
    ("if", conditional <$> located <*>
      required "branches" (.list (.pair Expression.decoder self)) <*>
      nullable "else_branch" self),
    ("while", whileLoop <$> located <*> expressionField "condition" <*> required "body" self),
    ("for", forLoop <$> located <*> required "init" self <*> expressionField "condition" <*>
      required "post" self <*> required "body" self),
    ("for_each", forEach <$> located <*> required "kind" (.named ForEachKind.names) <*>
      pathField "key_path" <*> pathField "target_path" <*> required "body" self),
    ("scope", scope <$> located <*> text "id" <*> required "body" self),
    ("install", install <$> Decoder.position <*>
      required "handlers" (.list (.pair .string self))),
    ("synchronized", synchronized <$> located <*> text "id" <*> required "body" self),
    ("spawn", spawn <$> located <*> pathField "index_path" <*> expressionField "upper_bound" <*>
      nullable "in_path" VariablePath.decoder <*> required "body" self),
    ("provide_until", provideUntil <$> located <*> required "provide" self <*>
      required "until" self),
    ("courier_choice", courierChoice <$> Decoder.position <*>
      required "branches" (.list (.record (courierBranchFields self))))]

def variants (self : Decoder Statement) : List (String × Decoder.Content Statement) :=
  [("nullprocess", .unit nullprocess), ("exit", .unit exit),
    ("current_handler", .unit currentHandler),
    ("sequence", .value fun room j => (Decoder.list self room j).map sequence),
    ("parallel", .value fun room j => (Decoder.list self room j).map parallel)] ++
  (leafFields ++ nodeFields self).map fun (name, fields) => (name, .value (.record fields))

def decoderUpTo : Nat → Nat → Json → Except DecodeError Statement
  | 0, _, _ => .error .malformed
  | depth + 1, room, j => Decoder.choice (variants (decoderUpTo depth)) room j

def decoder : Decoder Statement := fun room j => decoderUpTo (room + 1) room j

end Statement

end ServiceCheck
