import ServiceCheck.Program.Declaration
import ServiceCheck.Wire.Statement

set_option autoImplicit false

namespace ServiceCheck

open Decoder (required defaulted)
open Statement (text)

namespace Operation

def tag (o : Operation) : String := nameIn OperationKind.names o.kind

def contentJson (o : Operation) : Json :=
  match o.reply with
  | none => Json.record
      [("ctx", o.position.toJson), ("id", Json.text o.id), ("request_type", o.request.toJson)]
  | some r => Json.record
      [("ctx", o.position.toJson), ("id", Json.text o.id), ("request_type", o.request.toJson),
        ("response_type", r.response.toJson), ("faults", TypeMap.toJson r.faults)]

def toJson (o : Operation) : Json := Json.tagged o.tag o.contentJson

def oneWayFields : Decoder.Fields Operation :=
  (fun p i t => ⟨p, i, t, none⟩) <$> Decoder.position <*> text "id" <*>
    required "request_type" TypeDefinition.decoder

def requestResponseFields : Decoder.Fields Operation :=
  (fun p i t r f => ⟨p, i, t, some ⟨r, f⟩⟩) <$> Decoder.position <*> text "id" <*>
    required "request_type" TypeDefinition.decoder <*>
    required "response_type" TypeDefinition.decoder <*> defaulted "faults" [] TypeMap.decoder

def decoder : Decoder Operation :=
  .choice
    [("one_way", .value (.record oneWayFields)),
      ("request_response", .value (.record requestResponseFields))]

end Operation

namespace Interface

def toJson (i : Interface) : Json :=
  Json.record
    [("ctx", i.position.toJson), ("name", Json.text i.name),
      ("operations", Json.dictionary (i.operations.map fun (key, o) => (key, o.toJson)))]

def decoder : Decoder Interface :=
  .record (Interface.mk <$> Decoder.position <*> text "name" <*>
    defaulted "operations" [] (.dictionary Operation.decoder))

end Interface

namespace Aggregation

def toJson (a : Aggregation) : Json :=
  Json.record
    [("output_ports", Json.list (a.ports.map Json.text)),
      ("interface_extender", Json.optionalText a.extender)]

def decoder : Decoder Aggregation :=
  .record (Aggregation.mk <$> required "output_ports" (.list .string) <*>
    defaulted "interface_extender" none (.optional .string))

end Aggregation

namespace Port

def members (p : Port) : List (String × Json) :=
  [("ctx", p.position.toJson), ("id", Json.text p.id),
    ("location", Json.optionalText p.location), ("protocol", Json.optionalText p.protocol),
    ("operations", Json.list (p.operations.map Operation.toJson)),
    ("interfaces", Json.list (p.interfaces.map Interface.toJson))]

def toJson (p : Port) : Json := Json.record p.members

def fields : Decoder.Fields Port :=
  Port.mk <$> Decoder.position <*> text "id" <*>
    defaulted "location" none (.optional .string) <*>
    defaulted "protocol" none (.optional .string) <*>
    defaulted "operations" [] (.list Operation.decoder) <*>
    defaulted "interfaces" [] (.list Interface.decoder)

end Port

namespace InputPort

def toJson (p : InputPort) : Json :=
  Json.record (p.members ++
    [("aggregation_list", Json.list (p.aggregations.map Aggregation.toJson))])

def fields : Decoder.Fields InputPort :=
  InputPort.mk <$> Port.fields <*> defaulted "aggregation_list" [] (.list Aggregation.decoder)

end InputPort

def ExecutionMode.names : List (String × ExecutionMode) :=
  [("single", .single), ("sequential", .sequential), ("concurrent", .concurrent)]

def ExecutionMode.name (m : ExecutionMode) : String := nameIn names m

namespace Execution

def toJson (e : Execution) : Json :=
  Json.record [("ctx", e.position.toJson), ("mode", Json.text e.mode.name)]

def fields : Decoder.Fields Execution :=
  Execution.mk <$> Decoder.position <*> required "mode" (.named ExecutionMode.names)

end Execution

namespace CorrelationAlias

def toJson (a : CorrelationAlias) : Json :=
  Json.record [("guard_name", Json.text a.guardType), ("path", a.path.toJson)]

def decoder : Decoder CorrelationAlias :=
  .record (CorrelationAlias.mk <$> text "guard_name" <*> required "path" VariablePath.decoder)

end CorrelationAlias

namespace CorrelationVariable

def toJson (v : CorrelationVariable) : Json :=
  Json.record
    [("path", v.path.toJson), ("aliases", Json.list (v.aliases.map CorrelationAlias.toJson))]

def decoder : Decoder CorrelationVariable :=
  .record (CorrelationVariable.mk <$> required "path" VariablePath.decoder <*>
    defaulted "aliases" [] (.list CorrelationAlias.decoder))

end CorrelationVariable

namespace CorrelationSet

def toJson (s : CorrelationSet) : Json :=
  Json.record
    [("ctx", s.position.toJson),
      ("variables", Json.list (s.members.map CorrelationVariable.toJson))]

def fields : Decoder.Fields CorrelationSet :=
  CorrelationSet.mk <$> Decoder.position <*>
    required "variables" (.list CorrelationVariable.decoder)

end CorrelationSet

namespace Procedure

def toJson (p : Procedure) : Json :=
  Json.record
    [("ctx", p.position.toJson), ("id", Json.text p.id), ("body", p.body.toJson)]

def fields : Decoder.Fields Procedure :=
  Procedure.mk <$> Decoder.position <*> text "id" <*> required "body" Statement.decoder

end Procedure

namespace Courier

def toJson (c : Courier) : Json :=
  Json.record
    [("ctx", c.position.toJson), ("input_port_name", Json.text c.inputPort),
      ("body", c.body.toJson)]

def fields : Decoder.Fields Courier :=
  Courier.mk <$> Decoder.position <*> text "input_port_name" <*>
    required "body" Statement.decoder

end Courier

namespace EmbeddedService

def toJson (s : EmbeddedService) : Json :=
  Json.record
    [("ctx", s.position.toJson), ("service_type", Json.text s.type),
      ("service_path", Json.text s.path), ("port_id", Json.optionalText s.port)]

def fields : Decoder.Fields EmbeddedService :=
  EmbeddedService.mk <$> Decoder.position <*> text "service_type" <*> text "service_path" <*>
    defaulted "port_id" none (.optional .string)

end EmbeddedService

namespace Declaration

def tag : Declaration → String
  | .type _ => "type"
  | .interface _ => "interface"
  | .inputPort _ => "input_port"
  | .outputPort _ => "output_port"
  | .execution _ => "execution"
  | .correlationSet _ => "correlation_set"
  | .procedure _ => "procedure"
  | .courier _ => "courier"
  | .embeddedService _ => "embedded_service"

def contentJson : Declaration → Json
  | .type t => t.toJson
  | .interface i => i.toJson
  | .inputPort p => p.toJson
  | .outputPort p => p.toJson
  | .execution e => e.toJson
  | .correlationSet s => s.toJson
  | .procedure p => p.toJson
  | .courier c => c.toJson
  | .embeddedService s => s.toJson

def toJson (d : Declaration) : Json := Json.tagged d.tag d.contentJson

def decoder : Decoder Declaration :=
  .choice
    [("type", .value fun room j => (TypeDefinition.decoder room j).map .type),
      ("interface", .value fun room j => (Interface.decoder room j).map .interface),
      ("input_port", .value (.record (.inputPort <$> InputPort.fields))),
      ("output_port", .value (.record (.outputPort <$> Port.fields))),
      ("execution", .value (.record (.execution <$> Execution.fields))),
      ("correlation_set", .value (.record (.correlationSet <$> CorrelationSet.fields))),
      ("procedure", .value (.record (.procedure <$> Procedure.fields))),
      ("courier", .value (.record (.courier <$> Courier.fields))),
      ("embedded_service", .value (.record (.embeddedService <$> EmbeddedService.fields)))]

end Declaration

namespace Program

def toJson (p : Program) : Json :=
  Json.record
    [("ctx", p.position.toJson),
      ("children", Json.list (p.declarations.map Declaration.toJson))]

def decoder : Decoder Program :=
  .record (Program.mk <$> Decoder.position <*>
    required "children" (.list Declaration.decoder))

end Program

end ServiceCheck
