import ServiceCheck.Proofs.Wire.Statements
import ServiceCheck.Wire.Declaration

set_option autoImplicit false

namespace ServiceCheck

open Decoder

variable {bound : Nat}

/-- The written form is a record from whose members the fields are read. -/
def Decoder.Fields.ReadsFrom {α : Type} (bound : Nat) (fields : Fields α) (j : Json) (x : α) :
    Prop :=
  ∃ members, j = Json.record members ∧ fields.Reads bound members x

theorem Decoder.Fields.ReadsFrom.tagged {α β : Type} {bound : Nat} {fields : Fields α} {j : Json}
    {x : α} (h : fields.ReadsFrom bound j x) {f : α → β} {variants : List (String × Content β)}
    {tag : String} (hvariant : variants.lookup tag = some (.value (.record (f <$> fields))))
    (hdistinct : decide fields.names.Nodup = true) :
    (choice variants).Reads bound (Json.tagged tag j) (f x) := by
  obtain ⟨members, rfl, h⟩ := h
  have hlevel := Fields.Reads.tagged ((reads_pure bound f).seq h) hvariant hdistinct
  exact hlevel.mono (Nat.le_succ bound)

theorem Operation.reads {o : Operation} (hkeys : (Dictionary.keys o.faults).Nodup)
    (htypes : ∀ t ∈ o.types, t.Readable) : Operation.decoder.Reads bound o.toJson o := by
  have hlevel : Operation.decoder.Reads (bound + 1) o.toJson o := by
    obtain ⟨position, id, request, reply⟩ := o
    have hrequest : TypeDefinition.decoder.Reads bound request.toJson request := by
      cases reply <;> exact (htypes request List.mem_cons_self).reads
    cases reply with
    | none =>
      exact (reads_pure bound (fun p i t => Operation.mk p i t none)
        |>.field position.reads
        |>.field (reads_string id)
        |>.field hrequest).tagged rfl rfl
    | some r =>
      obtain ⟨response, faults⟩ := r
      have hfault : ∀ e ∈ faults, e.2.Readable := fun e he =>
        htypes e.2 (List.mem_cons_of_mem _ (List.mem_cons_of_mem _ (List.mem_map_of_mem he)))
      have hfaults : TypeMap.decoder.Reads bound (TypeMap.toJson faults) faults :=
        reads_dictionary (fun e he => (hfault e he).reads) hkeys
      exact (reads_pure bound (fun p i t r f => Operation.mk p i t (some ⟨r, f⟩))
        |>.field position.reads
        |>.field (reads_string id)
        |>.field hrequest
        |>.field (htypes response (by simp [types])).reads
        |>.field hfaults).tagged rfl rfl
  exact hlevel.mono (Nat.le_succ bound)

theorem Interface.reads {i : Interface} (hkeys : (Dictionary.keys i.operations).Nodup)
    (h : ∀ o ∈ Dictionary.values i.operations, Operation.decoder.Reads bound o.toJson o) :
    Interface.decoder.Reads bound i.toJson i :=
  (reads_pure bound Interface.mk
    |>.field i.position.reads
    |>.field (reads_string i.name)
    |>.field (reads_dictionary (fun e he => h e.2 (List.mem_map_of_mem he)) hkeys)).record rfl

theorem Aggregation.reads (a : Aggregation) : Aggregation.decoder.Reads bound a.toJson a :=
  (reads_pure bound Aggregation.mk
    |>.field (reads_list fun s _ => reads_string s)
    |>.field (reads_optionalText a.extender)).record rfl

theorem Port.reads {p : Port}
    (hoperations : ∀ o ∈ p.operations, Operation.decoder.Reads bound o.toJson o)
    (hinterfaces : ∀ i ∈ p.interfaces, Interface.decoder.Reads bound i.toJson i) :
    Port.fields.Reads bound p.members p :=
  reads_pure bound Port.mk
    |>.field p.position.reads
    |>.field (reads_string p.id)
    |>.field (reads_optionalText p.location)
    |>.field (reads_optionalText p.protocol)
    |>.field (reads_list hoperations)
    |>.field (reads_list hinterfaces)

theorem InputPort.reads {p : InputPort} (h : Port.fields.Reads bound p.members p.toPort) :
    InputPort.fields.Reads bound (p.members ++
      [("aggregation_list", Json.list (p.aggregations.map Aggregation.toJson))]) p :=
  reads_pure bound InputPort.mk
    |>.seq h
    |>.field (reads_list fun a _ => a.reads)

theorem Execution.reads (e : Execution) : Execution.fields.ReadsFrom bound e.toJson e := by
  have hmode : (named ExecutionMode.names).Reads bound (Json.text e.mode.name) e.mode :=
    reads_named (by decide) (by cases e.mode <;> decide)
  exact ⟨_, rfl, reads_pure bound Execution.mk
    |>.field e.position.reads
    |>.field hmode⟩

theorem CorrelationAlias.reads {a : CorrelationAlias} (h : a.path.Readable) :
    CorrelationAlias.decoder.Reads bound a.toJson a :=
  (reads_pure bound CorrelationAlias.mk
    |>.field (reads_string a.guardType)
    |>.field h.reads).record rfl

theorem CorrelationVariable.reads {v : CorrelationVariable}
    (h : ∀ p, .path p ∈ v.parts → p.Readable) :
    CorrelationVariable.decoder.Reads bound v.toJson v := by
  have haliases : (list CorrelationAlias.decoder).Reads bound
      (Json.list (v.aliases.map CorrelationAlias.toJson)) v.aliases :=
    reads_list fun a ha =>
      CorrelationAlias.reads (h a.path (List.mem_cons_of_mem _ (List.mem_map.mpr ⟨a, ha, rfl⟩)))
  exact (reads_pure bound CorrelationVariable.mk
    |>.field (h v.path List.mem_cons_self).reads
    |>.field haliases).record rfl

theorem CorrelationSet.reads {s : CorrelationSet}
    (h : ∀ v ∈ s.members, ∀ p, .path p ∈ v.parts → p.Readable) :
    CorrelationSet.fields.ReadsFrom bound s.toJson s :=
  ⟨_, rfl, reads_pure bound CorrelationSet.mk
    |>.field s.position.reads
    |>.field (reads_list fun v hv => CorrelationVariable.reads (h v hv))⟩

theorem Procedure.reads {p : Procedure} (h : p.body.Readable) :
    Procedure.fields.ReadsFrom bound p.toJson p :=
  ⟨_, rfl, reads_pure bound Procedure.mk
    |>.field p.position.reads
    |>.field (reads_string p.id)
    |>.field h.reads⟩

theorem Courier.reads {c : Courier} (h : c.body.Readable) :
    Courier.fields.ReadsFrom bound c.toJson c :=
  ⟨_, rfl, reads_pure bound Courier.mk
    |>.field c.position.reads
    |>.field (reads_string c.inputPort)
    |>.field h.reads⟩

theorem EmbeddedService.reads (s : EmbeddedService) :
    EmbeddedService.fields.ReadsFrom bound s.toJson s :=
  ⟨_, rfl, reads_pure bound EmbeddedService.mk
    |>.field s.position.reads
    |>.field (reads_string s.type)
    |>.field (reads_string s.path)
    |>.field (reads_optionalText s.port)⟩

theorem Program.reads {p : Program}
    (h : ∀ d ∈ p.declarations, Declaration.decoder.Reads bound d.toJson d) :
    Program.decoder.Reads bound p.toJson p :=
  (reads_pure bound Program.mk
    |>.field p.position.reads
    |>.field (reads_list h)).record rfl

end ServiceCheck
