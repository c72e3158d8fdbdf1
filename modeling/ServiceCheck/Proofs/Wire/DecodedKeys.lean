import ServiceCheck.Proofs.Program.DistinctKeys
import ServiceCheck.Proofs.Wire.Yields
import ServiceCheck.Wire.Declaration

set_option autoImplicit false

namespace ServiceCheck

open Decoder

namespace Node

/-- No dictionary in the node, or in anything that is written in it, repeats a key. -/
def DistinctKeys (x : Node) : Prop := ∀ y, x.Contains y → y.keysDistinct

theorem distinctKeys_of_parts {x : Node} (hx : x.keysDistinct)
    (h : ∀ y ∈ x.parts, y.DistinctKeys) : x.DistinctKeys := by
  intro z hz
  rcases contains_iff.mp hz with rfl | ⟨y, hy, hz⟩
  · exact hx
  · exact h y hy z hz

theorem distinctKeys_of_parts_eq_nil {x : Node} (hx : x.keysDistinct) (h : x.parts = []) :
    x.DistinctKeys := distinctKeys_of_parts hx (by simp [h])

theorem distinctKeys_inline {h : TypeHead} {n : NativeType}
    {s : Option (List (String × TypeDefinition))} {u : Bool}
    (hs : ∀ members ∈ s, (Dictionary.keys members).Nodup ∧
      ∀ e ∈ members, (type e.2).DistinctKeys) :
    (type (.inline h n s u)).DistinctKeys := by
  cases s with
  | none => exact distinctKeys_of_parts_eq_nil rfl rfl
  | some members =>
    obtain ⟨hkeys, hmembers⟩ := hs members rfl
    exact distinctKeys_of_parts (decide_eq_true hkeys) (List.forall_mem_map.mpr hmembers)

theorem distinctKeys_statement {s : Statement} (h : ∀ y ∈ s.parts, y.DistinctKeys) :
    (statement s).DistinctKeys := distinctKeys_of_parts rfl h

theorem distinctKeys_expression {x : Expression} (h : ∀ y ∈ x.parts, y.DistinctKeys) :
    (expression x).DistinctKeys := distinctKeys_of_parts rfl h

theorem distinctKeys_path {p : VariablePath}
    (h : ∀ step ∈ p.steps, ∀ y ∈ step.parts, y.DistinctKeys) : (path p).DistinctKeys :=
  distinctKeys_of_parts rfl fun _ hy =>
    have ⟨step, hstep, hy⟩ := List.mem_flatMap.mp hy
    h step hstep _ hy

end Node

open Node

namespace TypeDefinition

section Inside

variable {self : Decoder TypeDefinition} (hself : self.Yields fun t => (type t).DistinctKeys)

include hself

theorem yield_inlineFields : (inlineFields self).Yield fun t => (type t).DistinctKeys :=
  .skip (.seq (.skip (.skip (.skip (.first fun _ _ _ _ _ hs _ => distinctKeys_inline hs))))
    (yield_defaulted (yields_optional (yields_dictionary hself)) "sub_types" nofun))

theorem yield_choiceFields : (choiceFields self).Yield fun t => (type t).DistinctKeys :=
  .seq (.seq (.skip (.skip (.first fun _ _ _ _ hl _ hr => distinctKeys_of_parts rfl
    (List.forall_mem_cons.mpr ⟨hl, List.forall_mem_singleton.mpr hr⟩))))
    (yield_required hself "left")) (yield_required hself "right")

end Inside

theorem yield_linkFields : linkFields.Yield fun t => (type t).DistinctKeys :=
  .skip (.skip (.skip (.first fun _ _ _ _ => distinctKeys_of_parts_eq_nil rfl rfl)))

theorem yields_decoder : TypeDefinition.decoder.Yields fun t => (type t).DistinctKeys := by
  refine yields_unbounded nofun fun _ ih => yields_choice ?_
  simp only [List.forall_mem_cons, List.not_mem_nil, false_implies, implies_true, and_true]
  exact ⟨yields_record (yield_inlineFields ih), yields_record yield_linkFields,
    yields_record (yield_choiceFields ih)⟩

theorem distinctKeys_of_decoder {room : Nat} {j : Json} {t : TypeDefinition}
    (h : decoder room j = .ok t) : t.DistinctKeys :=
  t.distinctKeys_iff.mpr (yields_decoder _ _ _ h)

end TypeDefinition

theorem TypeMap.yields_decoder : TypeMap.decoder.Yields fun types =>
    (Dictionary.keys types).Nodup ∧ ∀ e ∈ types, (type e.2).DistinctKeys :=
  yields_dictionary TypeDefinition.yields_decoder

theorem TypeMap.distinctKeys_of_decoder {room : Nat} {j : Json} {types : TypeMap}
    (h : TypeMap.decoder room j = .ok types) :
    (Dictionary.keys types).Nodup ∧ types.DistinctKeys := by
  obtain ⟨hkeys, htypes⟩ := TypeMap.yields_decoder _ _ _ h
  exact ⟨hkeys, fun e he => e.2.distinctKeys_iff.mpr (htypes e he)⟩

namespace Expression

section Inside

variable {self : Decoder Expression} (hself : self.Yields fun x => (expression x).DistinctKeys)

include hself

theorem yields_step : (stepDecoder self).Yields fun s => ∀ y ∈ s.parts, y.DistinctKeys :=
  yields_record (.seq (.map (fun _ hkey _ hindex => List.forall_mem_cons.mpr
    ⟨hkey, by simpa using hindex⟩) (yield_required hself "key"))
    (yield_defaulted (yields_optional hself) "index" nofun))

theorem yields_path : (pathDecoder self).Yields fun p => (path p).DistinctKeys :=
  yields_record (.seq (.skip (.first fun _ _ _ hsteps => distinctKeys_path hsteps))
    (yield_required (yields_list (yields_step hself)) "steps"))

theorem yields_edit : (editDecoder self).Yields fun e => ∀ y ∈ e.parts, y.DistinctKeys := by
  have hpath := yield_required (yields_path hself)
  have hvalue := yield_required hself "expression"
  refine yields_choice ?_
  simp only [List.forall_mem_cons, List.not_mem_nil, false_implies, implies_true, and_true]
  refine ⟨yields_record (.seq (.map (fun _ hp _ hx => ?_) (hpath "path")) hvalue),
    yields_record (.seq (.map (fun _ hp _ hx => ?_) (hpath "path")) hvalue),
    yields_record (.seq (.map (fun _ hp _ ht => ?_) (hpath "path")) (hpath "target"))⟩
  · simp [TreeEdit.parts, hp, hx]
  · simp [TreeEdit.parts, hp, hx]
  · simp [TreeEdit.parts, hp, ht]

theorem yields_variants :
    ∀ variant ∈ variants self, variant.2.Yields fun x => (expression x).DistinctKeys := by
  have hpath := yields_path hself
  have hlist := yields_list hself
  have hoperands : (list (operandDecoder self)).Yields fun operands =>
      ∀ operand ∈ operands, True ∧ (expression operand.2).DistinctKeys :=
    yields_list (yields_pair (yields_any _) hself)
  have hedits := yields_list (yields_edit hself)
  have hread : ∀ make : VariablePath → Expression, (∀ p, (make p).parts = [.path p]) →
      Content.Yields (fun x => (expression x).DistinctKeys)
        (.value fun room j => (pathDecoder self room j).map make) := fun make hmake =>
    hpath.map fun p hp => distinctKeys_expression (hmake p ▸ List.forall_mem_singleton.mpr hp)
  simp only [variants, List.forall_mem_cons, List.not_mem_nil, false_implies, implies_true,
    and_true]
  refine ⟨(yields_any _).map fun _ _ => distinctKeys_of_parts_eq_nil rfl rfl, hread _ fun _ => rfl,
    hoperands.map fun _ h => ?sum, hoperands.map fun _ h => ?product, hlist.map fun _ h => ?or,
    hlist.map fun _ h => ?and, hself.map fun _ h => ?not,
    yields_record (.seq (.seq (.first fun _ _ hl _ hr => ?compare)
      (yield_required hself "left")) (yield_required hself "right")),
    hread _ fun _ => rfl, hread _ fun _ => rfl,
    yields_record (.seq (.map (fun _ hx _ ht => ?instanceOf) (yield_required hself "expression"))
      (yield_required TypeDefinition.yields_decoder "target")),
    yields_record (.skip (.map (fun _ hx _ => ?cast) (yield_required hself "expression"))),
    yields_record (.seq (.map (fun _ hx _ he => ?inlineTree) (yield_required hself "root"))
      (yield_required hedits "operations")),
    distinctKeys_of_parts_eq_nil rfl rfl, distinctKeys_of_parts_eq_nil rfl rfl,
    hread _ fun _ => rfl⟩
  all_goals refine distinctKeys_expression ?_
  case sum | product => exact List.forall_mem_map.mpr fun operand ho => (h operand ho).2
  case or | and => exact List.forall_mem_map.mpr h
  case not => exact List.forall_mem_singleton.mpr h
  case cast => exact List.forall_mem_singleton.mpr hx
  case compare => simp [parts, hl, hr]
  case instanceOf => simp [parts, hx, ht]
  case inlineTree => exact List.forall_mem_cons.mpr ⟨hx, List.forall_mem_flatMap.mpr he⟩

end Inside

theorem yields_decoder : Expression.decoder.Yields fun x => (expression x).DistinctKeys :=
  yields_unbounded nofun fun _ ih => yields_choice (yields_variants ih)

end Expression

theorem VariablePath.yields_decoder : VariablePath.decoder.Yields fun p => (path p).DistinctKeys :=
  Expression.yields_path Expression.yields_decoder

namespace Statement

section Fields

variable {name : String}

theorem yield_path : (pathField name).Yield fun p => (path p).DistinctKeys :=
  yield_required VariablePath.yields_decoder name

theorem yield_expression : (expressionField name).Yield fun x => (expression x).DistinctKeys :=
  yield_required Expression.yields_decoder name

theorem yield_defaultedPath :
    (defaultedPath name).Yield fun o => ∀ p ∈ o, (path p).DistinctKeys :=
  yield_defaulted (yields_optional VariablePath.yields_decoder) name nofun

theorem yield_defaultedExpression :
    (defaultedExpression name).Yield fun o => ∀ x ∈ o, (expression x).DistinctKeys :=
  yield_defaulted (yields_optional Expression.yields_decoder) name nofun

end Fields

theorem yield_leafFields :
    ∀ leaf ∈ leafFields, leaf.2.Yield fun s => (statement s).DistinctKeys := by
  have hpath {name} := @yield_path name
  have hvalue {name} := @yield_expression name
  have hinto {name} := yield_nullable VariablePath.yields_decoder name
  simp only [leafFields, List.forall_mem_cons, List.not_mem_nil, false_implies, implies_true,
    and_true]
  refine ⟨.seq (.skip (.first fun _ _ _ hp => ?oneWay)) yield_defaultedPath,
    .seq (.skip (.skip (.first fun _ _ _ _ hx => ?notification))) yield_defaultedExpression,
    .seq (.seq (.skip (.skip (.first fun _ _ _ _ hx _ hp => ?solicitResponse)))
      yield_defaultedExpression) yield_defaultedPath,
    .seq (.seq (.first fun _ _ hp _ hx => ?assign) hpath) hvalue,
    .seq (.seq (.skip (.first fun _ _ _ hp _ hx => ?compoundAssign)) hpath) hvalue,
    .seq (.seq (.first fun _ _ hl _ hr => ?pointer) hpath) hpath,
    .seq (.seq (.first fun _ _ hp _ hx => ?deepCopy) hpath) hvalue,
    .seq (.skip (.first fun _ _ _ hp => ?step)) hpath,
    .seq (.first fun _ _ hp => ?undef) hpath,
    .skip (.first fun _ _ => distinctKeys_of_parts_eq_nil rfl rfl),
    .seq (.skip (.first fun _ _ _ hx => ?throw)) (yield_nullable Expression.yields_decoder _),
    .skip (.first fun _ _ => distinctKeys_of_parts_eq_nil rfl rfl),
    .seq (.first fun _ _ hx => ?run) hvalue,
    .skip (.first fun _ _ => distinctKeys_of_parts_eq_nil rfl rfl),
    .skip (.first fun _ _ => distinctKeys_of_parts_eq_nil rfl rfl),
    .seq (.skip (.first fun _ _ _ hp => ?notificationForward)) hinto,
    .seq (.seq (.skip (.first fun _ _ _ hp _ hq => ?solicitResponseForward)) hinto) hinto⟩
  all_goals refine distinctKeys_statement ?_
  case oneWay | notificationForward => simpa [parts] using hp
  case notification | throw => simpa [parts] using hx
  case solicitResponse => simpa [parts, or_imp, forall_and] using ⟨hx, hp⟩
  case solicitResponseForward => simpa [parts, or_imp, forall_and] using ⟨hp, hq⟩
  case assign | compoundAssign | deepCopy => simp [parts, hp, hx]
  case pointer => simp [parts, hl, hr]
  case step | undef => simp [parts, hp]
  case run => simp [parts, hx]

section Inside

variable {self : Decoder Statement} (hself : self.Yields fun s => (statement s).DistinctKeys)

include hself

theorem yield_courierBranchFields :
    (courierBranchFields self).Yield fun b => ∀ y ∈ b.parts, y.DistinctKeys := by
  refine .seq (.seq (.seq (.skip (.first fun _ _ _ hp _ hq _ hb => ?_)) yield_defaultedPath)
    yield_defaultedPath) (yield_required hself "body")
  simpa [CourierBranch.parts, or_imp, forall_and] using ⟨hp, hq, hb⟩

theorem yield_nodeFields :
    ∀ node ∈ nodeFields self, node.2.Yield fun s => (statement s).DistinctKeys := by
  have hbody {name} := yield_required hself name
  have hpath {name} := @yield_path name
  have hvalue {name} := @yield_expression name
  have hinputs := yields_list (yields_pair hself hself)
  have hconditions := yields_list (yields_pair Expression.yields_decoder hself)
  have hhandlers := yields_list (yields_pair (yields_any .string) hself)
  have hcouriers := yields_list (yields_record (yield_courierBranchFields hself))
  simp only [nodeFields, List.forall_mem_cons, List.not_mem_nil, false_implies, implies_true,
    and_true]
  refine ⟨.seq (.first fun _ _ h => ?inputChoice) (yield_required hinputs _),
    .seq (.seq (.seq (.skip (.first fun _ _ _ hp _ hx _ hs => ?requestResponse))
      yield_defaultedPath) yield_defaultedExpression) hbody,
    .seq (.seq (.first fun _ _ h _ ho => ?conditional) (yield_required hconditions _))
      (yield_nullable hself _),
    .seq (.seq (.first fun _ _ hx _ hs => ?whileLoop) hvalue) hbody,
    .seq (.seq (.seq (.seq (.first fun _ _ hf _ hx _ hp _ hs => ?forLoop) hbody) hvalue) hbody)
      hbody,
    .seq (.seq (.seq (.skip (.first fun _ _ _ hk _ ht _ hs => ?forEach)) hpath) hpath) hbody,
    .seq (.skip (.first fun _ _ _ hs => ?scope)) hbody,
    .seq (.first fun _ _ h => ?install) (yield_required hhandlers _),
    .seq (.skip (.first fun _ _ _ hs => ?synchronized)) hbody,
    .seq (.seq (.seq (.seq (.first fun _ _ hp _ hx _ hi _ hs => ?spawn) hpath) hvalue)
      (yield_nullable VariablePath.yields_decoder _)) hbody,
    .seq (.seq (.first fun _ _ hs _ hf => ?provideUntil) hbody) hbody,
    .seq (.first fun _ _ h => ?courierChoice) (yield_required hcouriers _)⟩
  all_goals refine distinctKeys_statement ?_
  case inputChoice =>
    refine List.forall_mem_flatMap.mpr fun branch hb => ?_
    simp [h branch hb]
  case requestResponse => simpa [parts, or_imp, forall_and] using ⟨hp, hs, hx⟩
  case conditional =>
    refine List.forall_mem_append.mpr ⟨List.forall_mem_flatMap.mpr fun branch hb => ?_, ?_⟩
    · simp [h branch hb]
    · simpa using ho
  case whileLoop => simp [parts, hx, hs]
  case forLoop => simp [parts, hf, hx, hp, hs]
  case forEach => simp [parts, hk, ht, hs]
  case scope | synchronized => simp [parts, hs]
  case install => exact List.forall_mem_map.mpr fun handler hh => (h handler hh).2
  case spawn => simpa [parts, or_imp, forall_and] using ⟨hp, hx, hi, hs⟩
  case provideUntil => simp [parts, hs, hf]
  case courierChoice => exact List.forall_mem_flatMap.mpr h

theorem yields_variants :
    ∀ variant ∈ variants self, variant.2.Yields fun s => (statement s).DistinctKeys := by
  have hlist : (list self).Yields fun children => ∀ y ∈ children.map Node.statement,
      y.DistinctKeys := fun _ _ _ heq => List.forall_mem_map.mpr (yields_list hself _ _ _ heq)
  refine List.forall_mem_append.mpr ⟨?_, List.forall_mem_map.mpr fun entry hentry => ?_⟩
  · simp only [List.forall_mem_cons, List.not_mem_nil, false_implies, implies_true, and_true]
    exact ⟨distinctKeys_of_parts_eq_nil rfl rfl, distinctKeys_of_parts_eq_nil rfl rfl,
      distinctKeys_of_parts_eq_nil rfl rfl,
      hlist.map fun children h => distinctKeys_statement (s := sequence children) h,
      hlist.map fun children h => distinctKeys_statement (s := parallel children) h⟩
  · rcases List.mem_append.mp hentry with hleaf | hnode
    · exact yields_record (yield_leafFields _ hleaf)
    · exact yields_record (yield_nodeFields hself _ hnode)

end Inside

theorem yields_decoder : Statement.decoder.Yields fun s => (statement s).DistinctKeys :=
  yields_unbounded nofun fun _ ih => yields_choice (yields_variants ih)

end Statement

theorem Operation.yields_decoder :
    Operation.decoder.Yields fun o => (operation o).DistinctKeys := by
  have htype {name} := yield_required TypeDefinition.yields_decoder name
  refine yields_choice ?_
  simp only [List.forall_mem_cons, List.not_mem_nil, false_implies, implies_true, and_true]
  refine ⟨yields_record (.seq (.skip (.first fun _ _ _ ht => ?oneWay)) htype),
    yields_record (.seq (.seq (.seq (.skip (.first fun _ _ _ ht _ hr _ hf => ?requestResponse))
      htype) htype) (yield_defaulted TypeMap.yields_decoder "faults" ⟨List.nodup_nil, nofun⟩))⟩
  case oneWay => exact distinctKeys_of_parts rfl (List.forall_mem_singleton.mpr ht)
  case requestResponse =>
    refine distinctKeys_of_parts (decide_eq_true hf.1) (List.forall_mem_cons.mpr ⟨ht,
      List.forall_mem_cons.mpr ⟨hr, List.forall_mem_map.mpr (List.forall_mem_map.mpr hf.2)⟩⟩)

theorem Interface.yields_decoder : Interface.decoder.Yields fun i => (interface i).DistinctKeys :=
  yields_record (.seq (.skip (.first fun _ _ _ ho => distinctKeys_of_parts (decide_eq_true ho.1)
    (List.forall_mem_map.mpr (List.forall_mem_map.mpr ho.2))))
    (yield_defaulted (yields_dictionary Operation.yields_decoder) "operations"
      ⟨List.nodup_nil, nofun⟩))

theorem Port.yield_fields : Port.fields.Yield fun p => ∀ y ∈ p.parts, y.DistinctKeys :=
  .seq (.seq (.skip (.skip (.skip (.first fun _ _ _ _ _ ho _ hi => List.forall_mem_append.mpr
    ⟨List.forall_mem_map.mpr ho, List.forall_mem_map.mpr hi⟩))))
    (yield_defaulted (yields_list Operation.yields_decoder) "operations" nofun))
    (yield_defaulted (yields_list Interface.yields_decoder) "interfaces" nofun)

theorem CorrelationVariable.yields_decoder :
    CorrelationVariable.decoder.Yields fun v => ∀ y ∈ v.parts, y.DistinctKeys := by
  have halias : CorrelationAlias.decoder.Yields fun a => (Node.path a.path).DistinctKeys :=
    yields_record (.seq (.first fun _ _ hp => hp)
      (yield_required VariablePath.yields_decoder "path"))
  exact yields_record (.seq (.map (fun _ hp _ ha => List.forall_mem_cons.mpr
    ⟨hp, List.forall_mem_map.mpr ha⟩) (yield_required VariablePath.yields_decoder "path"))
    (yield_defaulted (yields_list halias) "aliases" nofun))

theorem Declaration.yields_decoder :
    Declaration.decoder.Yields fun d => (declaration d).DistinctKeys := by
  have hinput : InputPort.fields.Yield fun p => ∀ y ∈ p.toPort.parts, y.DistinctKeys :=
    .skip (.map (fun _ hp _ => hp) Port.yield_fields)
  have hset : CorrelationSet.fields.Yield fun s =>
      ∀ v ∈ s.members, ∀ y ∈ v.parts, y.DistinctKeys :=
    .seq (.first fun _ _ hv => hv)
      (yield_required (yields_list CorrelationVariable.yields_decoder) "variables")
  have hbody := yield_required Statement.yields_decoder "body"
  have hprocedure : Procedure.fields.Yield fun p => (statement p.body).DistinctKeys :=
    .seq (.skip (.first fun _ _ _ hs => hs)) hbody
  have hcourier : Courier.fields.Yield fun c => (statement c.body).DistinctKeys :=
    .seq (.skip (.first fun _ _ _ hs => hs)) hbody
  refine yields_choice ?_
  simp only [List.forall_mem_cons, List.not_mem_nil, false_implies, implies_true, and_true]
  refine ⟨TypeDefinition.yields_decoder.map fun _ ht => ?type,
    Interface.yields_decoder.map fun _ hi => ?interface,
    yields_record (.map (fun _ hp => ?inputPort) hinput),
    yields_record (.map (fun _ hp => ?outputPort) Port.yield_fields),
    yields_record (.first fun _ => ?execution),
    yields_record (.map (fun _ hs => ?correlationSet) hset),
    yields_record (.map (fun _ hs => ?procedure) hprocedure),
    yields_record (.map (fun _ hs => ?courier) hcourier),
    yields_record (.first fun _ => ?embeddedService)⟩
  all_goals refine distinctKeys_of_parts rfl (List.forall_mem_singleton.mpr ?_)
  case type => exact ht
  case interface => exact hi
  case inputPort | outputPort => exact distinctKeys_of_parts rfl hp
  case execution | embeddedService => exact distinctKeys_of_parts_eq_nil rfl rfl
  case correlationSet => exact distinctKeys_of_parts rfl (List.forall_mem_flatMap.mpr hs)
  case procedure | courier =>
    exact distinctKeys_of_parts rfl (List.forall_mem_singleton.mpr hs)

/-- A program that is read from its written form repeats no key in any dictionary. -/
theorem Program.distinctKeys_of_decoder {room : Nat} {j : Json} {p : Program}
    (h : Program.decoder room j = .ok p) : p.DistinctKeys := by
  have hyields : Program.decoder.Yields fun p => (program p).DistinctKeys :=
    yields_record (.seq (.first fun _ _ hd => distinctKeys_of_parts rfl
      (List.forall_mem_map.mpr hd))
      (yield_required (yields_list Declaration.yields_decoder) "children"))
  exact hyields room j p h

end ServiceCheck
