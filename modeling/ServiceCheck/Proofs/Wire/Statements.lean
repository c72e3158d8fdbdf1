import ServiceCheck.Proofs.Wire.Expressions
import ServiceCheck.Wire.Statement

set_option autoImplicit false

namespace ServiceCheck

open Decoder

variable {bound : Nat}

theorem Decoder.reads_optionalText (o : Option String) :
    (optional string).Reads bound (Json.optionalText o) o :=
  reads_optional (fun s _ => reads_string s) nofun

theorem CourierTarget.reads (t : CourierTarget) :
    CourierTarget.decoder.Reads bound t.toJson t := by
  have hlevel : CourierTarget.decoder.Reads (bound + 1) t.toJson t := by
    cases t with
    | interface name => exact reads_tagged rfl (.map CourierTarget.interface (reads_string name))
    | operation name => exact reads_tagged rfl (.map CourierTarget.operation (reads_string name))
  exact hlevel.mono (Nat.le_succ bound)

theorem OperationKind.reads (k : OperationKind) :
    (named OperationKind.names).Reads bound (Json.text (nameIn OperationKind.names k)) k :=
  reads_named (by decide) (by cases k <;> decide)

theorem AssignOperator.reads (o : AssignOperator) :
    (named AssignOperator.names).Reads bound (Json.text (nameIn AssignOperator.names o)) o :=
  reads_named (by decide) (by cases o <;> decide)

theorem StepKind.reads (k : StepKind) :
    (named StepKind.names).Reads bound (Json.text (nameIn StepKind.names k)) k :=
  reads_named (by decide) (by cases k <;> decide)

theorem ForEachKind.reads (k : ForEachKind) :
    (named ForEachKind.names).Reads bound (Json.text (nameIn ForEachKind.names k)) k :=
  reads_named (by decide) (by cases k <;> decide)

def CourierBranch.toJson (b : CourierBranch) : Json :=
  Json.record
    [("target", b.target.toJson),
      ("operation_type", Json.text (nameIn OperationKind.names b.kind)),
      ("input_path", Json.optionalPath b.input), ("output_path", Json.optionalPath b.output),
      ("body", b.body.toJson)]

namespace Statement

def Readable (s : Statement) : Prop := ∀ n, Decoder.Reads n (decoderUpTo n) s.toJson s

theorem Readable.reads {s : Statement} (h : s.Readable) :
    Statement.decoder.Reads bound s.toJson s :=
  reads_unbounded h bound

theorem toJson_ne_null (s : Statement) : s.toJson ≠ .null := by
  cases s <;> nofun

theorem childrenJson_eq (children : List Statement) :
    childrenJson children = children.map toJson := by
  induction children with
  | nil => rfl
  | cons s rest ih => exact congrArg (List.cons _) ih

theorem inputBranchesJson_eq (branches : List (Statement × Statement)) :
    inputBranchesJson branches =
      branches.map fun branch => Json.list [branch.1.toJson, branch.2.toJson] := by
  induction branches with
  | nil => rfl
  | cons branch rest ih => exact congrArg (List.cons _) ih

theorem conditionalBranchesJson_eq (branches : List (Expression × Statement)) :
    conditionalBranchesJson branches =
      branches.map fun branch => Json.list [branch.1.toJson, branch.2.toJson] := by
  induction branches with
  | nil => rfl
  | cons branch rest ih => exact congrArg (List.cons _) ih

theorem otherwiseJson_eq (otherwise : Option Statement) :
    otherwiseJson otherwise = Json.optional (otherwise.map toJson) := by
  cases otherwise <;> rfl

theorem handlersJson_eq (handlers : List (String × Statement)) :
    handlersJson handlers =
      handlers.map fun handler => Json.list [Json.text handler.1, handler.2.toJson] := by
  induction handlers with
  | nil => rfl
  | cons handler rest ih => exact congrArg (List.cons _) ih

theorem courierBranchesJson_eq (branches : List CourierBranch) :
    courierBranchesJson branches = branches.map CourierBranch.toJson := by
  induction branches with
  | nil => rfl
  | cons branch rest ih =>
    obtain ⟨target, kind, input, output, body⟩ := branch
    exact congrArg (List.cons _) ih

section Parts

variable {parts : List Node}

theorem reads_optionalPath (hpaths : ∀ p, .path p ∈ parts → p.Readable) {o : Option VariablePath}
    (ho : ∀ p ∈ o, .path p ∈ parts) :
    (optional VariablePath.decoder).Reads bound (Json.optionalPath o) o :=
  reads_optional (fun p hp => (hpaths p (ho p hp)).reads) VariablePath.toJson_ne_null

theorem reads_optionalExpression (hvalues : ∀ x, .expression x ∈ parts → x.Readable)
    {o : Option Expression} (ho : ∀ x ∈ o, .expression x ∈ parts) :
    (optional Expression.decoder).Reads bound (Json.optionalExpression o) o :=
  reads_optional (fun x hx => (hvalues x (ho x hx)).reads) Expression.toJson_ne_null

end Parts

section Lists

variable {n : Nat}

theorem reads_children {children : List Statement} (h : ∀ s ∈ children, s.Readable) :
    (list (decoderUpTo n)).Reads n (Json.list (childrenJson children)) children := by
  rw [childrenJson_eq]
  exact reads_list fun s hs => h s hs n

theorem reads_inputBranches {branches : List (Statement × Statement)}
    (hinner : ∀ t, .statement t ∈ branches.flatMap (fun branch =>
      [Node.statement branch.1, .statement branch.2]) → t.Readable) :
    (list (pair (decoderUpTo n) (decoderUpTo n))).Reads n
      (Json.list (inputBranchesJson branches)) branches := by
  rw [inputBranchesJson_eq]
  refine reads_list fun branch hb => reads_pair (hinner branch.1 ?guard n) (hinner branch.2 ?body n)
  case guard | body => exact List.mem_flatMap.mpr ⟨branch, hb, by simp⟩

theorem reads_conditionalBranches {branches : List (Expression × Statement)}
    (hvalues : ∀ x, .expression x ∈ branches.flatMap (fun branch =>
      [.expression branch.1, Node.statement branch.2]) → x.Readable)
    (hinner : ∀ t, .statement t ∈ branches.flatMap (fun branch =>
      [Node.expression branch.1, .statement branch.2]) → t.Readable) :
    (list (pair Expression.decoder (decoderUpTo n))).Reads n
      (Json.list (conditionalBranchesJson branches)) branches := by
  rw [conditionalBranchesJson_eq]
  refine reads_list fun branch hb =>
    reads_pair (hvalues branch.1 ?condition).reads (hinner branch.2 ?body n)
  case condition | body => exact List.mem_flatMap.mpr ⟨branch, hb, by simp⟩

theorem reads_otherwise {otherwise : Option Statement} (h : ∀ s ∈ otherwise, s.Readable) :
    (optional (decoderUpTo n)).Reads n (otherwiseJson otherwise) otherwise := by
  rw [otherwiseJson_eq]
  exact reads_optional (fun s hs => h s hs n) toJson_ne_null

theorem reads_handlers {handlers : List (String × Statement)}
    (h : ∀ handler ∈ handlers, handler.2.Readable) :
    (list (pair string (decoderUpTo n))).Reads n (Json.list (handlersJson handlers)) handlers := by
  rw [handlersJson_eq]
  exact reads_list fun handler hh => reads_pair (reads_string handler.1) (h handler hh n)

theorem reads_courierBranch {b : CourierBranch} (hpaths : ∀ p, .path p ∈ b.parts → p.Readable)
    (hbody : b.body.Readable) :
    (record (courierBranchFields (decoderUpTo n))).Reads n b.toJson b := by
  obtain ⟨target, kind, input, output, body⟩ := b
  exact (reads_pure n CourierBranch.mk
    |>.field target.reads
    |>.field kind.reads
    |>.field (reads_optionalPath hpaths (by simp +contextual [CourierBranch.parts]))
    |>.field (reads_optionalPath hpaths (by simp +contextual [CourierBranch.parts]))
    |>.field (hbody n)).record rfl

theorem reads_courierBranches {branches : List CourierBranch}
    (hpaths : ∀ p, .path p ∈ branches.flatMap CourierBranch.parts → p.Readable)
    (hinner : ∀ t, .statement t ∈ branches.flatMap CourierBranch.parts → t.Readable) :
    (list (record (courierBranchFields (decoderUpTo n)))).Reads n
      (Json.list (courierBranchesJson branches)) branches := by
  rw [courierBranchesJson_eq]
  have hmem {b : CourierBranch} (hb : b ∈ branches) {y : Node} (hy : y ∈ b.parts) :
      y ∈ branches.flatMap CourierBranch.parts := List.mem_flatMap.mpr ⟨b, hb, hy⟩
  exact reads_list fun b hb => reads_courierBranch (fun p hp => hpaths p (hmem hb hp))
    (hinner b.body (hmem hb (by simp [CourierBranch.parts])))

end Lists

theorem reads_at {α : Type} {unnamed short : Except DecodeError Position} (make : Position → α)
    (position : Position) :
    (make <$> Decoder.field "ctx" Position.decoder unnamed short).Reads bound
      [("ctx", position.toJson)] (make position) :=
  (reads_pure bound make).field position.reads

def isLeaf : Statement → Bool
  | .oneWay .. | .notification .. | .solicitResponse .. | .assign .. | .compoundAssign ..
  | .pointer .. | .deepCopy .. | .step .. | .undef .. | .call .. | .throw .. | .compensate ..
  | .run .. | .linkIn .. | .linkOut .. | .notificationForward .. | .solicitResponseForward .. =>
    true
  | _ => false

theorem readable_leaf {s : Statement} (hs : s.isLeaf)
    (hpaths : ∀ p, .path p ∈ s.parts → p.Readable)
    (hvalues : ∀ x, .expression x ∈ s.parts → x.Readable) : s.Readable := by
  refine reads_of_succ fun n => ?_
  cases s with
  | oneWay position operation input =>
    exact (reads_at oneWay position
      |>.field (reads_string operation)
      |>.field (reads_optionalPath hpaths (by simp +contextual [parts]))).tagged rfl rfl
  | notification position operation port output =>
    exact (reads_at notification position
      |>.field (reads_string operation)
      |>.field (reads_string port)
      |>.field (reads_optionalExpression hvalues (by simp +contextual [parts]))).tagged rfl rfl
  | solicitResponse position operation port output input =>
    exact (reads_at solicitResponse position
      |>.field (reads_string operation)
      |>.field (reads_string port)
      |>.field (reads_optionalExpression hvalues (by simp +contextual [parts]))
      |>.field (reads_optionalPath hpaths (by simp +contextual [parts]))).tagged rfl rfl
  | assign position path value =>
    exact (reads_at assign position
      |>.field (hpaths path (by simp [parts])).reads
      |>.field (hvalues value (by simp [parts])).reads).tagged rfl rfl
  | compoundAssign position operator path value =>
    exact (reads_at compoundAssign position
      |>.field operator.reads
      |>.field (hpaths path (by simp [parts])).reads
      |>.field (hvalues value (by simp [parts])).reads).tagged rfl rfl
  | pointer position left right =>
    exact (reads_at pointer position
      |>.field (hpaths left (by simp [parts])).reads
      |>.field (hpaths right (by simp [parts])).reads).tagged rfl rfl
  | deepCopy position left right =>
    exact (reads_at deepCopy position
      |>.field (hpaths left (by simp [parts])).reads
      |>.field (hvalues right (by simp [parts])).reads).tagged rfl rfl
  | step position kind path =>
    exact (reads_at step position
      |>.field kind.reads
      |>.field (hpaths path (by simp [parts])).reads).tagged rfl rfl
  | undef position path =>
    exact (reads_at undef position
      |>.field (hpaths path (by simp [parts])).reads).tagged rfl rfl
  | call position procedure =>
    exact (reads_at call position |>.field (reads_string procedure)).tagged rfl rfl
  | throw position fault value =>
    exact (reads_at throw position
      |>.field (reads_string fault)
      |>.field (reads_optionalExpression hvalues (by simp +contextual [parts]))).tagged rfl rfl
  | compensate position id =>
    exact (reads_at compensate position |>.field (reads_string id)).tagged rfl rfl
  | run position value =>
    exact (reads_at run position
      |>.field (hvalues value (by simp [parts])).reads).tagged rfl rfl
  | linkIn position id =>
    exact (reads_at linkIn position |>.field (reads_string id)).tagged rfl rfl
  | linkOut position id =>
    exact (reads_at linkOut position |>.field (reads_string id)).tagged rfl rfl
  | notificationForward position port output =>
    exact (reads_at notificationForward position
      |>.field (reads_optionalText port)
      |>.field (reads_optionalPath hpaths (by simp +contextual [parts]))).tagged rfl rfl
  | solicitResponseForward position port output input =>
    exact (reads_at solicitResponseForward position
      |>.field (reads_optionalText port)
      |>.field (reads_optionalPath hpaths (by simp +contextual [parts]))
      |>.field (reads_optionalPath hpaths (by simp +contextual [parts]))).tagged rfl rfl
  | _ => cases hs

theorem readable_of_parts {s : Statement} (hpaths : ∀ p, .path p ∈ s.parts → p.Readable)
    (hvalues : ∀ x, .expression x ∈ s.parts → x.Readable)
    (hinner : ∀ t, .statement t ∈ s.parts → t.Readable) : s.Readable := by
  by_cases hs : s.isLeaf
  · exact readable_leaf hs hpaths hvalues
  refine reads_of_succ fun n => ?_
  cases s with
  | nullprocess => exact reads_unit rfl
  | exit => exact reads_unit rfl
  | currentHandler => exact reads_unit rfl
  | sequence children =>
    exact reads_tagged rfl (.map sequence
      (reads_children fun t ht => hinner t (List.mem_map_of_mem ht)))
  | parallel children =>
    exact reads_tagged rfl (.map parallel
      (reads_children fun t ht => hinner t (List.mem_map_of_mem ht)))
  | inputChoice position branches =>
    exact (reads_at inputChoice position
      |>.field (reads_inputBranches hinner)).tagged rfl rfl
  | requestResponse position operation input output process =>
    exact (reads_at requestResponse position
      |>.field (reads_string operation)
      |>.field (reads_optionalPath hpaths (by simp +contextual [parts]))
      |>.field (reads_optionalExpression hvalues (by simp +contextual [parts]))
      |>.field (hinner process (by simp [parts]) n)).tagged rfl rfl
  | conditional position branches otherwise =>
    have hbranches : (list (pair Expression.decoder (decoderUpTo n))).Reads n
        (Json.list (conditionalBranchesJson branches)) branches :=
      reads_conditionalBranches (fun x hx => hvalues x (List.mem_append_left _ hx))
        fun t ht => hinner t (List.mem_append_left _ ht)
    have hotherwise : ∀ t ∈ otherwise, t.Readable := fun t ht =>
      hinner t (by simp [parts, Option.mem_def.mp ht])
    exact (reads_at conditional position
      |>.field hbranches
      |>.field (reads_otherwise hotherwise)).tagged rfl rfl
  | whileLoop position condition body =>
    exact (reads_at whileLoop position
      |>.field (hvalues condition (by simp [parts])).reads
      |>.field (hinner body (by simp [parts]) n)).tagged rfl rfl
  | forLoop position first condition post body =>
    exact (reads_at forLoop position
      |>.field (hinner first (by simp [parts]) n)
      |>.field (hvalues condition (by simp [parts])).reads
      |>.field (hinner post (by simp [parts]) n)
      |>.field (hinner body (by simp [parts]) n)).tagged rfl rfl
  | forEach position kind key target body =>
    exact (reads_at forEach position
      |>.field kind.reads
      |>.field (hpaths key (by simp [parts])).reads
      |>.field (hpaths target (by simp [parts])).reads
      |>.field (hinner body (by simp [parts]) n)).tagged rfl rfl
  | scope position id body =>
    exact (reads_at scope position
      |>.field (reads_string id)
      |>.field (hinner body (by simp [parts]) n)).tagged rfl rfl
  | install position handlers =>
    have hhandlers : ∀ handler ∈ handlers, handler.2.Readable := fun h hh =>
      hinner h.2 (List.mem_map_of_mem hh)
    exact (reads_at install position
      |>.field (reads_handlers hhandlers)).tagged rfl rfl
  | synchronized position id body =>
    exact (reads_at synchronized position
      |>.field (reads_string id)
      |>.field (hinner body (by simp [parts]) n)).tagged rfl rfl
  | spawn position index limit into body =>
    exact (reads_at spawn position
      |>.field (hpaths index (by simp [parts])).reads
      |>.field (hvalues limit (by simp [parts])).reads
      |>.field (reads_optionalPath hpaths (by simp +contextual [parts]))
      |>.field (hinner body (by simp [parts]) n)).tagged rfl rfl
  | provideUntil position provide finish =>
    exact (reads_at provideUntil position
      |>.field (hinner provide (by simp [parts]) n)
      |>.field (hinner finish (by simp [parts]) n)).tagged rfl rfl
  | courierChoice position branches =>
    exact (reads_at courierChoice position
      |>.field (reads_courierBranches hpaths hinner)).tagged rfl rfl
  | _ => exact absurd rfl hs

end Statement

end ServiceCheck
