import ServiceCheck.Proofs.Wire.Types
import ServiceCheck.Wire.Expression

set_option autoImplicit false

namespace ServiceCheck

open Decoder

variable {bound : Nat}

/-- Only a double can be read as another number than the one that was written. -/
def Literal.isReread : Literal → Bool
  | .double x => Double.ofNumeral? x.numeral == some x
  | _ => true

theorem Literal.reads {v : Literal} (h : v.isReread) :
    Literal.decoder.Reads bound v.toJson v := by
  have hlevel : Literal.decoder.Reads (bound + 1) v.toJson v := by
    cases v with
    | int i => exact reads_tagged rfl (.map Literal.int (reads_int32 i))
    | long i => exact reads_tagged rfl (.map Literal.long (reads_int64 i))
    | double x =>
      have hx : Double.ofNumeral? x.numeral = some x := by simpa [isReread] using h
      exact reads_tagged rfl (.map Literal.double (reads_double hx))
    | bool b => exact reads_tagged rfl (.map Literal.bool (reads_bool b))
    | string s => exact reads_tagged rfl (.map Literal.string (reads_string s))
  exact hlevel.mono (Nat.le_succ bound)

def Expression.Readable (x : Expression) : Prop :=
  ∀ n, Decoder.Reads n (Expression.decoderUpTo n) x.toJson x

theorem Expression.Readable.reads {x : Expression} (h : x.Readable) :
    Expression.decoder.Reads bound x.toJson x :=
  reads_unbounded h bound

theorem Expression.toJson_ne_null (x : Expression) : x.toJson ≠ .null := by
  cases x <;> nofun

/-- All expressions in the path are readable; its own record adds nothing that could fail. -/
def VariablePath.Readable (p : VariablePath) : Prop := ∀ x, .expression x ∈ p.parts → x.Readable

theorem VariablePath.toJson_ne_null (p : VariablePath) : p.toJson ≠ .null := by
  cases p
  nofun

def PathStep.toJson (s : PathStep) : Json :=
  Json.record [("key", s.key.toJson), ("index", Json.optional (s.index.map Expression.toJson))]

theorem PathStep.listJson_eq (steps : List PathStep) : listJson steps = steps.map toJson := by
  induction steps with
  | nil => rfl
  | cons s rest ih =>
    obtain ⟨key, index⟩ := s
    cases index <;> exact congrArg (List.cons _) ih

def TreeEdit.toJson : TreeEdit → Json
  | .assign p x =>
    Json.tagged "assign" (Json.record [("path", p.toJson), ("expression", x.toJson)])
  | .deepCopy p x =>
    Json.tagged "deep_copy" (Json.record [("path", p.toJson), ("expression", x.toJson)])
  | .pointsTo p t =>
    Json.tagged "points_to" (Json.record [("path", p.toJson), ("target", t.toJson)])

theorem TreeEdit.listJson_eq (edits : List TreeEdit) : listJson edits = edits.map toJson := by
  induction edits with
  | nil => rfl
  | cons e rest ih => cases e <;> exact congrArg (List.cons _) ih

namespace Expression

theorem childrenJson_eq (children : List Expression) :
    childrenJson children = children.map toJson := by
  induction children with
  | nil => rfl
  | cons x rest ih => exact congrArg (List.cons x.toJson) ih

theorem operandsJson_eq (operands : List (Arithmetic × Expression)) :
    operandsJson operands = operands.map fun operand =>
      Json.list [Json.text (nameIn Arithmetic.names operand.1), operand.2.toJson] := by
  induction operands with
  | nil => rfl
  | cons operand rest ih => exact congrArg (List.cons _) ih

section Inside

variable {self : Decoder Expression}
  (hself : ∀ x : Expression, x.Readable → self.Reads bound x.toJson x)

include hself

theorem reads_step {s : PathStep} (h : ∀ x, .expression x ∈ s.parts → x.Readable) :
    (stepDecoder self).Reads bound s.toJson s := by
  obtain ⟨key, index⟩ := s
  have hkey := hself key (h key List.mem_cons_self)
  have hindex : (optional self).Reads bound (Json.optional (index.map toJson)) index :=
    reads_optional (fun x hx => hself x (h x (by simp [PathStep.parts, Option.mem_def.mp hx])))
      toJson_ne_null
  exact (reads_pure bound PathStep.mk
    |>.field hkey
    |>.field hindex).record rfl

theorem reads_path {p : VariablePath} (h : p.Readable) :
    (pathDecoder self).Reads bound p.toJson p := by
  obtain ⟨position, kind, steps⟩ := p
  have hsteps : (list (stepDecoder self)).Reads bound (Json.list (PathStep.listJson steps))
      steps := by
    rw [PathStep.listJson_eq]
    exact reads_list fun s hs =>
      reads_step hself fun x hx => h x (List.mem_flatMap.mpr ⟨s, hs, hx⟩)
  exact (reads_pure bound VariablePath.mk
    |>.field position.reads
    |>.field (reads_named (by decide) (by cases kind <;> decide))
    |>.field hsteps).record rfl

theorem reads_edit {e : TreeEdit} (hpath : ∀ p, .path p ∈ e.parts → p.Readable)
    (hvalue : ∀ x, .expression x ∈ e.parts → x.Readable) :
    (editDecoder self).Reads bound e.toJson e := by
  have hlevel : (editDecoder self).Reads (bound + 1) e.toJson e := by
    cases e with
    | assign p x =>
      have hp := reads_path hself (hpath p (by simp [TreeEdit.parts]))
      have hx := hself x (hvalue x (by simp [TreeEdit.parts]))
      exact (reads_pure bound TreeEdit.assign
        |>.field hp
        |>.field hx).tagged rfl rfl
    | deepCopy p x =>
      have hp := reads_path hself (hpath p (by simp [TreeEdit.parts]))
      have hx := hself x (hvalue x (by simp [TreeEdit.parts]))
      exact (reads_pure bound TreeEdit.deepCopy
        |>.field hp
        |>.field hx).tagged rfl rfl
    | pointsTo p t =>
      have hp := reads_path hself (hpath p (by simp [TreeEdit.parts]))
      have ht := reads_path hself (hpath t (by simp [TreeEdit.parts]))
      exact (reads_pure bound TreeEdit.pointsTo
        |>.field hp
        |>.field ht).tagged rfl rfl
  exact hlevel.mono (Nat.le_succ bound)

theorem reads_children {children : List Expression} (h : ∀ x ∈ children, x.Readable) :
    (list self).Reads bound (Json.list (childrenJson children)) children := by
  rw [childrenJson_eq]
  exact reads_list fun x hx => hself x (h x hx)

theorem reads_operands {operands : List (Arithmetic × Expression)}
    (h : ∀ operand ∈ operands, operand.2.Readable) :
    (list (operandDecoder self)).Reads bound (Json.list (operandsJson operands)) operands := by
  rw [operandsJson_eq]
  refine reads_list fun operand hoperand => ?_
  have hname : (named Arithmetic.names).Reads bound
      (Json.text (nameIn Arithmetic.names operand.1)) operand.1 :=
    reads_named (by decide) (by cases operand.1 <;> decide)
  exact reads_pair hname (hself operand.2 (h operand hoperand))

end Inside

theorem readable_of_parts {x : Expression} (hliteral : ∀ v, x = .literal v → v.isReread)
    (htypes : ∀ t, .type t ∈ x.parts → t.Readable)
    (hpaths : ∀ p, .path p ∈ x.parts → p.Readable)
    (hinner : ∀ y, .expression y ∈ x.parts → y.Readable) : x.Readable := by
  refine reads_of_succ fun n => ?_
  have hself : ∀ y : Expression, y.Readable → Decoder.Reads n (decoderUpTo n) y.toJson y :=
    fun y hy => hy n
  have hread : ∀ p, .path p ∈ x.parts → (pathDecoder (decoderUpTo n)).Reads n p.toJson p :=
    fun p hp => reads_path hself (hpaths p hp)
  cases x with
  | literal v => exact reads_tagged rfl (.map literal (Literal.reads (hliteral v rfl)))
  | read p => exact reads_tagged rfl (.map read (hread p (by simp [parts])))
  | sum operands =>
    have hoperands := reads_operands hself fun operand hoperand =>
      hinner _ (List.mem_map_of_mem hoperand)
    exact reads_tagged rfl (.map sum hoperands)
  | product operands =>
    have hoperands := reads_operands hself fun operand hoperand =>
      hinner _ (List.mem_map_of_mem hoperand)
    exact reads_tagged rfl (.map product hoperands)
  | or children =>
    have hchildren := reads_children hself fun y hy => hinner y (List.mem_map_of_mem hy)
    exact reads_tagged rfl (.map Expression.or hchildren)
  | and children =>
    have hchildren := reads_children hself fun y hy => hinner y (List.mem_map_of_mem hy)
    exact reads_tagged rfl (.map Expression.and hchildren)
  | not inner =>
    exact reads_tagged rfl (.map Expression.not (hinner inner (by simp [parts]) n))
  | compare comparison left right =>
    have hleft := hinner left (by simp [parts]) n
    have hright := hinner right (by simp [parts]) n
    exact (reads_pure n Expression.compare
      |>.field (reads_named (by decide) (by cases comparison <;> decide))
      |>.field hleft
      |>.field hright).tagged rfl rfl
  | vectorSize p => exact reads_tagged rfl (.map vectorSize (hread p (by simp [parts])))
  | isType p => exact reads_tagged rfl (.map isType (hread p (by simp [parts])))
  | instanceOf inner target =>
    have hx := hinner inner (by simp [parts]) n
    have ht : TypeDefinition.decoder.Reads n target.toJson target :=
      (htypes target (by simp [parts])).reads
    exact (reads_pure n Expression.instanceOf
      |>.field hx
      |>.field ht).tagged rfl rfl
  | cast inner target =>
    have hx := hinner inner (by simp [parts]) n
    exact (reads_pure n Expression.cast
      |>.field hx
      |>.field target.reads).tagged rfl rfl
  | inlineTree root edits =>
    have hroot := hinner root (by simp [parts]) n
    have hedits : (list (editDecoder (decoderUpTo n))).Reads n
        (Json.list (TreeEdit.listJson edits)) edits := by
      rw [TreeEdit.listJson_eq]
      refine reads_list fun e he => ?_
      have hmem : ∀ y ∈ e.parts, y ∈ (inlineTree root edits).parts := fun y hy =>
        List.mem_cons_of_mem _ (List.mem_flatMap.mpr ⟨e, he, hy⟩)
      exact reads_edit hself (fun p hp => hpaths p (hmem _ hp)) fun y hy => hinner y (hmem _ hy)
    exact (reads_pure n Expression.inlineTree
      |>.field hroot
      |>.field hedits).tagged rfl rfl
  | fresh => exact reads_unit rfl
  | void => exact reads_unit rfl
  | installFixed p => exact reads_tagged rfl (.map installFixed (hread p (by simp [parts])))

end Expression

theorem VariablePath.Readable.reads {p : VariablePath} (h : p.Readable) :
    VariablePath.decoder.Reads bound p.toJson p :=
  Expression.reads_path (fun _ hx => hx.reads) h

end ServiceCheck
