import ServiceCheck.Proofs.Program.DistinctKeys
import ServiceCheck.Proofs.Wire.Reads

set_option autoImplicit false

namespace ServiceCheck

open Decoder

variable {bound : Nat}

theorem Decoder.reads_of_succ {α : Type} {d : Nat → Decoder α} {j : Json} {x : α}
    (h : ∀ n, (d (n + 1)).Reads (n + 1) j x) : ∀ n, (d n).Reads n j x
  | 0 => ⟨(h 0).whole, nofun⟩
  | n + 1 => h n

theorem Position.reads (p : Position) : Position.decoder.Reads bound p.toJson p :=
  ((reads_pure bound Position.mk).field (reads_string p.source)
    |>.field (reads_uint32 p.line)).record rfl

theorem NativeType.toJson_eq (n : NativeType) :
    n.toJson = Json.text (nameIn NativeType.names n) := by
  cases n <;> rfl

theorem NativeType.reads (n : NativeType) : NativeType.decoder.Reads bound n.toJson n := by
  rw [NativeType.toJson_eq]
  exact reads_named (by decide) (by simp [names, mem_all])

theorem Cardinality.reads (c : Cardinality) : Cardinality.decoder.Reads bound c.toJson c :=
  ((reads_pure bound Cardinality.mk).field (reads_int32 c.min)
    |>.field (reads_int32 c.max)).record rfl

namespace TypeDefinition

def Readable (t : TypeDefinition) : Prop :=
  ∀ n, Decoder.Reads n (decoderUpTo n) t.toJson t

theorem Readable.reads {t : TypeDefinition} (h : t.Readable) :
    TypeDefinition.decoder.Reads bound t.toJson t :=
  reads_unbounded h bound

theorem membersJson_eq (members : List (String × TypeDefinition)) :
    membersJson members = members.map fun e => (e.1, e.2.toJson) := by
  induction members with
  | nil => rfl
  | cons e rest ih => exact congrArg (List.cons (e.1, e.2.toJson)) ih

theorem blockJson_eq (s : Option (List (String × TypeDefinition))) :
    blockJson s = Json.optional (s.map fun members =>
      Json.dictionary (members.map fun e => (e.1, e.2.toJson))) := by
  cases s with
  | none => rfl
  | some members => exact congrArg Json.dictionary (membersJson_eq members)

theorem readable_of_parts {t : TypeDefinition} (hkeys : (Dictionary.keys t.block).Nodup)
    (h : ∀ u, .type u ∈ t.parts → u.Readable) : t.Readable := by
  refine reads_of_succ fun n => ?_
  cases t with
  | inline hd native s untyped =>
    have hblock : (optional (dictionary (decoderUpTo n))).Reads n (blockJson s) s := by
      rw [blockJson_eq]
      refine reads_optional (fun members hmembers => ?_) nofun
      obtain rfl := Option.mem_def.mp hmembers
      exact reads_dictionary (fun e he => h e.2 (List.mem_map_of_mem he) n) hkeys
    exact (reads_pure n (fun p i n c s u => inline ⟨p, i, c⟩ n s u)
      |>.field hd.position.reads
      |>.field (reads_string hd.id)
      |>.field native.reads
      |>.field hd.cardinality.reads
      |>.field hblock
      |>.field (reads_bool untyped)).tagged rfl rfl
  | link hd target =>
    exact (reads_pure n (fun p i c t => link ⟨p, i, c⟩ t)
      |>.field hd.position.reads
      |>.field (reads_string hd.id)
      |>.field hd.cardinality.reads
      |>.field (reads_string target)).tagged rfl rfl
  | choice hd l r =>
    have hl := h l (by simp [parts])
    have hr := h r (by simp [parts])
    exact (reads_pure n (fun p i c l r => choice ⟨p, i, c⟩ l r)
      |>.field hd.position.reads
      |>.field (reads_string hd.id)
      |>.field hd.cardinality.reads
      |>.field (hl n)
      |>.field (hr n)).tagged rfl rfl

end TypeDefinition

end ServiceCheck
