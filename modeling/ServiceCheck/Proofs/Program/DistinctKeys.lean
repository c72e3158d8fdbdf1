import ServiceCheck.Proofs.Program.Parts
import ServiceCheck.Proofs.Types.Unfolding

/-!
No dictionary in a program repeats a key. Dictionaries are lists here, so that this is said of the
nodes that hold one: blocks of types, the operations of an interface and the faults of a reply.
-/

set_option autoImplicit false

namespace ServiceCheck

def Node.keysDistinct : Node → Bool
  | .type t => decide (Dictionary.keys t.block).Nodup
  | .interface i => decide (Dictionary.keys i.operations).Nodup
  | .operation o => decide (Dictionary.keys o.faults).Nodup
  | _ => true

namespace Program

def DistinctKeys (p : Program) : Prop := ∀ x, (Node.program p).Contains x → x.keysDistinct

theorem DistinctKeys.of_allAbove {p : Program} (depth : Nat)
    (h : (Node.program p).allAbove Node.keysDistinct depth) : p.DistinctKeys :=
  fun _ => Node.passes_of_allAbove h

end Program

namespace TypeDefinition

theorem membersNodes_eq (members : List (String × TypeDefinition)) :
    membersNodes members = members.flatMap fun member => member.2.nodes := by
  induction members with
  | nil => rfl
  | cons member rest ih => simp [membersNodes, ih]

theorem mem_nodes_iff (t u : TypeDefinition) :
    u ∈ t.nodes ↔ u = t ∨ ∃ part, .type part ∈ t.parts ∧ u ∈ part.nodes := by
  cases t with
  | inline h n s untyped =>
    cases s with
    | none => simp [nodes, blockNodes, parts]
    | some members =>
      simp only [nodes, blockNodes, parts, membersNodes_eq, List.mem_cons, List.mem_flatMap,
        List.mem_map, Option.getD_some]
      grind
  | link => simp [nodes, parts]
  | choice => simp [nodes, parts, or_and_right, exists_or]

theorem contains_iff (t : TypeDefinition) (x : Node) :
    (Node.type t).Contains x ↔ ∃ u ∈ t.nodes, x = .type u := by
  induction hy : Node.type t using Node.induction generalizing t with
  | step y ih =>
    subst hy
    rw [Node.contains_iff]
    constructor
    · rintro (rfl | ⟨part, hpart, h⟩)
      · exact ⟨t, mem_nodes_self t, rfl⟩
      · obtain ⟨v, rfl⟩ := Node.exists_type_of_mem_parts hpart
        obtain ⟨u, hu, rfl⟩ := (ih _ hpart v rfl).mp h
        exact ⟨u, (t.mem_nodes_iff u).mpr (.inr ⟨v, hpart, hu⟩), rfl⟩
    · rintro ⟨u, hu, rfl⟩
      rcases (t.mem_nodes_iff u).mp hu with rfl | ⟨v, hpart, hu⟩
      · exact .inl rfl
      · exact .inr ⟨.type v, hpart, (ih _ hpart v rfl).mpr ⟨u, hu, rfl⟩⟩

theorem distinctKeys_iff (t : TypeDefinition) :
    t.DistinctKeys ↔ ∀ x, (Node.type t).Contains x → x.keysDistinct := by
  simp only [contains_iff, DistinctKeys]
  constructor
  · rintro h x ⟨u, hu, rfl⟩
    exact decide_eq_true (h u hu)
  · intro h u hu
    exact of_decide_eq_true (h _ ⟨u, hu, rfl⟩)

end TypeDefinition

end ServiceCheck
