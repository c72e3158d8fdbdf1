import Mathlib.Data.List.Nodup
import ServiceCheck.Proofs.Correlation.Claims
import ServiceCheck.Proofs.Program.Bare

/-!
The registers of a correlation function: the pairs of each operation, its set, and the operations
of each set. Entering one operation after the other fills them as they are read off the bindings,
so that the first two agree on the operations and the third is the inverse of the second.
-/

set_option autoImplicit false

namespace ServiceCheck

open Dictionary (keys mapValues)

structure Registers where
  pairs : Dictionary (List CorrelationPair)
  sets : Dictionary Nat
  operations : List (Nat × List String)
deriving Repr

namespace Registers

def empty : Registers := ⟨[], [], []⟩

/-- Appends to the operations of a set. A set that has none yet comes last. -/
def append (id : Nat) (operation : String) : List (Nat × List String) → List (Nat × List String)
  | [] => [(id, [operation])]
  | (other, operations) :: rest =>
    if other = id then (other, operations ++ [operation]) :: rest
    else (other, operations) :: append id operation rest

def enter (id : Nat) (r : Registers) (claim : String × List CorrelationPair) : Registers :=
  if Dictionary.contains r.sets claim.1 then r
  else
    ⟨Dictionary.set r.pairs claim.1 claim.2, Dictionary.set r.sets claim.1 id,
      append id claim.1 r.operations⟩

def enterAll (index : CorrelationSet.RequestIndex) : Nat → Registers → List CorrelationSet →
    Registers
  | _, r, [] => r
  | id, r, set :: rest => enterAll index (id + 1) ((set.claims index).foldl (enter id) r) rest

/-- The first two registers list the same operations, each bound to one of the sets. The third is the
exact inverse of the second, and lists nothing twice. -/
structure Consistent (count : Nat) (r : Registers) : Prop where
  keys_eq : keys r.pairs = keys r.sets
  nodup_keys : (keys r.sets).Nodup
  valid : ∀ operation id, (operation, id) ∈ r.sets → id < count
  nodup_places : (r.operations.map (·.1)).Nodup
  nodup_operations : (r.operations.flatMap (·.2)).Nodup
  inverse : ∀ id operations, (id, operations) ∈ r.operations ↔
    operations ≠ [] ∧ operations = keys (r.sets.filter (·.2 = id))

end Registers

namespace CorrelationFunction

def registers (f : CorrelationFunction) : Registers :=
  ⟨mapValues (·.pairs) f.bindings, mapValues (·.set) f.bindings, f.setOperations⟩

variable {sets : List CorrelationSet} {bound : Dictionary Binding} {operation : String} {id : Nat}
  {pairs : List CorrelationPair}

theorem operationsOf_append (e : String × Binding) (place : Nat) :
    operationsOf ⟨sets, bound ++ [e]⟩ place =
      operationsOf ⟨sets, bound⟩ place ++ if e.2.set = place then [e.1] else [] := by
  by_cases h : e.2.set = place <;> simp [operationsOf, h]

theorem operationsOf_eq_nil_iff {place : Nat} :
    operationsOf ⟨sets, bound⟩ place = [] ↔ ∀ e ∈ bound, e.2.set ≠ place := by
  simp [operationsOf]

end CorrelationFunction

namespace Registers

section Grouped

variable {operationsOf operationsOf' : Nat → List String} {id : Nat} {operation : String}

def grouped (operationsOf : Nat → List String) (count : Nat) : List (Nat × List String) :=
  ((List.range count).map fun place => (place, operationsOf place)).filter (!·.2.isEmpty)

theorem grouped_succ (count : Nat) :
    grouped operationsOf (count + 1) =
      grouped operationsOf count ++
        if operationsOf count = [] then [] else [(count, operationsOf count)] := by
  by_cases h : operationsOf count = [] <;> simp [grouped, List.range_succ, h]

theorem grouped_congr {count : Nat}
    (h : ∀ place < count, operationsOf place = operationsOf' place) :
    grouped operationsOf count = grouped operationsOf' count := by
  rw [grouped, grouped]
  refine congrArg (List.filter _) (List.map_congr_left fun place hplace => ?_)
  rw [h place (List.mem_range.mp hplace)]

theorem grouped_of_le {n count : Nat} (hle : n ≤ count)
    (h : ∀ place, n ≤ place → operationsOf place = []) :
    grouped operationsOf count = grouped operationsOf n := by
  induction hle with
  | refl => rfl
  | step hle ih => rw [grouped_succ, if_pos (h _ hle), List.append_nil, ih]

theorem append_of_notMem {front back : List (Nat × List String)}
    (h : ∀ e ∈ front, e.1 ≠ id) :
    append id operation (front ++ back) = front ++ append id operation back := by
  induction front with
  | nil => rfl
  | cons e rest ih =>
    obtain ⟨he, hrest⟩ := List.forall_mem_cons.mp h
    rw [List.cons_append, append, if_neg he, ih hrest, List.cons_append]

theorem grouped_append {count : Nat} (hid : id < count)
    (hlater : ∀ place, id < place → operationsOf place = [])
    (hsame : ∀ place, place ≠ id → operationsOf' place = operationsOf place)
    (hnew : operationsOf' id = operationsOf id ++ [operation]) :
    grouped operationsOf' count = append id operation (grouped operationsOf count) := by
  have hlater' : ∀ place, id + 1 ≤ place → operationsOf' place = [] := fun place hplace => by
    rw [hsame place (by omega), hlater place hplace]
  have hfront : ∀ e ∈ grouped operationsOf id, e.1 ≠ id := by
    intro e he heq
    obtain ⟨place, hplace, rfl⟩ := List.mem_map.mp (List.mem_filter.mp he).1
    exact Nat.ne_of_lt (List.mem_range.mp hplace) heq
  rw [grouped_of_le hid hlater', grouped_of_le hid hlater, grouped_succ, grouped_succ,
    append_of_notMem hfront, hnew,
    grouped_congr fun place hplace => hsame place (Nat.ne_of_lt hplace)]
  by_cases h : operationsOf id = [] <;> simp [h, append]

end Grouped

section Enter

variable {types : TypeMap} {index : CorrelationSet.RequestIndex} {all : List CorrelationSet}
  {bound : Dictionary Binding} {id : Nat}

def Below (count : Nat) (bound : Dictionary Binding) : Prop := ∀ e ∈ bound, e.2.set < count

theorem Below.succ (h : Below id bound) : Below (id + 1) bound :=
  fun e he => Nat.lt_succ_of_lt (h e he)

theorem Below.append (h : Below (id + 1) bound) (claims : Dictionary (List CorrelationPair)) :
    Below (id + 1) (bound ++ claims.map fun claim => (claim.1, ⟨id, claim.2⟩)) := by
  refine List.forall_mem_append.mpr ⟨h, List.forall_mem_map.mpr fun claim _ => ?_⟩
  exact Nat.lt_succ_self id

theorem Below.bind (h : Below id bound) (set : CorrelationSet) :
    Below (id + 1) (set.bind index id bound) := h.succ.append _

theorem Below.bindAll (h : Below id bound) (sets : List CorrelationSet) :
    Below (id + sets.length) (CorrelationSet.bindAll types index id bound sets).1 := by
  induction sets generalizing id bound with
  | nil => exact h
  | cons set rest ih =>
    rw [List.length_cons, Nat.add_comm rest.length, ← Nat.add_assoc]
    exact ih (h.bind set)

theorem enter_bound {claim : String × List CorrelationPair}
    (h : Dictionary.contains bound claim.1 = true) :
    enter id (CorrelationFunction.registers ⟨all, bound⟩) claim =
      CorrelationFunction.registers ⟨all, bound⟩ := by
  rw [enter, CorrelationFunction.registers, Dictionary.contains_mapValues, if_pos h]

theorem enter_free (hid : id < all.length) (hbound : Below (id + 1) bound)
    {claim : String × List CorrelationPair} (h : Dictionary.contains bound claim.1 = false) :
    enter id (CorrelationFunction.registers ⟨all, bound⟩) claim =
      CorrelationFunction.registers ⟨all, bound ++ [(claim.1, ⟨id, claim.2⟩)]⟩ := by
  have hnew : claim.1 ∉ keys bound := by
    rw [← Dictionary.get?_eq_none_iff]
    simpa [Dictionary.contains] using h
  have hoperations : CorrelationFunction.setOperations
      ⟨all, bound ++ [(claim.1, ⟨id, claim.2⟩)]⟩ =
        append id claim.1 (CorrelationFunction.setOperations ⟨all, bound⟩) := by
    refine grouped_append hid (fun place hplace => ?_) (fun place hplace => ?_) ?_
    · exact CorrelationFunction.operationsOf_eq_nil_iff.mpr fun e he =>
        Nat.ne_of_lt (Nat.lt_of_lt_of_le (hbound e he) hplace)
    · rw [CorrelationFunction.operationsOf_append, if_neg (Ne.symm hplace), List.append_nil]
    · rw [CorrelationFunction.operationsOf_append, if_pos rfl]
  rw [enter, CorrelationFunction.registers, Dictionary.contains_mapValues, h,
    if_neg Bool.false_ne_true, Dictionary.set_of_notMem (by rwa [Dictionary.keys_mapValues]),
    Dictionary.set_of_notMem (by rwa [Dictionary.keys_mapValues]), ← hoperations,
    CorrelationFunction.registers, Dictionary.mapValues_append, Dictionary.mapValues_append]
  rfl

theorem foldl_enter (hid : id < all.length) {claims : Dictionary (List CorrelationPair)}
    (hclaims : (keys claims).Nodup) (hbound : Below (id + 1) bound) :
    claims.foldl (enter id) (CorrelationFunction.registers ⟨all, bound⟩) =
      CorrelationFunction.registers
        ⟨all, bound ++ (claims.filter fun claim => !Dictionary.contains bound claim.1).map
          fun claim => (claim.1, ⟨id, claim.2⟩)⟩ := by
  induction claims generalizing bound with
  | nil => simp
  | cons claim rest ih =>
    obtain ⟨hnotin, hrest⟩ := List.nodup_cons.mp hclaims
    rw [List.foldl_cons]
    cases hfree : Dictionary.contains bound claim.1 with
    | true => simp [enter_bound hfree, ih hrest hbound, hfree]
    | false =>
      have hsame : ∀ other ∈ rest, (!Dictionary.contains
          (bound ++ [(claim.1, (⟨id, claim.2⟩ : Binding))]) other.1) =
            !Dictionary.contains bound other.1 := fun other hother => by
        have hne : claim.1 ≠ other.1 := fun heq =>
          hnotin (List.mem_map.mpr ⟨other, hother, heq.symm⟩)
        simp [Dictionary.contains, Dictionary.get?_append, Dictionary.get?_nil, Dictionary.get?_cons,
          hne]
      have hnext : Below (id + 1) (bound ++ [(claim.1, ⟨id, claim.2⟩)]) :=
        hbound.append [claim]
      rw [enter_free hid hbound hfree, ih hrest hnext, List.filter_congr hsame]
      simp [hfree]

/-- The registers after a run over the sets are those of the bindings. -/
theorem enterAll_registers {sets : List CorrelationSet} (hcount : id + sets.length ≤ all.length)
    (hbound : Below id bound) :
    enterAll index id (CorrelationFunction.registers ⟨all, bound⟩) sets =
      CorrelationFunction.registers
        ⟨all, (CorrelationSet.bindAll types index id bound sets).1⟩ := by
  induction sets generalizing id bound with
  | nil => rfl
  | cons set rest ih =>
    rw [List.length_cons] at hcount
    rw [enterAll, foldl_enter (by omega) CorrelationSet.nodup_keys_claims hbound.succ,
      CorrelationSet.bindAll_cons]
    exact ih (by omega) (hbound.bind set)

end Enter

theorem enterAll_empty (types : TypeMap) (index : CorrelationSet.RequestIndex)
    (sets : List CorrelationSet) :
    enterAll index 0 empty sets =
      (CorrelationFunction.ofSets types index sets).1.registers := by
  have hempty : empty = CorrelationFunction.registers ⟨sets, []⟩ := by
    have hnone : ∀ count, grouped (fun _ => []) count = [] := fun count => by simp [grouped]
    exact congrArg (Registers.mk [] []) (hnone sets.length).symm
  have hbelow : Below 0 [] := List.forall_mem_nil _
  rw [hempty, enterAll_registers (Nat.le_of_eq (Nat.zero_add _)) hbelow]
  rfl

end Registers

namespace CorrelationSet

variable {index : RequestIndex} {id : Nat} {bound : Dictionary Binding}

theorem nodup_keys_bind (h : (keys bound).Nodup) (set : CorrelationSet) :
    (keys (set.bind index id bound)).Nodup := by
  rw [bind, keys, List.map_append, List.map_map, List.nodup_append]
  refine ⟨h, nodup_keys_claims.sublist (List.filter_sublist.map _), ?_⟩
  rintro operation hbound _ hfree rfl
  obtain ⟨claim, hclaim, rfl⟩ := List.mem_map.mp hfree
  have hnew := (List.mem_filter.mp hclaim).2
  have hold : Dictionary.contains bound claim.1 = true :=
    (Dictionary.get?_isSome_iff ..).mpr hbound
  rw [hold] at hnew
  cases hnew

theorem nodup_keys_bindAll (types : TypeMap) (h : (keys bound).Nodup)
    (sets : List CorrelationSet) : (keys (bindAll types index id bound sets).1).Nodup := by
  induction sets generalizing id bound with
  | nil => exact h
  | cons set rest ih => exact ih (nodup_keys_bind h set)

end CorrelationSet

namespace CorrelationFunction

variable {f : CorrelationFunction}

theorem mem_setOperations_iff {id : Nat} {operations : List String} :
    (id, operations) ∈ f.setOperations ↔
      id < f.sets.length ∧ operations ≠ [] ∧ operations = f.operationsOf id := by
  simp only [setOperations, List.mem_filter, List.mem_map, List.mem_range, Prod.mk.injEq]
  constructor
  · rintro ⟨⟨_, hid, rfl, rfl⟩, hsome⟩
    exact ⟨hid, by simpa using hsome, rfl⟩
  · rintro ⟨hid, hsome, rfl⟩
    exact ⟨⟨id, hid, rfl, rfl⟩, by simpa using hsome⟩

theorem operationsOf_eq_keys (id : Nat) :
    f.operationsOf id = keys ((mapValues (·.set) f.bindings).filter (·.2 = id)) := by
  rw [mapValues, List.filter_map, keys, List.map_map]
  rfl

theorem mem_operationsOf_iff (hkeys : (keys f.bindings).Nodup) {operation : String} {id : Nat} :
    operation ∈ f.operationsOf id ↔ f.setId? operation = some id := by
  rw [operationsOf, setId?, List.mem_map, Option.map_eq_some_iff]
  constructor
  · rintro ⟨e, he, rfl⟩
    obtain ⟨he, hset⟩ := List.mem_filter.mp he
    exact ⟨e.2, Dictionary.get?_of_mem hkeys he, of_decide_eq_true hset⟩
  · rintro ⟨b, hb, hset⟩
    exact ⟨_, List.mem_filter.mpr ⟨Dictionary.mem_of_get? hb, decide_eq_true hset⟩, rfl⟩

theorem nodup_operationsOf (hkeys : (keys f.bindings).Nodup) (id : Nat) :
    (f.operationsOf id).Nodup :=
  hkeys.sublist (List.filter_sublist.map _)

theorem nodup_places : (f.setOperations.map (·.1)).Nodup := by
  refine List.Nodup.sublist (List.filter_sublist.map _) ?_
  rw [List.map_map]
  exact (List.map_id _).symm ▸ List.nodup_range

theorem nodup_setOperations (hkeys : (keys f.bindings).Nodup) :
    (f.setOperations.flatMap (·.2)).Nodup := by
  refine List.nodup_flatMap.mpr ⟨fun e he => ?_, ?_⟩
  · rw [(mem_setOperations_iff.mp he).2.2]
    exact nodup_operationsOf hkeys e.1
  · refine (List.pairwise_map.mp nodup_places).imp_of_mem fun he he' hne operation h h' => hne ?_
    have hbound : ∀ e ∈ f.setOperations, operation ∈ e.2 → f.setId? operation = some e.1 := by
      intro e he hmem
      rwa [(mem_setOperations_iff.mp he).2.2, mem_operationsOf_iff hkeys] at hmem
    exact Option.some.inj ((hbound _ he h).symm.trans (hbound _ he' h'))

theorem registers_consistent (hkeys : (keys f.bindings).Nodup)
    (hbelow : Registers.Below f.sets.length f.bindings) :
    f.registers.Consistent f.sets.length where
  keys_eq := by rw [registers, Dictionary.keys_mapValues, Dictionary.keys_mapValues]
  nodup_keys := by rwa [registers, Dictionary.keys_mapValues]
  valid operation id h := by
    obtain ⟨e, he, heq⟩ := List.mem_map.mp h
    rw [Prod.mk.injEq] at heq
    exact heq.2 ▸ hbelow e he
  nodup_places := nodup_places
  nodup_operations := nodup_setOperations hkeys
  inverse id operations := by
    rw [registers, mem_setOperations_iff, ← operationsOf_eq_keys]
    refine and_iff_right_of_imp fun ⟨hsome, heq⟩ => ?_
    obtain ⟨operation, hmem⟩ := List.exists_mem_of_ne_nil _ hsome
    rw [heq, operationsOf, List.mem_map] at hmem
    obtain ⟨e, he, -⟩ := hmem
    obtain ⟨he, hid⟩ := List.mem_filter.mp he
    exact of_decide_eq_true hid ▸ hbelow e he

/-- However sets, guards and operations overlap, the registers of the function are consistent. -/
theorem ofSets_consistent (types : TypeMap) (index : CorrelationSet.RequestIndex)
    (sets : List CorrelationSet) :
    (ofSets types index sets).1.registers.Consistent sets.length := by
  have hempty : (keys ([] : Dictionary Binding)).Nodup := .nil
  have hkeys : (keys (ofSets types index sets).1.bindings).Nodup :=
    CorrelationSet.nodup_keys_bindAll types hempty sets
  have hbelow : Registers.Below (0 + sets.length) (ofSets types index sets).1.bindings :=
    Registers.Below.bindAll (List.forall_mem_nil _) sets
  rw [Nat.zero_add] at hbelow
  exact registers_consistent hkeys hbelow

end CorrelationFunction

end ServiceCheck
