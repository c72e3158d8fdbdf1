import ServiceCheck.Proofs.Program.Parts

set_option autoImplicit false

namespace ServiceCheck

namespace Node

def written (x : Node) : List Node :=
  x :: x.parts.attach.flatMap fun ⟨y, _⟩ => y.written
termination_by sizeOf x
decreasing_by exact sizeOf_lt_of_mem_parts (by assumption)

theorem written_eq (x : Node) : x.written = x :: x.parts.flatMap written := by
  rw [written, List.flatMap_def, List.flatMap_def]
  exact congrArg (fun parts => x :: List.flatten parts) List.attach_map_val

theorem mem_written_iff {x y : Node} : y ∈ x.written ↔ x.Contains y := by
  induction x using Node.induction with
  | step x ih =>
    rw [written_eq, List.mem_cons, List.mem_flatMap, contains_iff]
    exact or_congr_right (exists_congr fun part => and_congr_right fun hpart => ih part hpart)

/-- All that is written in a node, each with the node that it is a part of. -/
def writtenIn (whole : Option Node) (x : Node) : List (Option Node × Node) :=
  (whole, x) :: x.parts.attach.flatMap fun ⟨y, _⟩ => y.writtenIn (some x)
termination_by sizeOf x
decreasing_by exact sizeOf_lt_of_mem_parts (by assumption)

theorem writtenIn_eq (whole : Option Node) (x : Node) :
    x.writtenIn whole = (whole, x) :: x.parts.flatMap (writtenIn (some x)) := by
  rw [writtenIn, List.flatMap_def, List.flatMap_def]
  exact congrArg (fun parts => (whole, x) :: List.flatten parts) List.attach_map_val

theorem map_snd_writtenIn (whole : Option Node) (x : Node) :
    (x.writtenIn whole).map (·.2) = x.written := by
  induction x using Node.induction generalizing whole with
  | step x ih =>
    rw [writtenIn_eq, written_eq, List.map_cons, List.map_flatMap, List.flatMap_def,
      List.flatMap_def]
    exact congrArg (fun parts => x :: List.flatten parts)
      (List.map_congr_left fun y hy => ih y hy (some x))

theorem mem_parts_of_mem_writtenIn {whole : Option Node} {x : Node} {e : Option Node × Node}
    (h : e ∈ x.writtenIn whole) :
    e = (whole, x) ∨ ∃ y ∈ x.written, e.1 = some y ∧ e.2 ∈ y.parts := by
  induction x using Node.induction generalizing whole with
  | step x ih =>
    rw [writtenIn_eq] at h
    rcases List.mem_cons.mp h with rfl | h
    · exact .inl rfl
    · obtain ⟨part, hpart, h⟩ := List.mem_flatMap.mp h
      refine .inr ?_
      rcases ih part hpart h with rfl | ⟨y, hy, hwhole, hmem⟩
      · exact ⟨x, mem_written_iff.mpr (.self x), rfl, hpart⟩
      · exact ⟨y, mem_written_iff.mpr (.of_part hpart (mem_written_iff.mp hy)), hwhole, hmem⟩

def isOperand : Node → Bool
  | .expression _ | .path _ | .type _ => true
  | _ => false

theorem isOperand_of_mem_parts {x y : Node} (hx : x.isOperand) (h : y ∈ x.parts) :
    y.isOperand := by
  cases x <;> cases hx
  case type t =>
    obtain ⟨u, rfl⟩ := exists_type_of_mem_parts h
    rfl
  case expression e =>
    cases e <;> simp only [parts, Expression.parts] at h
    case inlineTree =>
      rcases List.mem_cons.mp h with rfl | h
      · rfl
      · obtain ⟨edit, -, h⟩ := List.mem_flatMap.mp h
        cases edit <;> simp [TreeEdit.parts] at h <;> rcases h with rfl | rfl <;> rfl
    case literal | fresh | void => cases h
    all_goals
      simp at h
      grind [isOperand]
  case path p =>
    obtain ⟨step, -, h⟩ := List.mem_flatMap.mp h
    rcases List.mem_cons.mp h with rfl | h
    · rfl
    · obtain ⟨index, -, rfl⟩ := List.mem_map.mp h
      rfl

theorem isOperand_of_mem_written {x y : Node} (hx : x.isOperand) (h : y ∈ x.written) :
    y.isOperand := by
  induction mem_written_iff.mp h with
  | self => exact hx
  | part _ mem rest ih => exact ih (isOperand_of_mem_parts hx mem) (mem_written_iff.mpr rest)

def isDeclarative : Node → Bool
  | .program _ | .declaration _ | .procedure _ | .courier _ | .statement _ => false
  | _ => true

theorem isDeclarative_of_isOperand {x : Node} (h : x.isOperand) : x.isDeclarative := by
  cases x <;> first | rfl | cases h

theorem isDeclarative_of_mem_parts {x y : Node} (hx : x.isDeclarative) (h : y ∈ x.parts) :
    y.isDeclarative := by
  cases x <;> cases hx
  case type | expression | path =>
    exact isDeclarative_of_isOperand (isOperand_of_mem_parts rfl h)
  case interface | operation =>
    obtain ⟨_, -, rfl⟩ := List.mem_map.mp h
    rfl
  case inputPort | outputPort =>
    rcases List.mem_append.mp h with h | h <;> obtain ⟨_, -, rfl⟩ := List.mem_map.mp h <;> rfl
  case correlationSet =>
    obtain ⟨v, -, h⟩ := List.mem_flatMap.mp h
    rcases List.mem_cons.mp h with rfl | h
    · rfl
    · obtain ⟨_, -, rfl⟩ := List.mem_map.mp h
      rfl
  case execution | embeddedService => cases h

theorem isDeclarative_of_mem_written {x y : Node} (hx : x.isDeclarative) (h : y ∈ x.written) :
    y.isDeclarative := by
  induction mem_written_iff.mp h with
  | self => exact hx
  | part _ mem rest ih => exact ih (isDeclarative_of_mem_parts hx mem) (mem_written_iff.mpr rest)

end Node

end ServiceCheck
