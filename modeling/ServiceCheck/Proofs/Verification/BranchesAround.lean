import Mathlib.Data.List.Basic
import ServiceCheck.Proofs.Verification.Sites

set_option autoImplicit false

namespace ServiceCheck

/-- The parts of a statement, each with the kinds of the courier branches around it, the innermost
first. -/
def Statement.partsUnder (branches : List OperationKind) :
    Statement → List (List OperationKind × Node)
  | .courierChoice _ choices =>
    choices.flatMap fun b => b.parts.map fun part => (b.kind :: branches, part)
  | s => s.parts.map fun part => (branches, part)

/-- The branch under which a site is judged. Paths are judged alike under all. -/
def Site.courier : Site → Option OperationKind
  | .statement courier _ => courier
  | .path _ => none

namespace Node

def partsUnder (branches : List OperationKind) : Node → List (List OperationKind × Node)
  | .statement s => s.partsUnder branches
  | x => x.parts.map fun part => (branches, part)

theorem map_snd_partsUnder (branches : List OperationKind) (x : Node) :
    (x.partsUnder branches).map (·.2) = x.parts := by
  have hopen : ∀ (branches : List OperationKind) (parts : List Node),
      (parts.map fun part => (branches, part)).map (·.2) = parts :=
    fun branches parts => by simp [Function.comp_def]
  cases x
  case statement s =>
    cases s
    case courierChoice position choices =>
      rw [partsUnder, Statement.partsUnder, parts, Statement.parts, List.map_flatMap]
      exact List.flatMap_congr fun b _ => hopen _ _
    all_goals exact hopen _ _
  all_goals exact hopen _ _

theorem mem_parts_of_mem_partsUnder {branches : List OperationKind} {x : Node}
    {part : List OperationKind × Node} (h : part ∈ x.partsUnder branches) : part.2 ∈ x.parts := by
  rw [← map_snd_partsUnder branches]
  exact List.mem_map_of_mem h

def writtenUnder (branches : List OperationKind) (x : Node) : List (List OperationKind × Node) :=
  (branches, x) :: (x.partsUnder branches).attach.flatMap fun ⟨part, _⟩ =>
    part.2.writtenUnder part.1
termination_by sizeOf x
decreasing_by exact sizeOf_lt_of_mem_parts (mem_parts_of_mem_partsUnder (by assumption))

theorem writtenUnder_eq (branches : List OperationKind) (x : Node) :
    x.writtenUnder branches =
      (branches, x) :: (x.partsUnder branches).flatMap fun part => part.2.writtenUnder part.1 := by
  have hval := List.attach_map_val (l := x.partsUnder branches)
    (f := fun part => part.2.writtenUnder part.1)
  rw [writtenUnder, List.flatMap_def, List.flatMap_def]
  exact congrArg (fun parts => (branches, x) :: List.flatten parts) hval

theorem map_snd_writtenUnder (branches : List OperationKind) (x : Node) :
    (x.writtenUnder branches).map (·.2) = x.written := by
  induction x using Node.induction generalizing branches with
  | step x ih =>
    rw [writtenUnder_eq, written_eq, List.map_cons, List.map_flatMap,
      ← map_snd_partsUnder branches x, List.flatMap_map]
    refine congrArg (x :: ·) (List.flatMap_congr fun part hpart => ?_)
    exact ih part.2 (mem_parts_of_mem_partsUnder hpart) part.1

section Sites

variable {β : Type} {f : Option OperationKind → Node → Option β}
  {branches : List OperationKind}

theorem filterMap_writtenUnder_of_isOperand
    (hoperand : ∀ courier x, x.isOperand → f courier x = none) {x : Node}
    (hx : x.isOperand) :
    (x.writtenUnder branches).filterMap (fun e => f e.1.head? e.2) = [] := by
  refine List.filterMap_eq_nil_iff.mpr fun e he => hoperand _ _ (isOperand_of_mem_written hx ?_)
  rw [← map_snd_writtenUnder branches]
  exact List.mem_map_of_mem he

theorem filterMap_sites_statement (courier : Option OperationKind) (s : Statement) :
    ((statement s).sites courier).filterMap (fun site => f site.courier site.node) =
      (f courier (.statement s)).toList ++
        (s.judgedParts courier).flatMap fun part =>
          (part.2.sites part.1).filterMap fun site => f site.courier site.node := by
  rw [sites, Statement.sites_eq, List.filterMap_cons, List.filterMap_flatMap, Site.node,
    Site.courier]
  cases f courier (.statement s) <;> rfl

theorem filterMap_judgedParts (hoperand : ∀ courier x, x.isOperand → f courier x = none)
    (hchoice : ∀ courier position branches,
      f courier (.statement (.inputChoice position branches)) = none)
    {s : Statement} (hparts : ∀ y ∈ s.parts, ∀ branches : List OperationKind,
      (y.sites branches.head?).filterMap (fun site => f site.courier site.node) =
        (y.writtenUnder branches).filterMap fun e => f e.1.head? e.2) :
    ((s.judgedParts branches.head?).flatMap fun part =>
        (part.2.sites part.1).filterMap fun site => f site.courier site.node) =
      (s.partsUnder branches).flatMap fun part =>
        (part.2.writtenUnder part.1).filterMap fun e => f e.1.head? e.2 := by
  have hchoices : ∀ position choices,
      (((Statement.inputChoice position choices).judgedParts branches.head?).flatMap fun part =>
        (part.2.sites part.1).filterMap fun site => f site.courier site.node) =
          ((statement (.inputChoice position choices)).sites branches.head?).filterMap
            fun site => f site.courier site.node := by
    intro position choices
    rw [filterMap_sites_statement, hchoice]
    rfl
  have hopen : (s.parts.map fun part => (branches.head?, part)).flatMap
      (fun part => (part.2.sites part.1).filterMap fun site => f site.courier site.node) =
        (s.parts.map fun part => (branches, part)).flatMap fun part =>
          (part.2.writtenUnder part.1).filterMap fun e => f e.1.head? e.2 := by
    rw [List.flatMap_map, List.flatMap_map]
    exact List.flatMap_congr fun y hy => hparts y hy branches
  cases s
  case solicitResponse =>
    refine (List.flatMap_eq_nil_iff.mpr fun part hpart => ?_).symm
    refine filterMap_writtenUnder_of_isOperand hoperand ?_
    obtain ⟨y, hy, rfl⟩ := List.mem_map.mp hpart
    simp only [Statement.parts, List.mem_append, List.mem_map] at hy
    obtain ⟨_, -, rfl⟩ | ⟨_, -, rfl⟩ := hy <;> rfl
  case provideUntil position provide finish =>
    have hprovide := hparts _ List.mem_cons_self branches
    have hfinish := hparts _ (List.mem_cons_of_mem _ List.mem_cons_self) branches
    rw [Statement.judgedParts_provideUntil]
    split
    · rename_i hsides
      obtain ⟨hp, hf⟩ := Bool.and_eq_true_iff.mp hsides
      obtain ⟨p, provided, rfl⟩ := provide.isChoice_iff.mp hp
      obtain ⟨p', finishing, rfl⟩ := finish.isChoice_iff.mp hf
      rw [List.flatMap_append, hchoices, hchoices, hprovide, hfinish]
      simp [Statement.partsUnder, Statement.parts]
    · simp [Statement.partsUnder, Statement.parts, hprovide, hfinish]
  case courierChoice position choices =>
    rw [Statement.judgedParts, Statement.partsUnder, List.flatMap_assoc, List.flatMap_assoc]
    refine List.flatMap_congr fun b hb => ?_
    rw [List.flatMap_map, List.flatMap_map]
    exact List.flatMap_congr fun y hy =>
      hparts y (List.mem_flatMap.mpr ⟨b, hb, hy⟩) (b.kind :: branches)
  all_goals
    rw [Statement.judgedParts_of_open branches.head? (by simp) (by simp) (by simp)]
    exact hopen

/-- The sites show all that is written and is neither an operand nor a choice, in its order and
under the innermost branch around it. -/
theorem filterMap_sites_under (hoperand : ∀ courier x, x.isOperand → f courier x = none)
    (hchoice : ∀ courier position branches,
      f courier (.statement (.inputChoice position branches)) = none)
    (x : Node) (hx : x.isCode) (branches : List OperationKind) :
    (x.sites branches.head?).filterMap (fun site => f site.courier site.node) =
      (x.writtenUnder branches).filterMap fun e => f e.1.head? e.2 := by
  have hpaths : ∀ paths : List VariablePath,
      (paths.map Site.path).filterMap (fun site => f site.courier site.node) = [] := fun paths =>
    List.filterMap_eq_nil_iff.mpr fun site hsite => by
      obtain ⟨path, -, rfl⟩ := List.mem_map.mp hsite
      exact hoperand _ _ rfl
  have hnone : ∀ {x : Node} (branches : List OperationKind), x.isOperand →
      (x.writtenUnder branches).filterMap (fun e => f e.1.head? e.2) = [] :=
    fun _ hx => filterMap_writtenUnder_of_isOperand hoperand hx
  induction x using Node.induction generalizing branches with
  | step x ih =>
    cases x with
    | statement s =>
      have hparts := fun y hy => ih y hy (isCode_of_mem_parts hx hy)
      rw [filterMap_sites_statement, filterMap_judgedParts hoperand hchoice hparts,
        writtenUnder_eq, List.filterMap_cons, List.filterMap_flatMap]
      cases f branches.head? (.statement s) <;> rfl
    | expression => exact (hpaths _).trans (hnone branches rfl).symm
    | path => exact (hpaths _).trans (hnone branches rfl).symm
    | type => exact (hnone branches rfl).symm
    | _ => cases hx

/-- Where the branch does not matter, the sites are read as what is written. -/
theorem filterMap_sites {f : Node → Option β} (hoperand : ∀ x, x.isOperand → f x = none)
    (hchoice : ∀ position branches, f (.statement (.inputChoice position branches)) = none)
    (x : Node) (hx : x.isCode) (courier : Option OperationKind) :
    (x.sites courier).filterMap (f ·.node) = x.written.filterMap f := by
  have hunder := filterMap_sites_under (f := fun _ => f) (fun _ => hoperand) (fun _ => hchoice)
    x hx courier.toList
  rw [← map_snd_writtenUnder courier.toList, List.filterMap_map]
  cases courier <;> exact hunder

end Sites

end Node

end ServiceCheck
