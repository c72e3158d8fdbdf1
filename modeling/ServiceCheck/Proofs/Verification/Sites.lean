import ServiceCheck.Proofs.Program.Written
import ServiceCheck.Verification.Behaviour

/-!
The sites of a statement, one level at a time: the statement itself, then the sites of the parts
that are judged, each under the courier branch around it. All statements and paths inside are sites
but those behind a solicit-response, and the two choices of a provide-until as such.
-/

set_option autoImplicit false

namespace ServiceCheck

def Node.sites (courier : Option OperationKind) : Node → List Site
  | .statement s => s.sites courier
  | .expression x => x.sites
  | .path p => p.sites
  | _ => []

section Paths

variable (courier : Option OperationKind)

theorem Expression.operandNodes_eq (operands : List (Arithmetic × Expression)) :
    Expression.operandNodes operands = operands.flatMap fun operand => operand.2.nodes := by
  induction operands with
  | nil => rfl
  | cons operand rest ih => simp [Expression.operandNodes, ih]

theorem Expression.childNodes_eq (children : List Expression) :
    Expression.childNodes children = children.flatMap Expression.nodes := by
  induction children with
  | nil => rfl
  | cons child rest ih => simp [Expression.childNodes, ih]

theorem TreeEdit.sites_eq (edits : List TreeEdit) :
    ((TreeEdit.nodes edits).filterMap Node.path?).map Site.path =
      (edits.flatMap TreeEdit.parts).flatMap (Node.sites courier) := by
  induction edits with
  | nil => rfl
  | cons edit rest ih =>
    cases edit <;>
      simp [TreeEdit.nodes, TreeEdit.parts, Node.sites, VariablePath.sites, VariablePath.paths,
        Expression.sites, Expression.paths, ih]

theorem PathStep.sites_eq (steps : List PathStep) :
    ((PathStep.nodes steps).filterMap Node.path?).map Site.path =
      (steps.flatMap PathStep.parts).flatMap (Node.sites courier) := by
  induction steps with
  | nil => rfl
  | cons step rest ih =>
    obtain ⟨key, index⟩ := step
    cases index <;>
      simp [PathStep.nodes, PathStep.parts, Node.sites, Expression.sites, Expression.paths, ih]

theorem Expression.sites_eq (x : Expression) :
    x.sites = x.parts.flatMap (Node.sites courier) := by
  cases x <;>
    simp [Expression.sites, Expression.paths, Expression.nodes, Expression.parts, Node.path?,
      Node.sites, VariablePath.sites, VariablePath.paths, List.filterMap_cons,
      Expression.operandNodes_eq, Expression.childNodes_eq, TreeEdit.sites_eq courier,
      List.filterMap_flatMap, List.flatMap_map, List.map_flatMap]

theorem VariablePath.sites_eq (p : VariablePath) :
    p.sites = .path p :: p.parts.flatMap (Node.sites courier) := by
  obtain ⟨position, kind, steps⟩ := p
  simp [VariablePath.sites, VariablePath.paths, VariablePath.nodes, Node.path?,
    VariablePath.parts, PathStep.sites_eq courier]

end Paths

namespace Statement

variable (courier : Option OperationKind)

theorem childSites_eq (children : List Statement) :
    childSites courier children = children.flatMap (sites courier) := by
  induction children with
  | nil => rfl
  | cons child rest ih => simp [childSites, ih]

theorem inputBranchSites_eq (branches : List (Statement × Statement)) :
    inputBranchSites courier branches =
      branches.flatMap fun branch => branch.1.sites courier ++ branch.2.sites courier := by
  induction branches with
  | nil => rfl
  | cons branch rest ih => simp [inputBranchSites, ih]

theorem conditionalBranchSites_eq (branches : List (Expression × Statement)) :
    conditionalBranchSites courier branches =
      branches.flatMap fun branch => branch.1.sites ++ branch.2.sites courier := by
  induction branches with
  | nil => rfl
  | cons branch rest ih => simp [conditionalBranchSites, ih]

theorem handlerSites_eq (handlers : List (String × Statement)) :
    handlerSites courier handlers = handlers.flatMap fun handler => handler.2.sites courier := by
  induction handlers with
  | nil => rfl
  | cons handler rest ih => simp [handlerSites, ih]

theorem courierBranchSites_eq (branches : List CourierBranch) :
    courierBranchSites branches =
      branches.flatMap fun b => b.parts.flatMap (Node.sites (some b.kind)) := by
  induction branches with
  | nil => rfl
  | cons branch rest ih =>
    obtain ⟨target, kind, input, output, body⟩ := branch
    cases input <;> cases output <;>
      simp [courierBranchSites, CourierBranch.parts, optionalPathSites, Node.sites, ih]

def isChoice : Statement → Bool
  | .inputChoice .. => true
  | _ => false

theorem isChoice_iff (s : Statement) :
    s.isChoice ↔ ∃ position branches, s = .inputChoice position branches := by
  cases s <;> simp [isChoice]

def guards : Statement → List Statement
  | .inputChoice _ branches => branches.map (·.1)
  | _ => []

/-- The parts that are judged, each with the kind of the courier branch around it. -/
def judgedParts : Statement → List (Option OperationKind × Node)
  | .solicitResponse .. => []
  | .provideUntil _ (.inputChoice _ provided) (.inputChoice _ finishing) =>
    (provided ++ finishing).flatMap fun branch =>
      [(courier, .statement branch.1), (courier, .statement branch.2)]
  | .courierChoice _ branches =>
    branches.flatMap fun b => b.parts.map fun part => (some b.kind, part)
  | s => s.parts.map fun part => (courier, part)

theorem sites_eq (s : Statement) :
    s.sites courier =
      .statement courier s :: (s.judgedParts courier).flatMap fun part => part.2.sites part.1 := by
  have hpath : ∀ path : Option VariablePath, optionalPathSites path =
      (path.toList.map Node.path).flatMap (Node.sites courier) := by
    intro path
    cases path <;> simp [optionalPathSites, Node.sites]
  have hvalue : ∀ value : Option Expression, optionalExpressionSites value =
      (value.toList.map Node.expression).flatMap (Node.sites courier) := by
    intro value
    cases value <;> simp [optionalExpressionSites, Node.sites]
  have hotherwise : ∀ s : Option Statement, otherwiseSites courier s =
      (s.toList.map Node.statement).flatMap (Node.sites courier) := by
    intro s
    cases s <;> simp [otherwiseSites, Node.sites]
  cases s
  case provideUntil position provide finish =>
    by_cases h : ∃ p provided p' finishing,
        provide = .inputChoice p provided ∧ finish = .inputChoice p' finishing
    · obtain ⟨p, provided, p', finishing, rfl, rfl⟩ := h
      simp [sites, judgedParts, inputBranchSites_eq, Node.sites, List.flatMap_assoc]
    · have hne : ∀ p provided p' finishing, provide = .inputChoice p provided →
          finish = .inputChoice p' finishing → False :=
        fun p provided p' finishing hp hf => h ⟨p, provided, p', finishing, hp, hf⟩
      rw [sites, judgedParts]
      · simp [parts, Node.sites]
      · rintro _ _ _ _ _ ⟨⟩
      · rintro _ _ _ _ _ ⟨⟩
        exact hne _ _ _ _ rfl rfl
      · rintro _ _ ⟨⟩
      · exact hne
  case courierChoice =>
    simp [sites, judgedParts, courierBranchSites_eq, List.flatMap_map, List.flatMap_assoc]
  all_goals
    simp [sites, judgedParts, parts, hpath, hvalue, hotherwise, childSites_eq,
      inputBranchSites_eq, conditionalBranchSites_eq, handlerSites_eq, Node.sites,
      List.flatMap_map, List.flatMap_assoc]

theorem judgedParts_of_open {s : Statement} (hsolicit : ∀ p o q x i, s ≠ .solicitResponse p o q x i)
    (huntil : ∀ p provide finish, s ≠ .provideUntil p provide finish)
    (hcourier : ∀ p branches, s ≠ .courierChoice p branches) :
    s.judgedParts courier = s.parts.map fun part => (courier, part) := by
  rw [judgedParts]
  · exact hsolicit
  · exact fun p _ _ _ _ => huntil p _ _
  · exact hcourier

theorem judgedParts_provideUntil (position : Position) (provide finish : Statement) :
    (provideUntil position provide finish).judgedParts courier =
      if provide.isChoice && finish.isChoice then
        provide.judgedParts courier ++ finish.judgedParts courier
      else [(courier, .statement provide), (courier, .statement finish)] := by
  by_cases h : provide.isChoice && finish.isChoice
  · rw [if_pos h]
    obtain ⟨hprovide, hfinish⟩ := Bool.and_eq_true_iff.mp h
    obtain ⟨p, provided, rfl⟩ := provide.isChoice_iff.mp hprovide
    obtain ⟨p', finishing, rfl⟩ := finish.isChoice_iff.mp hfinish
    simp [judgedParts, parts, List.map_flatMap]
  · rw [if_neg h, judgedParts]
    · rfl
    · rintro _ _ _ _ _ ⟨⟩
    · rintro _ _ _ _ _ ⟨⟩
      exact h rfl
    · rintro _ _ ⟨⟩

/-- The branches of a provide-until of two choices are judged in its place. Only courier choices
change the branch around a part, and they put the part into another one. -/
theorem of_mem_judgedParts {s : Statement} {part : Option OperationKind × Node}
    (h : part ∈ s.judgedParts courier) :
    (part.1 = courier ∨ part.1.isSome) ∧
      (part.2 ∈ s.parts ∨ ∃ y ∈ s.parts, part.2 ∈ y.parts) := by
  have hopen : ∀ {parts : List Node} {c : Option OperationKind},
      part ∈ parts.map (fun part => (c, part)) → part.1 = c ∧ part.2 ∈ parts := by
    intro parts c h
    obtain ⟨y, hy, rfl⟩ := List.mem_map.mp h
    exact ⟨rfl, hy⟩
  cases s
  case solicitResponse => cases h
  case provideUntil position provide finish =>
    rw [judgedParts_provideUntil] at h
    split at h
    · rename_i hchoices
      obtain ⟨hprovide, hfinish⟩ := Bool.and_eq_true_iff.mp hchoices
      obtain ⟨p, provided, rfl⟩ := provide.isChoice_iff.mp hprovide
      obtain ⟨p', finishing, rfl⟩ := finish.isChoice_iff.mp hfinish
      rcases List.mem_append.mp h with h | h
      · exact ⟨.inl (hopen h).1, .inr ⟨_, List.mem_cons_self, (hopen h).2⟩⟩
      · exact ⟨.inl (hopen h).1,
          .inr ⟨_, List.mem_cons_of_mem _ List.mem_cons_self, (hopen h).2⟩⟩
    · have hsides : part.1 = courier ∧ part.2 ∈ [.statement provide, .statement finish] := hopen h
      exact hsides.imp .inl .inl
  case courierChoice position branches =>
    obtain ⟨branch, hbranch, h⟩ := List.mem_flatMap.mp h
    obtain ⟨hkind, hmem⟩ := hopen h
    exact ⟨.inr (hkind ▸ rfl), .inl (List.mem_flatMap.mpr ⟨branch, hbranch, hmem⟩)⟩
  all_goals
    rw [judgedParts_of_open courier (by simp) (by simp) (by simp)] at h
    exact (hopen h).imp .inl .inl

theorem sizeOf_lt_of_mem_judgedParts {s : Statement} {part : Option OperationKind × Node}
    (h : part ∈ s.judgedParts courier) : sizeOf part.2 < sizeOf (Node.statement s) := by
  rcases (of_mem_judgedParts courier h).2 with hmem | ⟨y, hy, hmem⟩
  · exact Node.sizeOf_lt_of_mem_parts hmem
  · exact Nat.lt_trans (Node.sizeOf_lt_of_mem_parts hmem) (Node.sizeOf_lt_of_mem_parts hy)

end Statement

theorem Scene.statementProblems_provideUntil (scene : Scene) (courier : Option OperationKind)
    (position : Position) (provide finish : Statement) :
    scene.statementProblems courier (.provideUntil position provide finish) =
      if provide.isChoice && finish.isChoice then
        guardProblems position [] (provide.guards ++ finish.guards)
      else
        [.report .invalidInputChoice position
          "both sides of provide-until must be input choices"] := by
  by_cases h : provide.isChoice && finish.isChoice
  · rw [if_pos h]
    obtain ⟨hprovide, hfinish⟩ := Bool.and_eq_true_iff.mp h
    obtain ⟨p, provided, rfl⟩ := provide.isChoice_iff.mp hprovide
    obtain ⟨p', finishing, rfl⟩ := finish.isChoice_iff.mp hfinish
    rw [statementProblems, List.map_append]
    rfl
  · rw [if_neg h, statementProblems]
    rintro p provided p' finishing rfl rfl
    exact h rfl

def Site.node : Site → Node
  | .statement _ s => .statement s
  | .path p => .path p

namespace Node

def isSolicitResponse : Node → Bool
  | .statement (.solicitResponse ..) => true
  | _ => false

/-- Statements and paths, the choices apart that are no sites under a provide-until. -/
def isJudged : Node → Bool
  | .statement (.inputChoice ..) => false
  | .statement _ | .path _ => true
  | _ => false

def isCode : Node → Bool
  | .statement _ | .expression _ | .path _ | .type _ => true
  | _ => false

theorem isCode_of_isOperand {x : Node} (h : x.isOperand) : x.isCode := by
  cases x <;> first | rfl | cases h

theorem isCode_of_mem_parts {x y : Node} (hx : x.isCode) (h : y ∈ x.parts) : y.isCode := by
  cases x
  case statement s =>
    cases s <;> simp [parts, Statement.parts, CourierBranch.parts] at h <;> grind [isCode]
  case expression | path | type => exact isCode_of_isOperand (isOperand_of_mem_parts rfl h)
  all_goals cases hx

def IsSite (courier : Option OperationKind) (x z : Node) : Prop :=
  ∃ site ∈ x.sites courier, site.node = z

variable {courier : Option OperationKind} {z : Node}

theorem isSite_statement_iff {s : Statement} : (statement s).IsSite courier z ↔
    z = .statement s ∨ ∃ part ∈ s.judgedParts courier, part.2.IsSite part.1 z := by
  constructor
  · rintro ⟨site, hsite, rfl⟩
    rw [sites, Statement.sites_eq] at hsite
    rcases List.mem_cons.mp hsite with rfl | hsite
    · exact .inl rfl
    · obtain ⟨part, hpart, hsite⟩ := List.mem_flatMap.mp hsite
      exact .inr ⟨part, hpart, site, hsite, rfl⟩
  · rintro (rfl | ⟨part, hpart, site, hsite, rfl⟩)
    · exact ⟨.statement courier s, by simp [sites, Statement.sites_eq courier s], rfl⟩
    · refine ⟨site, ?_, rfl⟩
      rw [sites, Statement.sites_eq]
      exact List.mem_cons_of_mem _ (List.mem_flatMap.mpr ⟨part, hpart, hsite⟩)

theorem exists_site_flatMap_iff {parts : List Node} :
    (∃ site ∈ parts.flatMap (sites courier), site.node = z) ↔
      ∃ y ∈ parts, y.IsSite courier z := by
  simp only [IsSite, List.mem_flatMap]
  grind

/-- The choices of a provide-until are no sites, but all inside them are. -/
theorem isSite_judgedParts_iff (hz : z.isJudged) {s : Statement}
    (hsolicit : isSolicitResponse (.statement s) = false)
    (hparts : ∀ y ∈ s.parts, ∀ courier, y.IsSite courier z ↔ y.Meets isSolicitResponse z) :
    (∃ part ∈ s.judgedParts courier, part.2.IsSite part.1 z) ↔
      ∃ y ∈ s.parts, y.Meets isSolicitResponse z := by
  have hchoice : ∀ position branches,
      (∃ part ∈ (Statement.inputChoice position branches).judgedParts courier,
        part.2.IsSite part.1 z) ↔
          (statement (.inputChoice position branches)).IsSite courier z := by
    intro position branches
    rw [isSite_statement_iff, or_iff_right]
    rintro rfl
    cases hz
  cases s
  case solicitResponse => cases hsolicit
  case provideUntil position provide finish =>
    simp only [Statement.parts, List.mem_cons, List.not_mem_nil, or_false] at hparts ⊢
    have hprovide := hparts _ (.inl rfl) courier
    have hfinish := hparts _ (.inr rfl) courier
    rw [Statement.judgedParts_provideUntil]
    split
    · rename_i hchoices
      obtain ⟨hp, hf⟩ := Bool.and_eq_true_iff.mp hchoices
      obtain ⟨p, provided, rfl⟩ := provide.isChoice_iff.mp hp
      obtain ⟨p', finishing, rfl⟩ := finish.isChoice_iff.mp hf
      simp only [List.mem_append, or_and_right, exists_or, hchoice, exists_eq_left, hprovide,
        hfinish]
    · simp only [List.mem_cons, List.not_mem_nil, or_false, or_and_right, exists_or,
        exists_eq_left, hprovide, hfinish]
  case courierChoice position branches =>
    simp only [Statement.judgedParts, Statement.parts, List.mem_flatMap, List.mem_map] at hparts ⊢
    grind
  all_goals
    rw [Statement.judgedParts_of_open courier (by simp) (by simp) (by simp)]
    simp only [List.mem_map]
    grind

/-- The sites are what is met without entering a solicit-response. -/
theorem isSite_iff_meets (hz : z.isJudged) (x : Node) (hx : x.isCode)
    (courier : Option OperationKind) : x.IsSite courier z ↔ x.Meets isSolicitResponse z := by
  induction x using Node.induction generalizing courier with
  | step x ih =>
    have hparts : ∀ y ∈ x.parts, ∀ courier, y.IsSite courier z ↔ y.Meets isSolicitResponse z :=
      fun y hy courier => ih y hy (isCode_of_mem_parts hx hy) courier
    cases x with
    | statement s =>
      rw [isSite_statement_iff]
      by_cases hsolicit : isSolicitResponse (.statement s) = false
      · rw [meets_iff_of_open hsolicit, isSite_judgedParts_iff hz hsolicit hparts]
        rfl
      · cases s <;> simp [isSolicitResponse] at hsolicit
        rw [meets_iff]
        simp [Statement.judgedParts, isSolicitResponse]
    | expression e =>
      have hne : z ≠ .expression e := by
        rintro rfl
        cases hz
      rw [meets_iff_of_open rfl, or_iff_right hne, IsSite, sites, Expression.sites_eq courier,
        exists_site_flatMap_iff]
      exact exists_congr fun y => and_congr_right fun hy => hparts y hy courier
    | path p =>
      have hsites : (path p).IsSite courier z ↔
          z = .path p ∨ ∃ y ∈ p.parts, y.IsSite courier z := by
        rw [← exists_site_flatMap_iff, IsSite, sites, VariablePath.sites_eq courier]
        simp [Site.node, eq_comm]
      rw [meets_iff_of_open rfl, hsites]
      exact or_congr_right (exists_congr fun y => and_congr_right fun hy => hparts y hy courier)
    | type t =>
      have hne : z ≠ .type t := by
        rintro rfl
        cases hz
      have hnone : ∀ y ∈ (type t).parts, ¬y.IsSite courier z := by
        intro y hy ⟨site, hsite, _⟩
        obtain ⟨u, rfl⟩ := exists_type_of_mem_parts hy
        cases hsite
      rw [meets_iff_of_open rfl, or_iff_right hne]
      constructor
      · rintro ⟨site, hsite, -⟩
        cases hsite
      · rintro ⟨y, hy, h⟩
        exact absurd ((hparts y hy courier).mpr h) (hnone y hy)
    | _ => cases hx

end Node

end ServiceCheck
