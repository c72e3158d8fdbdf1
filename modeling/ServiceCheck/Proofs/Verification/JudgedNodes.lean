import Mathlib.Data.List.Basic
import ServiceCheck.Proofs.Verification.Sites

set_option autoImplicit false

namespace ServiceCheck

namespace Node

def joinsChoices : Node → Bool
  | .statement (.provideUntil _ provide finish) => provide.isChoice && finish.isChoice
  | _ => false

def isSide (whole : Option Node) : Node → Bool
  | .statement s => s.isChoice && whole.any joinsChoices
  | _ => false

section Sites

variable {β : Type} {f : Node → List β}

def unlessSide (f : Node → List β) (e : Option Node × Node) : List β :=
  if e.2.isSide e.1 then [] else f e.2

theorem flatMap_unlessSide_eq_nil {x : Node} (hnone : ∀ y ∈ x.written, f y = [])
    (whole : Option Node) : (x.writtenIn whole).flatMap (unlessSide f) = [] := by
  refine List.flatMap_eq_nil_iff.mpr fun e he => ?_
  have hmem : e.2 ∈ x.written := map_snd_writtenIn whole x ▸ List.mem_map_of_mem he
  rw [unlessSide, hnone e.2 hmem, ite_self]

theorem unlessSide_of_isOperand (hoperand : ∀ x, x.isOperand → f x = []) {x : Node}
    (hx : x.isOperand) (whole : Option Node) :
    (x.writtenIn whole).flatMap (unlessSide f) = [] :=
  flatMap_unlessSide_eq_nil (fun y hy => hoperand y (isOperand_of_mem_written hx hy)) whole

theorem flatMap_sites_statement (courier : Option OperationKind) (s : Statement) :
    ((statement s).sites courier).flatMap (f ·.node) =
      f (.statement s) ++
        (s.judgedParts courier).flatMap fun part => (part.2.sites part.1).flatMap (f ·.node) := by
  rw [sites, Statement.sites_eq, List.flatMap_cons, List.flatMap_assoc, Site.node]

theorem flatMap_writtenIn {whole : Option Node} {x : Node} (h : x.isSide whole = false) :
    (x.writtenIn whole).flatMap (unlessSide f) =
      f x ++ x.parts.flatMap fun y => (y.writtenIn (some x)).flatMap (unlessSide f) := by
  rw [writtenIn_eq, List.flatMap_cons, List.flatMap_assoc, unlessSide, h,
    if_neg Bool.false_ne_true]

theorem isSide_of_not_joinsChoices {whole : Node} (h : whole.joinsChoices = false) (x : Node) :
    x.isSide (some whole) = false := by
  cases x
  case statement s => rw [isSide, Option.any_some, h, Bool.and_false]
  all_goals rfl

/-- The branches of a side are judged where the provide-until is. -/
theorem flatMap_judgedParts_side {whole : Node} {s : Statement} {courier : Option OperationKind}
    (hside : (statement s).isSide (some whole))
    (hs : ((statement s).sites courier).flatMap (f ·.node) =
      ((statement s).writtenIn none).flatMap (unlessSide f)) :
    ((s.judgedParts courier).flatMap fun part => (part.2.sites part.1).flatMap (f ·.node)) =
      ((statement s).writtenIn (some whole)).flatMap (unlessSide f) := by
  have halone : (statement s).isSide none = false := Bool.and_false _
  rw [flatMap_sites_statement, flatMap_writtenIn halone] at hs
  rw [writtenIn_eq, List.flatMap_cons, List.flatMap_assoc, unlessSide, if_pos hside,
    List.append_cancel_left hs, List.nil_append]

theorem flatMap_judgedParts (hoperand : ∀ x, x.isOperand → f x = []) {s : Statement}
    (hparts : ∀ y ∈ s.parts, ∀ whole courier, y.isSide whole = false →
      (y.sites courier).flatMap (f ·.node) = (y.writtenIn whole).flatMap (unlessSide f))
    (courier : Option OperationKind) :
    ((s.judgedParts courier).flatMap fun part => (part.2.sites part.1).flatMap (f ·.node)) =
      s.parts.flatMap fun y => (y.writtenIn (some (.statement s))).flatMap (unlessSide f) := by
  have hopen : joinsChoices (.statement s) = false → ∀ y ∈ s.parts, ∀ courier,
      (y.sites courier).flatMap (f ·.node) =
        (y.writtenIn (some (.statement s))).flatMap (unlessSide f) :=
    fun hs y hy courier => hparts y hy _ courier (isSide_of_not_joinsChoices hs y)
  cases s
  case solicitResponse =>
    refine (List.flatMap_eq_nil_iff.mpr fun y hy => unlessSide_of_isOperand hoperand ?_ _).symm
    simp only [Statement.parts, List.mem_append, List.mem_map] at hy
    obtain ⟨_, -, rfl⟩ | ⟨_, -, rfl⟩ := hy <;> rfl
  case provideUntil position provide finish =>
    rw [Statement.judgedParts_provideUntil]
    split
    · -- The sides show as if they stood alone, without what is said of them as choices.
      rename_i hsides
      obtain ⟨hprovide, hfinish⟩ := Bool.and_eq_true_iff.mp hsides
      have hside : ∀ s : Statement, s.isChoice → (statement s).isSide
          (some (.statement (.provideUntil position provide finish))) := fun s hs => by
        rw [isSide, hs, Option.any_some, joinsChoices, hsides, Bool.and_self]
      have hnone : ∀ s : Statement, (statement s).isSide none = false := fun s => Bool.and_false _
      have hp := hparts _ List.mem_cons_self none courier (hnone provide)
      have hf := hparts _ (List.mem_cons_of_mem _ List.mem_cons_self) none courier (hnone finish)
      rw [List.flatMap_append, flatMap_judgedParts_side (hside provide hprovide) hp,
        flatMap_judgedParts_side (hside finish hfinish) hf]
      simp [Statement.parts]
    · rename_i hsides
      have hall := hopen (Bool.eq_false_iff.mpr hsides)
      have hp := hall _ List.mem_cons_self courier
      have hf := hall _ (List.mem_cons_of_mem _ List.mem_cons_self) courier
      simp [Statement.parts, hp, hf]
  case courierChoice position choices =>
    rw [Statement.judgedParts, Statement.parts, List.flatMap_assoc, List.flatMap_assoc]
    refine List.flatMap_congr fun b hb => ?_
    rw [List.flatMap_map]
    exact List.flatMap_congr fun y hy =>
      hopen rfl y (List.mem_flatMap.mpr ⟨b, hb, hy⟩) (some b.kind)
  all_goals
    rw [Statement.judgedParts_of_open courier (by simp) (by simp) (by simp), List.flatMap_map]
    exact List.flatMap_congr fun y hy => hopen rfl y hy courier

/-- The sites show all that is written, in its order, but operands and the sides of a
provide-until of two choices. -/
theorem flatMap_sites (hoperand : ∀ x, x.isOperand → f x = []) (x : Node) (hx : x.isCode)
    (whole : Option Node) (courier : Option OperationKind) (hside : x.isSide whole = false) :
    (x.sites courier).flatMap (f ·.node) = (x.writtenIn whole).flatMap (unlessSide f) := by
  have hpaths : ∀ paths : List VariablePath, (paths.map Site.path).flatMap (f ·.node) = [] :=
    fun paths => List.flatMap_eq_nil_iff.mpr fun site hsite => by
      obtain ⟨path, -, rfl⟩ := List.mem_map.mp hsite
      exact hoperand _ rfl
  induction x using Node.induction generalizing whole courier with
  | step x ih =>
    cases x with
    | statement s =>
      rw [flatMap_sites_statement, flatMap_writtenIn hside,
        flatMap_judgedParts hoperand fun y hy whole courier hside =>
          ih y hy (isCode_of_mem_parts hx hy) whole courier hside]
      rfl
    | expression | path => exact (hpaths _).trans (unlessSide_of_isOperand hoperand rfl whole).symm
    | type => exact (unlessSide_of_isOperand hoperand rfl whole).symm
    | _ => cases hx

end Sites

end Node

section Sites

variable {β : Type} {f : Node → List β}

theorem Declaration.flatMap_sites (hstatement : ∀ x, (∀ s, x ≠ .statement s) → f x = [])
    (d : Declaration) (whole : Option Node) :
    d.sites.flatMap (f ·.node) =
      ((Node.declaration d).writtenIn whole).flatMap (Node.unlessSide f) := by
  have hdeclarative : ∀ x : Node, x.isDeclarative → f x = [] := by
    intro x hx
    refine hstatement x fun s hs => ?_
    rw [hs] at hx
    cases hx
  have hbody : ∀ (x : Node) (s : Statement), x.parts = [.statement s] → f x = [] →
      x.isSide (some (.declaration d)) = false → x.joinsChoices = false →
      (x.writtenIn (some (.declaration d))).flatMap (Node.unlessSide f) =
        (s.sites none).flatMap (f ·.node) := by
    intro x s hparts hx hside hwhole
    rw [Node.flatMap_writtenIn hside, hparts, List.flatMap_singleton, hx, List.nil_append]
    exact (Node.flatMap_sites (fun y hy => hdeclarative y (Node.isDeclarative_of_isOperand hy))
      (.statement s) rfl (some x) none (Node.isSide_of_not_joinsChoices hwhole _)).symm
  rw [Node.flatMap_writtenIn rfl, hstatement (.declaration d) nofun, List.nil_append, sites]
  cases d
  case procedure p =>
    exact ((List.flatMap_singleton ..).trans
      (hbody (.procedure p) p.body rfl (hstatement _ nofun) rfl rfl)).symm
  case courier c =>
    exact ((List.flatMap_singleton ..).trans
      (hbody (.courier c) c.body rfl (hstatement _ nofun) rfl rfl)).symm
  all_goals
    exact ((List.flatMap_singleton ..).trans
      (Node.flatMap_unlessSide_eq_nil (fun y hy =>
        hdeclarative y (Node.isDeclarative_of_mem_written rfl hy)) _)).symm

theorem Program.flatMap_sites (hstatement : ∀ x, (∀ s, x ≠ .statement s) → f x = [])
    (p : Program) :
    (p.declarations.flatMap fun d => d.sites.flatMap (f ·.node)) =
      ((Node.program p).writtenIn none).flatMap (Node.unlessSide f) := by
  rw [Node.flatMap_writtenIn rfl, hstatement (.program p) nofun, List.nil_append, Node.parts,
    List.flatMap_map]
  exact List.flatMap_congr fun d _ => d.flatMap_sites hstatement _

end Sites

end ServiceCheck
