import ServiceCheck.Program.Construction
import ServiceCheck.Proofs.Verification.Kinds
import ServiceCheck.Proofs.Verification.Sites

/-!
The courier branch around a site. Whatever stands in a courier branch, at any depth, is judged
under a branch, and no input passes there. Inputs outside of all branches pass, in a courier too.
-/

set_option autoImplicit false

namespace ServiceCheck

namespace Statement

variable {courier kind : Option OperationKind} {s t : Statement}

theorem statement_mem_sites_iff : Site.statement kind t ∈ s.sites courier ↔
    (kind = courier ∧ t = s) ∨ ∃ k u, (k, .statement u) ∈ s.judgedParts courier ∧
      Site.statement kind t ∈ u.sites k := by
  have hpaths : ∀ paths : List VariablePath, Site.statement kind t ∉ paths.map Site.path := by
    intro paths h
    obtain ⟨_, -, heq⟩ := List.mem_map.mp h
    cases heq
  rw [sites_eq, List.mem_cons, Site.statement.injEq, List.mem_flatMap]
  refine or_congr_right ⟨?_, ?_⟩
  · rintro ⟨⟨k, y⟩, hmem, hsite⟩
    cases y with
    | statement u => exact ⟨k, u, hmem, hsite⟩
    | expression x => exact absurd hsite (hpaths _)
    | path p => exact absurd hsite (hpaths _)
    | _ => cases hsite
  · rintro ⟨k, u, hmem, hsite⟩
    exact ⟨(k, .statement u), hmem, hsite⟩

/-- What the statements judged on the way hand down reaches every site. -/
theorem sites_induction {motive : Option OperationKind → Statement → Prop}
    (step : ∀ k u, motive k u → ∀ k' u', (k', .statement u') ∈ u.judgedParts k → motive k' u') :
    ∀ (s : Statement) (courier : Option OperationKind), motive courier s →
      Site.statement kind t ∈ s.sites courier → motive kind t
  | s, courier, hs, h => by
    rcases statement_mem_sites_iff.mp h with ⟨rfl, rfl⟩ | ⟨k, u, hmem, hsite⟩
    · exact hs
    · have hlt : sizeOf u < sizeOf s := by simpa using sizeOf_lt_of_mem_judgedParts courier hmem
      exact sites_induction step u k (step courier s hs k u hmem) hsite
termination_by s => sizeOf s

/-- In a courier branch everything stands in one. -/
theorem isSome_of_mem_sites (h : Site.statement kind t ∈ s.sites courier)
    (hcourier : courier.isSome) : kind.isSome := by
  refine sites_induction (motive := fun k _ => k.isSome) ?_ s courier hcourier h
  intro k u hk k' u' hmem
  rcases (of_mem_judgedParts k hmem).1 with rfl | hsome
  · exact hk
  · exact hsome

theorem sites_subset_of_mem (h : Site.statement kind t ∈ s.sites courier) :
    t.sites kind ⊆ s.sites courier := by
  refine sites_induction (motive := fun k u => u.sites k ⊆ s.sites courier) ?_ s courier
    (List.Subset.refl _) h
  intro k u hsubset k' u' hmem site hsite
  refine hsubset ?_
  rw [sites_eq]
  exact List.mem_cons_of_mem _ (List.mem_flatMap.mpr ⟨_, hmem, hsite⟩)

theorem inputOperation?_eq_none_of_problems {scene : Scene} (hkind : kind.isSome)
    (h : scene.statementProblems kind t = []) : t.inputOperation? = none := by
  cases t
  case oneWay | requestResponse => simp [Scene.statementProblems, Scene.inputProblems, hkind] at h
  all_goals rfl

end Statement

/-- No statement is written in an operand, so that none is hidden in a solicit-response. -/
theorem Node.meets_statement_of_contains {x : Node} {t : Statement}
    (h : x.Contains (.statement t)) : x.Meets isSolicitResponse (.statement t) := by
  generalize hz : Node.statement t = z at h
  induction h with
  | self => exact .self _
  | @part x y z _ mem rest ih =>
    by_cases hopen : x.isSolicitResponse = false
    · exact .part hopen mem (ih hz)
    · have hy : y.isOperand := by
        cases x with
        | statement s =>
          cases s with
          | solicitResponse =>
            simp only [parts, Statement.parts, List.mem_append, List.mem_map] at mem
            obtain ⟨_, -, rfl⟩ | ⟨_, -, rfl⟩ := mem <;> rfl
          | _ => exact absurd rfl hopen
        | _ => exact absurd rfl hopen
      have hstatement := isOperand_of_mem_written hy (mem_written_iff.mpr rest)
      subst hz
      cases hstatement

/-- Statements within a statement are sites of it, the choices apart that are none. -/
theorem Statement.exists_mem_sites_of_contains {s t : Statement}
    (h : (Node.statement s).Contains (.statement t)) (ht : (Node.statement t).isJudged)
    (courier : Option OperationKind) : ∃ kind, Site.statement kind t ∈ s.sites courier := by
  obtain ⟨site, hsite, heq⟩ := (Node.isSite_iff_meets ht (.statement s) rfl courier).mpr
    (Node.meets_statement_of_contains h)
  cases site with
  | statement kind u =>
    obtain rfl := Node.statement.inj heq
    exact ⟨kind, hsite⟩
  | path => cases heq

theorem Statement.branch_sites_subset {position : Position} {branches : List CourierBranch}
    {branch : CourierBranch} (h : branch ∈ branches) (kind : Option OperationKind) :
    branch.body.sites (some branch.kind) ⊆ (courierChoice position branches).sites kind := by
  have hpart : (some branch.kind, Node.statement branch.body) ∈
      (courierChoice position branches).judgedParts kind :=
    List.mem_flatMap.mpr ⟨branch, h, by simp [CourierBranch.parts]⟩
  intro site hsite
  rw [sites_eq]
  exact List.mem_cons_of_mem _ (List.mem_flatMap.mpr ⟨_, hpart, hsite⟩)

namespace Program

variable {callerTypes : TypeMap} {config : Config} {p : Program} {v : Validated}

theorem statementProblems_of_accepted (h : p.verify callerTypes config = .accepted v)
    {d : Declaration} (hd : d ∈ p.declarations) {body : Statement} (hbody : d.body? = some body) :
    ∃ scene : Scene, ∀ kind t, Site.statement kind t ∈ body.sites none →
      scene.statementProblems kind t = [] := by
  obtain ⟨tables, hnone⟩ := exists_problems_eq_nil h hd
  have hsites : d.sites = body.sites none := by simp [Declaration.sites, hbody]
  obtain ⟨-, hnone⟩ := List.append_eq_nil_iff.mp hnone
  rw [hsites, List.flatMap_eq_nil_iff] at hnone
  exact ⟨d.scene p.overview tables, fun kind t hsite => hnone _ hsite⟩

/-- In an accepted program no branch of a courier choice receives a message, however deep in the
branch and wherever the courier choice stands. -/
theorem branches_receive_nothing (h : p.verify callerTypes config = .accepted v)
    {d : Declaration} (hd : d ∈ p.declarations) {body : Statement} (hbody : d.body? = some body)
    {position : Position} {branches : List CourierBranch}
    (hchoice : (Node.statement body).Contains (.statement (.courierChoice position branches)))
    {branch : CourierBranch} (hbranch : branch ∈ branches) {t : Statement}
    (ht : (Node.statement branch.body).Contains (.statement t)) :
    t.inputOperation? = none := by
  refine Classical.byContradiction fun hinput => hinput ?_
  have hjudged : (Node.statement t).isJudged := by
    cases t <;> first | rfl | exact absurd rfl hinput
  obtain ⟨scene, hnone⟩ := statementProblems_of_accepted h hd hbody
  obtain ⟨kind, hsite⟩ := Statement.exists_mem_sites_of_contains hchoice rfl none
  obtain ⟨kind', hsite'⟩ :=
    Statement.exists_mem_sites_of_contains ht hjudged (some branch.kind)
  have hsome : kind'.isSome := Statement.isSome_of_mem_sites hsite' rfl
  refine Statement.inputOperation?_eq_none_of_problems hsome (hnone kind' t ?_)
  exact Statement.sites_subset_of_mem hsite (Statement.branch_sites_subset hbranch kind hsite')

def guardedForward : CourierBranch :=
  ⟨.operation "ping", .oneWay, none, none,
    .scope .unknown "guarded" (.notificationForward .unknown none none)⟩

def forwardingBody : Statement :=
  .sequence [.oneWay .unknown "ready" none, .courierChoice .unknown [guardedForward]]

def forwardingCourier : Program :=
  .ofDeclarations [.inputPort (.empty "In"), .courier (.on "In" forwardingBody)]

theorem branches_receive_nothing_forwardingCourier :
    ∃ v, forwardingCourier.verify [] ⟨false⟩ = .accepted v ∧
      .courier (.on "In" forwardingBody) ∈ forwardingCourier.declarations ∧
      (Node.statement forwardingBody).Contains
        (.statement (.courierChoice .unknown [guardedForward])) ∧
      (Node.statement guardedForward.body).Contains
        (.statement (.notificationForward .unknown none none)) ∧
      (Statement.notificationForward .unknown none none).inputOperation? = none := by
  have haccepted : forwardingCourier.verify [] ⟨false⟩ =
      .accepted ⟨(forwardingCourier.correlation []).1, forwardingCourier.executionMode,
        forwardingCourier.constants⟩ :=
    verify_eq_accepted_iff.mpr ⟨by decide +kernel, by decide +kernel, rfl⟩
  have hd : .courier (.on "In" forwardingBody) ∈ forwardingCourier.declarations :=
    List.mem_cons_of_mem _ (List.mem_singleton_self _)
  have hchoice : (Node.statement forwardingBody).Contains
      (.statement (.courierChoice .unknown [guardedForward])) :=
    .part rfl (List.mem_cons_of_mem _ (List.mem_singleton_self _)) (.self _)
  have hforward : (Node.statement guardedForward.body).Contains
      (.statement (.notificationForward .unknown none none)) :=
    .part rfl (List.mem_singleton_self _) (.self _)
  exact ⟨_, haccepted, hd, hchoice, hforward, branches_receive_nothing haccepted hd rfl hchoice
    (List.mem_singleton_self _) hforward⟩

/-- A courier that does nothing but take in a message. -/
def listeningCourier : Program :=
  .ofDeclarations
    [.inputPort (.empty "In"), .courier (.on "In" (.oneWay .unknown "ping" none))]

theorem listeningCourier_accepted :
    ∃ v, listeningCourier.verify [] ⟨false⟩ = .accepted v ∧
      ∃ c t, .courier c ∈ listeningCourier.declarations ∧
        (Node.statement c.body).Contains (.statement t) ∧ t.inputOperation? = some "ping" := by
  refine ⟨⟨(listeningCourier.correlation []).1, _, _⟩,
    verify_eq_accepted_iff.mpr ⟨by decide +kernel, by decide +kernel, rfl⟩, ?_⟩
  exact ⟨_, _, List.mem_cons_of_mem _ (List.mem_singleton_self _), .self _, rfl⟩

end Program

end ServiceCheck
