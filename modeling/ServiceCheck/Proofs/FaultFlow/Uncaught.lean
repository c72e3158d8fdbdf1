import ServiceCheck.Program.Construction
import ServiceCheck.Proofs.FaultFlow.Escaping
import ServiceCheck.Proofs.Program.Parts

/-!
In a program that installs no handler nothing is caught, and what is reported for an operation is
all that is thrown on a way from its process, through the statements inside and the procedures
called. A procedure that is being read is not entered again, which loses nothing: a shortest way to
a throw enters no procedure twice.
-/

set_option autoImplicit false

namespace ServiceCheck

def Node.statement? : Node → Option Statement
  | .statement s => some s
  | _ => none

def Node.isInstall : Node → Bool
  | .statement (.install ..) => true
  | _ => false

namespace Statement

def enclosed : Statement → List Statement
  | .courierChoice .. => []
  | s => s.parts.filterMap Node.statement?

/-- The enclosed statements that are read: all of them, but of a `for` only the body. -/
def followed : Statement → List Statement
  | .forLoop _ _ _ _ body => [body]
  | s => s.enclosed

theorem mem_followed_iff (s t : Statement) : t ∈ s.followed ↔ t ∈ s.faultRole.inner := by
  cases s <;>
    simp [followed, enclosed, parts, faultRole, FaultRole.inner, Node.statement?] <;> grind

theorem mem_parts_of_mem_enclosed {s t : Statement} (h : t ∈ s.enclosed) :
    .statement t ∈ s.parts := by
  unfold enclosed at h
  split at h
  · cases h
  · obtain ⟨x, hx, ht⟩ := List.mem_filterMap.mp h
    cases x <;> cases ht
    exact hx

theorem mem_enclosed_of_mem_followed {s t : Statement} (h : t ∈ s.followed) : t ∈ s.enclosed := by
  unfold followed at h
  split at h
  · simp_all [enclosed, parts, Node.statement?]
  · exact h

end Statement

namespace Program

variable (p : Program)

def raised : Statement → List String
  | .throw _ fault _ => [fault]
  | .solicitResponse _ operation port _ _ => p.solicitedFaults operation port
  | _ => []

/-- A way from a statement to another goes on to statements inside and to procedures called, those
that are avoided apart. -/
inductive Reaches (next : Statement → List Statement) (avoided : List String) :
    Statement → Statement → Prop where
  | self (s : Statement) : Reaches next avoided s s
  | inside {s t u : Statement} : t ∈ next s → Reaches next avoided t u → Reaches next avoided s u
  | call {position : Position} {id : String} {q : Procedure} {u : Statement} : id ∉ avoided →
    p.callee? id = some q → Reaches next avoided q.body u →
    Reaches next avoided (.call position id) u

variable {p} {next : Statement → List Statement} {stack : List String} {s t u : Statement}
  {name : String}

/-- The way after the last call of a procedure does not call it. -/
theorem Reaches.avoid {id : String} {q : Procedure} (hq : p.callee? id = some q)
    (h : p.Reaches next stack s u) :
    p.Reaches next (id :: stack) s u ∨ p.Reaches next (id :: stack) q.body u := by
  induction h with
  | self s => exact .inl (.self s)
  | inside hmem _ ih => exact ih.imp_left (.inside hmem)
  | @call position id' q' u hid hq' _ ih =>
    by_cases heq : id' = id
    · subst heq
      obtain rfl : q' = q := Option.some.inj (hq'.symm.trans hq)
      exact .inr (ih.elim (fun h => h) fun h => h)
    · exact ih.imp_left (.call (by simp [heq, hid]) hq')

variable (p) in
def Has (s : Statement) : Prop := (Node.program p).Contains (.statement s)

variable (p) in
def InstallsNothing : Prop := ∀ position handlers, ¬p.Has (.install position handlers)

theorem Has.inside (h : p.Has s) (ht : t ∈ s.faultRole.inner) : p.Has t := by
  have hfollowed := (Statement.mem_followed_iff s t).mpr ht
  have hpart :=
    Statement.mem_parts_of_mem_enclosed (Statement.mem_enclosed_of_mem_followed hfollowed)
  exact Node.Meets.trans h (.part rfl hpart (.self _))

theorem has_body {q : Procedure} (h : q ∈ p.procedures) : p.Has q.body := by
  obtain ⟨d, hd, hq⟩ := List.mem_filterMap.mp h
  cases d <;> cases hq
  exact .part rfl (List.mem_map_of_mem hd)
    (.part rfl (List.mem_singleton_self _) (.part rfl (List.mem_singleton_self _) (.self _)))

theorem has_callee {id : String} {q : Procedure} (h : p.callee? id = some q) : p.Has q.body :=
  has_body (List.mem_filter.mp (List.mem_of_find?_eq_some h)).1

theorem Has.leadsTo {stack' : List String} (h : p.Has s) (ht : p.LeadsTo stack s stack' t) :
    p.Has t := by
  cases ht with
  | part hrole hmem => exact h.inside (by simpa [hrole, FaultRole.inner] using hmem)
  | call hrole hq hid => exact has_callee hq

namespace InstallsNothing

theorem of_allAbove (depth : Nat)
    (h : (Node.program p).allAbove (fun x => !x.isInstall) depth) : p.InstallsNothing :=
  fun _ _ hhas => absurd (Node.passes_of_allAbove h hhas) (by simp [Node.isInstall])

theorem not_installs (hfree : p.InstallsNothing) (h : p.Has s)
    {handlers : List (String × Statement)} : s.faultRole ≠ .installs handlers := by
  cases s <;> simp [Statement.faultRole]
  exact fun _ => hfree _ _ h

theorem not_catches (hfree : p.InstallsNothing) (h : p.Has s) : ¬p.Catches stack s name := by
  intro hcatch
  induction hcatch with
  | install hrole => exact hfree.not_installs h hrole
  | next hleads _ ih => exact ih (h.leadsTo hleads)

theorem not_handsUp (hfree : p.InstallsNothing) (h : p.Has s) : ¬p.HandsUp stack s name :=
  fun hup => @HandsUp.rec p (fun _ _ _ _ => True) (fun _ s _ _ => p.Has s → False)
    (fun _ => trivial) (fun _ _ => trivial) (fun _ _ _ _ => trivial) (fun _ _ _ => trivial)
    (fun _ _ _ => trivial)
    (fun hrole _ _ _ _ h => hfree.not_installs h hrole)
    (fun hrole _ _ _ h => hfree.not_installs h hrole)
    (fun hleads _ ih h => ih (h.leadsTo hleads)) stack s name hup h

theorem exists_raised (hfree : p.InstallsNothing) (h : p.Has s) (hthrow : p.Throws stack s name) :
    ∃ u, p.Reaches Statement.followed [] s u ∧ name ∈ p.raised u := by
  refine @Throws.rec p
    (fun _ s name _ => p.Has s →
      ∃ u, p.Reaches Statement.followed [] s u ∧ name ∈ p.raised u)
    (fun _ _ _ _ => True) ?throw ?solicit ?uncaught ?handedUp ?next
    (fun _ _ _ _ _ => trivial) (fun _ _ _ _ => trivial) (fun _ _ _ => trivial) stack s name hthrow h
  case throw =>
    intro stack s name hrole _
    refine ⟨s, .self s, ?_⟩
    cases s <;> simp_all [Statement.faultRole, raised]
  case solicit =>
    intro stack s operation port name hrole hname _
    refine ⟨s, .self s, ?_⟩
    cases s <;> simp_all [Statement.faultRole, raised]
  case uncaught =>
    intro stack s body name hrole _ _ ih h
    have hbody : body ∈ s.faultRole.inner := by simp [hrole, FaultRole.inner]
    obtain ⟨u, hu, hname⟩ := ih (h.inside hbody)
    exact ⟨u, .inside ((Statement.mem_followed_iff s body).mpr hbody) hu, hname⟩
  case handedUp =>
    intro stack s body name hrole hup _ h
    exact (hfree.not_handsUp (h.inside (by simp [hrole, FaultRole.inner])) hup).elim
  case next =>
    intro stack stack' s t name hleads _ ih h
    obtain ⟨u, hu, hname⟩ := ih (h.leadsTo hleads)
    refine ⟨u, ?_, hname⟩
    cases hleads with
    | part hrole hmem =>
      exact .inside ((Statement.mem_followed_iff s t).mpr (by simpa [hrole, FaultRole.inner])) hu
    | call hrole hq hid =>
      cases s <;> simp [Statement.faultRole] at hrole
      subst hrole
      exact .call List.not_mem_nil hq hu

/-- A raised fault is thrown by all on the way to it, also where procedures are on the stack that
the way does not enter. -/
theorem throws_of_reaches (hfree : p.InstallsNothing) (h : p.Has s)
    (hreach : p.Reaches Statement.followed stack s u) (hname : name ∈ p.raised u) :
    p.Throws stack s name := by
  induction hn : (p.enterable stack).length using Nat.strongRecOn generalizing stack s with
  | _ n ih =>
    induction hreach with
    | self s =>
      cases s <;> simp [raised] at hname
      case throw =>
        subst hname
        exact .throw rfl
      case solicitResponse => exact .solicit rfl hname
    | @inside s t u hmem _ ihway =>
      have hinner := (Statement.mem_followed_iff s t).mp hmem
      have ht := h.inside hinner
      have hthrow := ihway hname ih ht
      cases hrole : s.faultRole <;> simp [hrole, FaultRole.inner] at hinner
      case opens =>
        subst hinner
        exact .uncaught hrole hthrow (hfree.not_catches ht)
      case installs => exact (hfree.not_installs h hrole).elim
      case reads => exact .next (.part hrole hinner) hthrow
    | @call position id q u hid hq hway _ =>
      have hbody : p.Reaches Statement.followed (id :: stack) q.body u :=
        (hway.avoid hq).elim (fun h => h) fun h => h
      have hlt : (p.enterable (id :: stack)).length < n :=
        hn ▸ length_enterable_cons (mem_enterable hq hid)
      exact .next (.call rfl hq hid) (ih _ hlt (has_callee hq) hbody rfl)

theorem throws_iff_raised (hfree : p.InstallsNothing) (h : p.Has s) :
    p.Throws [] s name ↔ ∃ u, p.Reaches Statement.followed [] s u ∧ name ∈ p.raised u :=
  ⟨hfree.exists_raised h, fun ⟨_, hreach, hname⟩ => hfree.throws_of_reaches h hreach hname⟩

end InstallsNothing

/-- Without handlers, the faults reported for the only operation of `main` are those raised on the
ways from its process. -/
theorem reported_iff_raised (p : Program) (hfree : p.InstallsNothing) (main : Procedure)
    (hmain : p.procedures.find? (·.isMain) = some main) (position : Position) (operation : String)
    (input : Option VariablePath) (output : Option Expression) (process : Statement)
    (hbody : main.body = .requestResponse position operation input output process) :
    ∃ names, Dictionary.get? p.faultReport.thrown operation = some names ∧
      ∀ name, name ∈ names ↔
        ∃ s, p.Reaches Statement.followed [] process s ∧ name ∈ p.raised s := by
  have hserved : p.servedBranch? operation = some [main.body] := by
    rw [servedBranch?, hmain, Option.bind_some, hbody, servedBy, if_pos rfl]
  have hhas : p.Has main.body := has_body (List.mem_of_find?_eq_some hmain)
  have hprocess : p.Has process :=
    hhas.inside (by simp [hbody, Statement.faultRole, FaultRole.inner])
  refine ⟨_, by rw [get?_reported, hserved, Option.map_some], fun name => ?_⟩
  rw [mem_names_mainEffects, Escapes, ← hfree.throws_iff_raised hprocess]
  have hopens : p.Throws [] main.body name ↔ p.Throws [] process name := by
    rw [throws_iff, hbody]
    simp [Statement.faultRole, Leaves, hfree.not_catches hprocess, hfree.not_handsUp hprocess]
  simp [hopens, hfree.not_catches hhas, hfree.not_handsUp hhas]

def shopping : Program :=
  .ofDeclarations
    [.outputPort ((Port.empty "Shop").addOperation
        ((Operation.requestResponse "buy" "string" "string").addFault "SoldOut" "void")),
      .procedure (.main (.answering "order"
        (.whileLoop .unknown (.literal (.bool true))
          (.sequence [.calling "pay", .throwing "TooLate"])))),
      .procedure (.named "pay" (.sequence [.soliciting "buy" "Shop", .calling "pay"]))]

theorem reported_shopping :
    shopping.InstallsNothing ∧ ∃ names,
      Dictionary.get? shopping.faultReport.thrown "order" = some names ∧
        "SoldOut" ∈ names ∧ "TooLate" ∈ names := by
  have hfree : shopping.InstallsNothing := .of_allAbove 10 (by decide +kernel)
  obtain ⟨names, hnames, hiff⟩ :=
    shopping.reported_iff_raised hfree _ rfl .unknown "order" none none _ rfl
  refine ⟨hfree, names, hnames, (hiff _).mpr ⟨.soliciting "buy" "Shop", ?_, by decide +kernel⟩,
    (hiff _).mpr ⟨.throwing "TooLate", ?_, by decide +kernel⟩⟩
  · exact .inside (List.mem_singleton_self _) (.inside List.mem_cons_self
      (.call List.not_mem_nil rfl (.inside List.mem_cons_self (.self _))))
  · exact .inside (List.mem_singleton_self _)
      (.inside (List.mem_cons_of_mem _ List.mem_cons_self) (.self _))

def failingSetup : Program :=
  .ofDeclarations [.procedure (.main (.answering "get"
    (.forLoop .unknown (.throwing "Bad") (.literal (.bool true)) .nullprocess .nullprocess)))]

/-- What the first and the last statement of a `for` throw is not reported. -/
theorem setupFaults_unreported :
    ¬∀ (p : Program) (main : Procedure) (position : Position) (operation : String)
      (input : Option VariablePath) (output : Option Expression) (process s : Statement)
      (name : String), p.InstallsNothing → p.procedures.find? (·.isMain) = some main →
      main.body = .requestResponse position operation input output process →
      p.Reaches Statement.enclosed [] process s → name ∈ p.raised s →
      ∃ names, Dictionary.get? p.faultReport.thrown operation = some names ∧ name ∈ names := by
  intro h
  have hfree : failingSetup.InstallsNothing := .of_allAbove 10 (by decide +kernel)
  obtain ⟨names, hnames, hmem⟩ := h failingSetup _ .unknown "get" none none _ (.throwing "Bad")
    "Bad" hfree rfl rfl (.inside List.mem_cons_self (.self _)) List.mem_cons_self
  have hnone : Dictionary.get? failingSetup.faultReport.thrown "get" = some [] := by
    decide +kernel
  cases hnone.symm.trans hnames
  cases hmem

end Program

end ServiceCheck
