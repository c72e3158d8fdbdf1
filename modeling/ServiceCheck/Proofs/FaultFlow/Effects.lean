import ServiceCheck.FaultFlow.Analysis
import ServiceCheck.Proofs.FaultFlow.Forest

/-!
What a statement does to the scope that it is read in, said without a forest: the faults thrown
there, the handlers installed there, and the scopes opened in that scope or beside it, each with
the faults that it lets through.
-/

set_option autoImplicit false

namespace ServiceCheck

/-- What a statement is to the analysis of faults. -/
inductive FaultRole where
  | throws (fault : String)
  | opens (body : Statement)
  | solicits (operation port : String)
  | installs (handlers : List (String × Statement))
  | calls (procedure : String)
  | reads (parts : List Statement)

def FaultRole.inner : FaultRole → List Statement
  | .opens body => [body]
  | .installs handlers => handlers.map (·.2)
  | .reads parts => parts
  | .throws _ | .solicits .. | .calls _ => []

namespace Statement

def faultRole : Statement → FaultRole
  | .throw _ fault _ => .throws fault
  | .scope _ _ body => .opens body
  | .requestResponse _ _ _ _ process => .opens process
  | .solicitResponse _ operation port _ _ => .solicits operation port
  | .install _ handlers => .installs handlers
  | .call _ procedure => .calls procedure
  | .provideUntil _ provide finish => .reads [finish, provide]
  | .whileLoop _ _ body => .reads [body]
  | .forLoop _ _ _ _ body => .reads [body]
  | .forEach _ _ _ _ body => .reads [body]
  | .spawn _ _ _ _ body => .reads [body]
  | .synchronized _ _ body => .reads [body]
  | .sequence children => .reads children
  | .parallel children => .reads children
  | .inputChoice _ branches => .reads (branches.flatMap fun branch => [branch.1, branch.2])
  | .conditional _ branches otherwise => .reads (branches.map (·.2) ++ otherwise.toList)
  | _ => .reads []

theorem sizeOf_lt_of_mem_pairs {α : Type} [SizeOf α] {pairs : List (α × Statement)}
    {t : Statement} (h : t ∈ pairs.map (·.2)) : sizeOf t < sizeOf pairs := by
  obtain ⟨pair, hpair, heq⟩ := List.mem_map.mp h
  have hlt := List.sizeOf_lt_of_mem hpair
  have hsize : sizeOf pair = 1 + sizeOf pair.1 + sizeOf pair.2 := rfl
  have ht : sizeOf t = sizeOf pair.2 := by rw [← heq]
  omega

theorem sizeOf_lt_of_mem_branches {branches : List (Statement × Statement)} {t : Statement}
    (h : t ∈ branches.flatMap fun branch => [branch.1, branch.2]) :
    sizeOf t < sizeOf branches := by
  obtain ⟨branch, hbranch, hmem⟩ := List.mem_flatMap.mp h
  have hlt := List.sizeOf_lt_of_mem hbranch
  have hsize : sizeOf branch = 1 + sizeOf branch.1 + sizeOf branch.2 := rfl
  have heither : t = branch.1 ∨ t = branch.2 := by simpa using hmem
  rcases heither with heq | heq
  · rw [heq]
    omega
  · rw [heq]
    omega

theorem sizeOf_lt_of_mem_inner {s t : Statement} (h : t ∈ s.faultRole.inner) :
    sizeOf t < sizeOf s := by
  cases s
  case sequence children =>
    have hlt : sizeOf t < sizeOf children := List.sizeOf_lt_of_mem h
    simp only [sequence.sizeOf_spec]
    omega
  case parallel children =>
    have hlt : sizeOf t < sizeOf children := List.sizeOf_lt_of_mem h
    simp only [parallel.sizeOf_spec]
    omega
  case inputChoice branches =>
    have hlt : sizeOf t < sizeOf branches := sizeOf_lt_of_mem_branches h
    simp only [inputChoice.sizeOf_spec]
    omega
  case install handlers =>
    have hlt : sizeOf t < sizeOf handlers := sizeOf_lt_of_mem_pairs h
    simp only [install.sizeOf_spec]
    omega
  case conditional branches otherwise =>
    simp only [conditional.sizeOf_spec]
    rcases List.mem_append.mp h with hbranch | hother
    · have hlt := sizeOf_lt_of_mem_pairs hbranch
      omega
    · obtain rfl : otherwise = some t := by simpa using hother
      simp only [Option.some.sizeOf_spec]
      omega
  case provideUntil provide finish =>
    have heither : t = finish ∨ t = provide := by simpa [faultRole, FaultRole.inner] using h
    simp only [provideUntil.sizeOf_spec]
    rcases heither with heq | heq
    · rw [heq]
      omega
    · rw [heq]
      omega
  all_goals
    first
    | exact absurd h List.not_mem_nil
    | (obtain rfl := List.mem_singleton.mp h
       simp only [scope.sizeOf_spec, requestResponse.sizeOf_spec, whileLoop.sizeOf_spec,
         forLoop.sizeOf_spec, forEach.sizeOf_spec, spawn.sizeOf_spec, synchronized.sizeOf_spec]
       omega)

/-- What holds of a statement when it holds of all that its role goes on to holds of all. -/
theorem inner_induction {P : Statement → Prop}
    (step : ∀ s, (∀ t ∈ s.faultRole.inner, P t) → P s) (s : Statement) : P s :=
  step s fun t ht =>
    have := sizeOf_lt_of_mem_inner ht
    inner_induction step t
termination_by sizeOf s

end Statement

/-- Where a scope is opened: in the current scope, or beside it in the same parent. -/
inductive Side where
  | inside
  | beside
deriving DecidableEq

structure Effects where
  thrown : List ThrownFault
  caught : List CaughtFault
  /-- The opened scopes in order, each with the faults that it lets through. -/
  opened : List (Side × List ThrownFault)

namespace Effects

def nothing : Effects := ⟨[], [], []⟩

def throwing (faults : List ThrownFault) : Effects := ⟨faults, [], []⟩

def catching (caught : List CaughtFault) : Effects := ⟨[], caught, []⟩

def andThen (e e' : Effects) : Effects :=
  ⟨e.thrown ++ e'.thrown, e.caught ++ e'.caught, e.opened ++ e'.opened⟩

def all (effects : List Effects) : Effects := effects.foldr andThen nothing

def openedAt (e : Effects) (side : Side) : List (List ThrownFault) :=
  (e.opened.filter (·.1 = side)).map (·.2)

def passed (e : Effects) : List ThrownFault :=
  ThrownFault.settled (ThrownFault.merge [] e.thrown) e.caught (e.openedAt .inside)

/-- The faults let through by a root, which has all opened scopes inside. -/
def passedByRoot (e : Effects) : List ThrownFault :=
  ThrownFault.settled (ThrownFault.merge [] e.thrown) e.caught (e.opened.map (·.2))

/-- A new scope on that side holds the effects. What they open beside it is on that side as well. -/
def within (side : Side) (e : Effects) : Effects :=
  ⟨[], [], (side, e.passed) :: (e.openedAt .beside).map fun faults => (side, faults)⟩

end Effects

variable (ports : Dictionary OutputPort)

def FaultFlow.solicited (operation port : String) : List ThrownFault :=
  match (Dictionary.get? ports port).bind (·.findOperation? operation) with
  | none => []
  | some o => (Dictionary.keys o.faults).map fun name => ⟨name, some (operation ++ "@" ++ port)⟩

namespace Statement

variable (call : String → Effects)

def effects (s : Statement) : Effects :=
  match _h : s.faultRole with
  | .throws fault => .throwing [⟨fault, none⟩]
  | .opens body => (effects body).within .inside
  | .solicits operation port => .throwing (FaultFlow.solicited ports operation port)
  | .installs handlers =>
    (Effects.catching (handlers.map fun handler => FaultFlow.caughtFault handler.1)).andThen
      (.all (handlers.attach.map fun ⟨handler, _⟩ => (effects handler.2).within .beside))
  | .calls procedure => call procedure
  | .reads parts => .all (parts.attach.map fun ⟨part, _⟩ => effects part)
termination_by sizeOf s
decreasing_by
  all_goals refine sizeOf_lt_of_mem_inner ?_
  · rw [_h]
    exact List.mem_singleton_self _
  · rw [_h]
    exact List.mem_map_of_mem (by assumption)
  · rw [_h]
    assumption

theorem effects_eq (s : Statement) :
    s.effects ports call =
      match s.faultRole with
      | .throws fault => .throwing [⟨fault, none⟩]
      | .opens body => (body.effects ports call).within .inside
      | .solicits operation port => .throwing (FaultFlow.solicited ports operation port)
      | .installs handlers =>
        (Effects.catching (handlers.map fun handler => FaultFlow.caughtFault handler.1)).andThen
          (.all (handlers.map fun handler => (handler.2.effects ports call).within .beside))
      | .calls procedure => call procedure
      | .reads parts => .all (parts.map fun part => part.effects ports call) := by
  rw [effects]
  split
  case h_4 handlers h =>
    rw [h]
    exact congrArg (fun es => Effects.andThen _ (.all es)) (@List.attach_map_val _ _ handlers
      fun handler => (handler.2.effects ports call).within .beside)
  case h_6 parts h =>
    rw [h]
    exact congrArg Effects.all List.attach_map_val
  all_goals
    rename_i h
    rw [h]

end Statement

namespace FaultFlow

def inlineEffects (procedures : Dictionary Procedure)
    (read : List String → Statement → Effects) (reading : List String) (id : String) : Effects :=
  match Dictionary.get? procedures id with
  | none => .nothing
  | some p => if p.id ∈ reading then .nothing else read (p.id :: reading) p.body

def effectsUpTo (procedures : Dictionary Procedure) : Nat → List String → Statement → Effects
  | 0, reading => Statement.effects ports (inlineEffects procedures (fun _ _ => .nothing) reading)
  | budget + 1, reading =>
    Statement.effects ports (inlineEffects procedures (effectsUpTo procedures budget) reading)

end FaultFlow

end ServiceCheck
