import ServiceCheck.FaultFlow.Report
import ServiceCheck.Proofs.FaultFlow.Effects

/-!
Which faults a statement throws in its scope, catches there, and hands up to the parent, as three
sets given by rules. Each rule looks at one statement and the sets of those that it leads to; the
procedures on the way are kept on a stack, and one that is on it is not entered again.
-/

set_option autoImplicit false

namespace ServiceCheck

namespace Program

variable (p : Program)

def callee? (id : String) : Option Procedure :=
  (p.procedures.filter (!·.isMain)).find? (·.id = id)

/-- The faults declared by the operation that is called, if it has a reply. The first port of its
name counts, and the first operation there. -/
def solicitedFaults (operation port : String) : List String :=
  match (p.outputPorts.find? (·.id = port)).bind (·.findOperation? operation) with
  | none => []
  | some o => Dictionary.keys o.faults

/-- A statement that is read in the same scope, under the procedures entered by then. -/
inductive LeadsTo (stack : List String) (s : Statement) : List String → Statement → Prop where
  | part {parts : List Statement} {t : Statement} : s.faultRole = .reads parts → t ∈ parts →
    LeadsTo stack s stack t
  | call {id : String} {q : Procedure} : s.faultRole = .calls id → p.callee? id = some q →
    id ∉ stack → LeadsTo stack s (id :: stack) q.body

inductive Catches : List String → Statement → String → Prop where
  | install {stack : List String} {s : Statement} {handlers : List (String × Statement)}
    {handler : String × Statement} {name : String} : s.faultRole = .installs handlers →
    handler ∈ handlers → handler.1 = name ∨ handler.1 = defaultHandler → Catches stack s name
  | next {stack stack' : List String} {s t : Statement} {name : String} :
    p.LeadsTo stack s stack' t → Catches stack' t name → Catches stack s name

mutual

inductive Throws : List String → Statement → String → Prop where
  | throw {stack : List String} {s : Statement} {name : String} : s.faultRole = .throws name →
    Throws stack s name
  | solicit {stack : List String} {s : Statement} {operation port name : String} :
    s.faultRole = .solicits operation port → name ∈ p.solicitedFaults operation port →
    Throws stack s name
  | uncaught {stack : List String} {s body : Statement} {name : String} :
    s.faultRole = .opens body → Throws stack body name → ¬p.Catches stack body name →
    Throws stack s name
  | handedUp {stack : List String} {s body : Statement} {name : String} :
    s.faultRole = .opens body → HandsUp stack body name → Throws stack s name
  | next {stack stack' : List String} {s t : Statement} {name : String} :
    p.LeadsTo stack s stack' t → Throws stack' t name → Throws stack s name

inductive HandsUp : List String → Statement → String → Prop where
  | uncaught {stack : List String} {s : Statement} {handlers : List (String × Statement)}
    {handler : String × Statement} {name : String} : s.faultRole = .installs handlers →
    handler ∈ handlers → Throws stack handler.2 name → ¬p.Catches stack handler.2 name →
    HandsUp stack s name
  | handedUp {stack : List String} {s : Statement} {handlers : List (String × Statement)}
    {handler : String × Statement} {name : String} : s.faultRole = .installs handlers →
    handler ∈ handlers → HandsUp stack handler.2 name → HandsUp stack s name
  | next {stack stack' : List String} {s t : Statement} {name : String} :
    p.LeadsTo stack s stack' t → HandsUp stack' t name → HandsUp stack s name

end

/-- What leaves a scope in which the statement is read. -/
def Leaves (stack : List String) (s : Statement) (name : String) : Prop :=
  (p.Throws stack s name ∧ ¬p.Catches stack s name) ∨ p.HandsUp stack s name

variable {p} {stack : List String} {s : Statement} {name : String}

theorem catches_iff : p.Catches stack s name ↔
    match s.faultRole with
    | .installs handlers => ∃ handler ∈ handlers, handler.1 = name ∨ handler.1 = defaultHandler
    | .calls id => ∃ q, p.callee? id = some q ∧ id ∉ stack ∧ p.Catches (id :: stack) q.body name
    | .reads parts => ∃ t ∈ parts, p.Catches stack t name
    | .throws _ | .opens _ | .solicits .. => False := by
  constructor
  · intro h
    cases h with
    | install hrole hmem hname => rw [hrole]; exact ⟨_, hmem, hname⟩
    | next hleads h =>
      cases hleads with
      | part hrole hmem => rw [hrole]; exact ⟨_, hmem, h⟩
      | call hrole hq hid => rw [hrole]; exact ⟨_, hq, hid, h⟩
  · intro h
    cases hrole : s.faultRole <;> rw [hrole] at h
    case installs =>
      obtain ⟨_, hmem, hname⟩ := h
      exact .install hrole hmem hname
    case calls =>
      obtain ⟨_, hq, hid, h⟩ := h
      exact .next (.call hrole hq hid) h
    case reads =>
      obtain ⟨_, hmem, h⟩ := h
      exact .next (.part hrole hmem) h
    all_goals exact h.elim

theorem throws_iff : p.Throws stack s name ↔
    match s.faultRole with
    | .throws fault => name = fault
    | .opens body => p.Leaves stack body name
    | .solicits operation port => name ∈ p.solicitedFaults operation port
    | .installs _ => False
    | .calls id => ∃ q, p.callee? id = some q ∧ id ∉ stack ∧ p.Throws (id :: stack) q.body name
    | .reads parts => ∃ t ∈ parts, p.Throws stack t name := by
  constructor
  · intro h
    cases h with
    | throw hrole => rw [hrole]
    | solicit hrole hmem => rw [hrole]; exact hmem
    | uncaught hrole h hfree => rw [hrole]; exact .inl ⟨h, hfree⟩
    | handedUp hrole h => rw [hrole]; exact .inr h
    | next hleads h =>
      cases hleads with
      | part hrole hmem => rw [hrole]; exact ⟨_, hmem, h⟩
      | call hrole hq hid => rw [hrole]; exact ⟨_, hq, hid, h⟩
  · intro h
    cases hrole : s.faultRole <;> rw [hrole] at h
    case throws =>
      subst h
      exact .throw hrole
    case solicits => exact .solicit hrole h
    case opens =>
      rcases h with ⟨h, hfree⟩ | h
      · exact .uncaught hrole h hfree
      · exact .handedUp hrole h
    case installs => exact h.elim
    case calls =>
      obtain ⟨_, hq, hid, h⟩ := h
      exact .next (.call hrole hq hid) h
    case reads =>
      obtain ⟨_, hmem, h⟩ := h
      exact .next (.part hrole hmem) h

theorem handsUp_iff : p.HandsUp stack s name ↔
    match s.faultRole with
    | .installs handlers => ∃ handler ∈ handlers, p.Leaves stack handler.2 name
    | .calls id => ∃ q, p.callee? id = some q ∧ id ∉ stack ∧ p.HandsUp (id :: stack) q.body name
    | .reads parts => ∃ t ∈ parts, p.HandsUp stack t name
    | .throws _ | .opens _ | .solicits .. => False := by
  constructor
  · intro h
    cases h with
    | uncaught hrole hmem h hfree => rw [hrole]; exact ⟨_, hmem, .inl ⟨h, hfree⟩⟩
    | handedUp hrole hmem h => rw [hrole]; exact ⟨_, hmem, .inr h⟩
    | next hleads h =>
      cases hleads with
      | part hrole hmem => rw [hrole]; exact ⟨_, hmem, h⟩
      | call hrole hq hid => rw [hrole]; exact ⟨_, hq, hid, h⟩
  · intro h
    cases hrole : s.faultRole <;> rw [hrole] at h
    case installs =>
      obtain ⟨_, hmem, ⟨h, hfree⟩ | h⟩ := h
      · exact .uncaught hrole hmem h hfree
      · exact .handedUp hrole hmem h
    case calls =>
      obtain ⟨_, hq, hid, h⟩ := h
      exact .next (.call hrole hq hid) h
    case reads =>
      obtain ⟨_, hmem, h⟩ := h
      exact .next (.part hrole hmem) h
    all_goals exact h.elim

end Program

end ServiceCheck
