import ServiceCheck.Program.TypeDefinition

/-!
Comparison of types that describe the same values: the same native type, cardinality and keys with
equivalent sub-types. Recursive types are compared by assuming that a pair of linked names under
comparison is equivalent. Where the links of two recursive types are out of step no such pair need
recur, and the comparison has no end.
-/

set_option autoImplicit false

namespace ServiceCheck

/-- Pairs of names that are assumed equivalent: for each name the names it is paired with. -/
abbrev Assumptions := Dictionary (List String)

namespace Assumptions

def empty : Assumptions := []

def holds (assumed : Assumptions) (x y : String) : Bool :=
  y ∈ (Dictionary.get? assumed x).getD []

def assume (assumed : Assumptions) (x y : String) : Assumptions :=
  Dictionary.set assumed x (y :: (Dictionary.get? assumed x).getD [])

theorem holds_empty (x y : String) : empty.holds x y = false := by
  simp [holds, empty, Dictionary.get?_nil]

theorem holds_assume (assumed : Assumptions) (x y x' y' : String) :
    (assumed.assume x y).holds x' y' = (decide (x' = x ∧ y' = y) || assumed.holds x' y') := by
  by_cases h : x' = x
  · subst h
    simp [holds, assume, Dictionary.get?_set_self]
  · simp [holds, assume, Dictionary.get?_set_other, h]

end Assumptions

/-- `same` carries the pairs of names that were assumed equivalent on the way. -/
inductive Comparing where
  | same (assumed : Assumptions)
  | different
  | unending
deriving DecidableEq, Repr

namespace Comparing

/-- The next comparison starts only after one that found no difference. -/
def andThen (c : Comparing) (next : Assumptions → Comparing) : Comparing :=
  match c with
  | .same assumed => next assumed
  | c => c

def answer? : Comparing → Option Bool
  | .same _ => some true
  | .different => some false
  | .unending => none

theorem andThen_eq_same {c : Comparing} {next : Assumptions → Comparing} {assumed : Assumptions} :
    c.andThen next = .same assumed ↔
      ∃ between, c = .same between ∧ next between = .same assumed := by
  cases c <;> simp [andThen]

theorem andThen_eq_different {c : Comparing} {next : Assumptions → Comparing} :
    c.andThen next = .different ↔
      c = .different ∨ ∃ between, c = .same between ∧ next between = .different := by
  cases c <;> simp [andThen]

theorem andThen_eq_unending {c : Comparing} {next : Assumptions → Comparing} :
    c.andThen next = .unending ↔
      c = .unending ∨ ∃ between, c = .same between ∧ next between = .unending := by
  cases c <;> simp [andThen]

theorem answer?_eq_true {c : Comparing} : c.answer? = some true ↔ ∃ assumed, c = .same assumed := by
  cases c <;> simp [answer?]

theorem answer?_eq_false {c : Comparing} : c.answer? = some false ↔ c = .different := by
  cases c <;> simp [answer?]

theorem answer?_eq_none {c : Comparing} : c.answer? = none ↔ c = .unending := by
  cases c <;> simp [answer?]

end Comparing

namespace TypeDefinition

/-- The first definition that is not a link, within a budget of links. -/
def unlink? (types : TypeMap) : Nat → TypeDefinition → Option TypeDefinition
  | 0, .link .. => none
  | budget + 1, .link _ target => (Dictionary.get? types target).bind (unlink? types budget)
  | _, t => some t

abbrev Step := Assumptions → TypeDefinition → TypeDefinition → Comparing

def guarded (body : Step) : Step := fun assumed a b =>
  if a.cardinality = b.cardinality then body assumed a b else .different

theorem guarded_eq_same {body : Step} {assumed assumed' : Assumptions} {a b : TypeDefinition} :
    guarded body assumed a b = .same assumed' ↔
      a.cardinality = b.cardinality ∧ body assumed a b = .same assumed' := by
  by_cases h : a.cardinality = b.cardinality <;> simp [guarded, h]

theorem guarded_eq_different {body : Step} {assumed : Assumptions} {a b : TypeDefinition} :
    guarded body assumed a b = .different ↔
      (a.cardinality = b.cardinality → body assumed a b = .different) := by
  by_cases h : a.cardinality = b.cardinality <;> simp [guarded, h]

theorem guarded_eq_unending {body : Step} {assumed : Assumptions} {a b : TypeDefinition} :
    guarded body assumed a b = .unending ↔
      a.cardinality = b.cardinality ∧ body assumed a b = .unending := by
  by_cases h : a.cardinality = b.cardinality <;> simp [guarded, h]

def compareMembers (step : Step) (others : Dictionary TypeDefinition) :
    Assumptions → List (String × TypeDefinition) → Comparing
  | assumed, [] => .same assumed
  | assumed, (key, a) :: rest =>
    match Dictionary.get? others key with
    | none => .different
    | some b => (step assumed a b).andThen fun assumed => compareMembers step others assumed rest

/-- Compares all but the cardinality of the two definitions themselves, to a bounded depth. -/
def compareBody (types : TypeMap) : Nat → Step
  | 0 => fun _ _ _ => .unending
  | depth + 1 => fun assumed a b =>
    match a, b with
    | .link _ x, .link _ y =>
      if x = y ∨ assumed.holds x y then .same assumed
      else
        match Dictionary.get? types x, Dictionary.get? types y with
        | some a, some b => compareBody types depth (assumed.assume x y) a b
        | _, _ => .different
    | .link .., _ =>
      match a.unlink? types types.length with
      | some a => compareBody types depth assumed a b
      | none => .different
    | _, .link .. =>
      match b.unlink? types types.length with
      | some b => compareBody types depth assumed a b
      | none => .different
    | .inline _ n s u, .inline _ n' s' u' =>
      let members := s.getD []
      let others := s'.getD []
      if n = n' ∧ u = u' ∧ members.length = others.length then
        compareMembers (guarded (compareBody types depth)) others assumed members
      else .different
    | .choice _ l r, .choice _ l' r' =>
      (guarded (compareBody types depth) assumed l l').andThen fun assumed =>
        guarded (compareBody types depth) assumed r r'
    | _, _ => .different

/-- The definitions that a comparison can meet. -/
def comparisonSize (types : TypeMap) (a b : TypeDefinition) : Nat :=
  membersSize types + a.size + b.size

/-- Deeper than this, a pair of definitions has come back with no new pair of names assumed in
between, and comes back for ever. -/
def comparisonDepth (types : TypeMap) (a b : TypeDefinition) : Nat :=
  let size := comparisonSize types a b
  let pairs := size * size
  pairs * (pairs + 1) + 1

def compare (types : TypeMap) (a b : TypeDefinition) : Comparing :=
  guarded (compareBody types (comparisonDepth types a b)) .empty a b

/-- Whether the definitions are equivalent, where the comparison ends. -/
def equivalent? (types : TypeMap) (a b : TypeDefinition) : Option Bool :=
  (compare types a b).answer?

end TypeDefinition

end ServiceCheck
