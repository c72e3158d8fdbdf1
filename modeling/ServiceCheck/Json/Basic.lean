import ServiceCheck.Double.Shortest

/-!
JSON values with the order of their members. A text that breaks off still has a value up to the
place where it breaks, because what stands before that place may already be wrong, and the first
problem of a text is the one to report.
-/

set_option autoImplicit false

namespace ServiceCheck

/-- How an array or object stops. After `torn` nothing more of the text can be read. -/
inductive Ending where
  | closed
  | torn
deriving DecidableEq, Repr

/-- A string or key is `none` when it escapes half of a surrogate pair. A member whose value was
not reached has the value `broken`. -/
inductive Json where
  | null
  | bool (value : Bool)
  | number (value : Numeral)
  | string (value : Option String)
  | broken
  | array (items : List Json) (ending : Ending)
  | object (members : List (Option String × Json)) (ending : Ending)
deriving Repr

namespace Json

/-- The kind of the value is known: a literal is complete and in range, a bracket is open. -/
def isSound : Json → Bool
  | .broken | .string none => false
  | .number n => (Double.ofNumeral? n).isSome
  | _ => true

def text (s : String) : Json := .string (some s)

def int (i : Int) : Json := .number (.ofInt i)

def double (x : Double) : Json := .number x.numeral

def list (items : List Json) : Json := .array items .closed

def record (members : List (String × Json)) : Json :=
  .object (members.map fun m => (some m.1, m.2)) .closed

def optional : Option Json → Json
  | none => .null
  | some j => j

def member? (name : String) : Json → Option Json
  | .object members _ => members.lookup (some name)
  | _ => none

end Json

end ServiceCheck
