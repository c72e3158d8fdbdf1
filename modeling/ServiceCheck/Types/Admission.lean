import ServiceCheck.Program.TypeDefinition

set_option autoImplicit false

namespace ServiceCheck.TypeDefinition

/-- What an in-line definition says about a path: its native type, its block and its openness. -/
abbrev InlineTest := NativeType → Dictionary TypeDefinition → Bool → Bool

/-- Some alternative of the definition passes: an in-line one the test, a link the one for links. -/
def anyAlternative (test : InlineTest) (link : String → Bool) : TypeDefinition → Bool
  | .inline _ n s u => test n (s.getD []) u
  | .link _ target => link target
  | .choice _ l r => l.anyAlternative test link || r.anyAlternative test link

/-- Some in-line definition reached through choices and links passes the test. No name is followed
twice on one way; the budget is the number of links still allowed. -/
def anyReachable (types : TypeMap) (test : InlineTest) :
    Nat → List String → TypeDefinition → Bool
  | 0, _, t => t.anyAlternative test fun _ => false
  | budget + 1, followed, t =>
    t.anyAlternative test fun target =>
      target ∉ followed &&
        match Dictionary.get? types target with
        | some next => anyReachable types test budget (target :: followed) next
        | none => false

/-- The definition describes a node at the path that can carry a value: every key is a sub-type or
lies in an open sub-tree, and the last node is not void. -/
def admits (types : TypeMap) : List String → TypeDefinition → Bool
  | [], t => anyReachable types (fun n _ _ => n != .void) types.length [] t
  | key :: keys, t =>
    anyReachable types
      (fun _ subTypes isOpen =>
        isOpen ||
          match Dictionary.get? subTypes key with
          | some sub => admits types keys sub
          | none => false)
      types.length [] t

end ServiceCheck.TypeDefinition
