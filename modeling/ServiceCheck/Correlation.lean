import ServiceCheck.Diagnostic.Basic
import ServiceCheck.Program.Declaration
import ServiceCheck.Types.Admission

/-!
The correlation function: which correlation variables an input operation fills, and from where in
its message. An operation belongs to the first set with an alias guarded by its request type.
-/

set_option autoImplicit false

namespace ServiceCheck

structure CorrelationPair where
  sessionPath : VariablePath
  messagePath : VariablePath
deriving Repr

/-- The set that an operation correlates through, by its place in the program, and its pairs. -/
structure Binding where
  set : Nat
  pairs : List CorrelationPair
deriving Repr

structure CorrelationFunction where
  sets : List CorrelationSet
  bindings : Dictionary Binding
deriving Repr

namespace CorrelationFunction

def isEmpty (f : CorrelationFunction) : Bool := List.isEmpty f.bindings

def operations (f : CorrelationFunction) : List String := Dictionary.keys f.bindings

def setId? (f : CorrelationFunction) (operation : String) : Option Nat :=
  (Dictionary.get? f.bindings operation).map (·.set)

def set? (f : CorrelationFunction) (operation : String) : Option CorrelationSet :=
  (f.setId? operation).bind (f.sets[·]?)

def pairs (f : CorrelationFunction) (operation : String) : List CorrelationPair :=
  ((Dictionary.get? f.bindings operation).map (·.pairs)).getD []

def operationsOf (f : CorrelationFunction) (set : Nat) : List String :=
  (List.filter (fun b => b.2.set = set) f.bindings).map (·.1)

def setOperations (f : CorrelationFunction) : List (Nat × List String) :=
  ((List.range f.sets.length).map fun set => (set, f.operationsOf set)).filter (!·.2.isEmpty)

end CorrelationFunction

namespace CorrelationSet

abbrev RequestIndex := Dictionary (List String)

/-- Each operation that receives a guard type, with the pair of the alias, in document order. -/
def aliasPairs (index : RequestIndex) (set : CorrelationSet) : List (String × CorrelationPair) :=
  set.members.flatMap fun v => v.aliases.flatMap fun a =>
    ((Dictionary.get? index a.guardType).getD []).map fun operation =>
      (operation, ⟨v.path, a.path⟩)

def claims (index : RequestIndex) (set : CorrelationSet) : Dictionary (List CorrelationPair) :=
  (set.aliasPairs index).foldl (fun d e => Dictionary.push d e.1 e.2) []

/-- The guard type exists and admits the path. A path that is not static is reported elsewhere. -/
def aliasProblems (types : TypeMap) (a : CorrelationAlias) : List Diagnostic :=
  match Dictionary.get? types a.guardType with
  | none =>
    [.report .correlationAliasError a.path.position
      ("type `" ++ a.guardType ++ "` is not defined")]
  | some guard =>
    match a.path.keys? with
    | none => []
    | some keys =>
      if guard.admits types keys then []
      else
        [.report .correlationAliasError a.path.position
          ("type `" ++ a.guardType ++ "` does not contain the path `" ++
            ".".intercalate keys ++ "`")]

def pairCount (pairs : List CorrelationPair) (v : CorrelationVariable) : Nat :=
  pairs.countP (·.sessionPath.samePath v.path)

def coverageProblems (set : CorrelationSet) (operation : String) (pairs : List CorrelationPair) :
    List Diagnostic :=
  let repeated := set.members.filter fun v => 1 < pairCount pairs v
  let missing := set.members.filter fun v => pairCount pairs v = 0
  repeated.map (fun v =>
      .report .correlationAliasError v.path.position
        ("variable `" ++ v.path.text ++ "` has more than one alias for operation `" ++
          operation ++ "`")) ++
    if missing.isEmpty then []
    else
      [(Diagnostic.report .correlationAliasIncomplete set.position operation).hint
        ("missing: " ++ ", ".intercalate (missing.map (·.path.text)))]

def claimProblems (set : CorrelationSet) (bound : Dictionary Binding) (operation : String)
    (pairs : List CorrelationPair) : List Diagnostic :=
  if Dictionary.contains bound operation then
    [(Diagnostic.report .correlationSetConflict set.position operation).hint
      "each operation can correlate using only one correlation set"]
  else set.coverageProblems operation pairs

def problems (types : TypeMap) (index : RequestIndex) (bound : Dictionary Binding)
    (set : CorrelationSet) : List Diagnostic :=
  (set.members.flatMap fun v => v.aliases.flatMap (aliasProblems types)) ++
    (set.claims index).flatMap fun claim => set.claimProblems bound claim.1 claim.2

/-- The bindings once the set at place `id` has bound the operations that are still free. -/
def bind (index : RequestIndex) (id : Nat) (bound : Dictionary Binding) (set : CorrelationSet) :
    Dictionary Binding :=
  bound ++ ((set.claims index).filter fun claim => !Dictionary.contains bound claim.1).map
    fun claim => (claim.1, ⟨id, claim.2⟩)

/-- Bindings and problems of the sets from place `id` on. -/
def bindAll (types : TypeMap) (index : RequestIndex) :
    Nat → Dictionary Binding → List CorrelationSet → Dictionary Binding × List Diagnostic
  | _, bound, [] => (bound, [])
  | id, bound, set :: rest =>
    let (bindings, later) := bindAll types index (id + 1) (set.bind index id bound) rest
    (bindings, set.problems types index bound ++ later)

end CorrelationSet

def CorrelationFunction.ofSets (types : TypeMap) (index : CorrelationSet.RequestIndex)
    (sets : List CorrelationSet) : CorrelationFunction × List Diagnostic :=
  let (bindings, problems) := CorrelationSet.bindAll types index 0 [] sets
  (⟨sets, bindings⟩, problems)

end ServiceCheck
