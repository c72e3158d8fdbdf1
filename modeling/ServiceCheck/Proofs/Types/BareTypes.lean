import ServiceCheck.Proofs.Program.Bare
import ServiceCheck.Types.Admission
import ServiceCheck.Types.Equivalence

set_option autoImplicit false

namespace ServiceCheck

open Dictionary (mapValues)

namespace TypeMap

variable (types : TypeMap) (name : String)

@[simp] theorem get?_bare :
    Dictionary.get? types.bare name = (Dictionary.get? types name).map TypeDefinition.bare :=
  Dictionary.get?_mapValues TypeDefinition.bare types name

@[simp] theorem contains_bare :
    Dictionary.contains types.bare name = Dictionary.contains types name :=
  Dictionary.contains_mapValues TypeDefinition.bare types name

@[simp] theorem length_bare : types.bare.length = types.length :=
  Dictionary.length_mapValues TypeDefinition.bare types

end TypeMap

namespace TypeDefinition

@[simp] theorem bareMembers_eq (members : List (String × TypeDefinition)) :
    bareMembers members = mapValues bare members := by
  induction members with
  | nil => rfl
  | cons member rest ih => simp [bareMembers, ih]

@[simp] theorem bareBlock_eq (s : Option (List (String × TypeDefinition))) :
    bareBlock s = s.map (mapValues bare) := by
  cases s <;> simp [bareBlock]

@[simp] theorem getD_map_mapValues (s : Option (List (String × TypeDefinition))) :
    (s.map (mapValues bare)).getD [] = mapValues bare (s.getD []) := by
  cases s <;> rfl

@[simp] theorem head_bare (t : TypeDefinition) : t.bare.head = t.head.bare := by
  cases t <;> rfl

@[simp] theorem id_bare (t : TypeDefinition) : t.bare.id = t.id := by
  simp [id, TypeHead.bare]

@[simp] theorem cardinality_bare (t : TypeDefinition) : t.bare.cardinality = t.cardinality := by
  simp [cardinality, TypeHead.bare]

mutual

@[simp] theorem size_bare : ∀ t : TypeDefinition, t.bare.size = t.size
  | .inline _ _ s _ => by
    simp only [bare, size]
    rw [blockSize_bare s]
  | .link .. => rfl
  | .choice _ l r => by simp only [bare, size, size_bare l, size_bare r]

theorem blockSize_bare : ∀ s : Option (List (String × TypeDefinition)),
    blockSize (bareBlock s) = blockSize s
  | none => rfl
  | some members => membersSize_bareMembers members

theorem membersSize_bareMembers : ∀ members : List (String × TypeDefinition),
    membersSize (bareMembers members) = membersSize members
  | [] => rfl
  | (_, t) :: rest => by
    simp only [bareMembers, membersSize, size_bare t, membersSize_bareMembers rest]

end

mutual

theorem nodes_bare : ∀ t : TypeDefinition, t.bare.nodes = t.nodes.map bare
  | .inline _ _ s _ => by
    simp only [bare, nodes, List.map_cons]
    rw [blockNodes_bare s]
  | .link .. => rfl
  | .choice _ l r => by
    simp only [bare, nodes, List.map_cons, List.map_append, nodes_bare l, nodes_bare r]

theorem blockNodes_bare : ∀ s : Option (List (String × TypeDefinition)),
    blockNodes (bareBlock s) = (blockNodes s).map bare
  | none => rfl
  | some members => membersNodes_bare members

theorem membersNodes_bare : ∀ members : List (String × TypeDefinition),
    membersNodes (bareMembers members) = (membersNodes members).map bare
  | [] => rfl
  | (_, t) :: rest => by
    simp only [bareMembers, membersNodes, List.map_append, nodes_bare t, membersNodes_bare rest]

end

theorem unlink?_bare (types : TypeMap) (budget : Nat) (t : TypeDefinition) :
    unlink? types.bare budget t.bare = (unlink? types budget t).map bare := by
  induction budget generalizing t with
  | zero => cases t <;> rfl
  | succ budget ih =>
    cases t with
    | link h target =>
      simp only [bare, unlink?, TypeMap.get?_bare]
      cases Dictionary.get? types target with
      | none => rfl
      | some next => exact ih next
    | _ => rfl

theorem guarded_bare {body body' : Step}
    (h : ∀ assumed a b, body' assumed a.bare b.bare = body assumed a b) (assumed : Assumptions)
    (a b : TypeDefinition) :
    guarded body' assumed a.bare b.bare = guarded body assumed a b := by
  simp only [guarded, cardinality_bare, h]

theorem compareMembers_bare {step step' : Step}
    (h : ∀ assumed a b, step' assumed a.bare b.bare = step assumed a b)
    (others : Dictionary TypeDefinition) (assumed : Assumptions)
    (members : List (String × TypeDefinition)) :
    compareMembers step' (mapValues bare others) assumed (mapValues bare members) =
      compareMembers step others assumed members := by
  induction members generalizing assumed with
  | nil => rfl
  | cons member rest ih =>
    obtain ⟨key, a⟩ := member
    simp only [Dictionary.mapValues_cons, compareMembers, Dictionary.get?_mapValues]
    cases Dictionary.get? others key with
    | none => rfl
    | some b => simp only [Option.map_some, h, ih]

/-- A link on one side only is followed, and the comparison goes on behind it. -/
theorem followed_bare {next next' : TypeDefinition → Comparing} (hnext : ∀ u, next' u.bare = next u)
    (types : TypeMap) (t : TypeDefinition) :
    (match unlink? types.bare types.bare.length t.bare with
      | some u => next' u
      | none => .different) =
    match unlink? types types.length t with
      | some u => next u
      | none => .different := by
  rw [TypeMap.length_bare, unlink?_bare]
  cases unlink? types types.length t <;> simp [hnext]

theorem compareBody_bare (types : TypeMap) (depth : Nat) (assumed : Assumptions)
    (a b : TypeDefinition) :
    compareBody types.bare depth assumed a.bare b.bare = compareBody types depth assumed a b := by
  induction depth generalizing assumed a b with
  | zero => rfl
  | succ depth ih =>
    have hguarded := guarded_bare ih
    cases a <;> cases b
    case link.link x _ y =>
      simp only [bare, compareBody, TypeMap.get?_bare]
      cases Dictionary.get? types x <;> cases Dictionary.get? types y <;> simp [ih]
    case inline.inline =>
      simp only [bare, compareBody, bareBlock_eq, getD_map_mapValues, Dictionary.length_mapValues,
        compareMembers_bare hguarded]
    case choice.choice => simp only [bare, compareBody, hguarded]
    case link.inline | link.choice => exact followed_bare (fun u => ih assumed u _) _ _
    case inline.link | choice.link => exact followed_bare (fun u => ih assumed _ u) _ _
    case inline.choice | choice.inline => rfl

@[simp] theorem compare_bare (types : TypeMap) (a b : TypeDefinition) :
    compare types.bare a.bare b.bare = compare types a b := by
  have hsize : membersSize types.bare = membersSize types := by
    rw [TypeMap.bare, ← bareMembers_eq, membersSize_bareMembers]
  have hdepth : comparisonDepth types.bare a.bare b.bare = comparisonDepth types a b := by
    simp only [comparisonDepth, comparisonSize, hsize, size_bare]
  rw [compare, hdepth]
  exact guarded_bare (compareBody_bare types _) .empty a b

section Admission

variable {test test' : InlineTest} {link link' : String → Bool}

theorem anyAlternative_bare (htest : ∀ n s u, test' n (mapValues bare s) u = test n s u)
    (hlink : ∀ target, link' target = link target) (t : TypeDefinition) :
    t.bare.anyAlternative test' link' = t.anyAlternative test link := by
  induction t using anyAlternative.induct with
  | case1 => simp [bare, anyAlternative, htest]
  | case2 => simp [bare, anyAlternative, hlink]
  | case3 _ _ _ hl hr => simp [bare, anyAlternative, hl, hr]

theorem anyReachable_bare (types : TypeMap)
    (htest : ∀ n s u, test' n (mapValues bare s) u = test n s u) (budget : Nat)
    (followed : List String) (t : TypeDefinition) :
    anyReachable types.bare test' budget followed t.bare =
      anyReachable types test budget followed t := by
  induction budget generalizing followed t with
  | zero => exact anyAlternative_bare htest (fun _ => rfl) t
  | succ budget ih =>
    refine anyAlternative_bare htest (fun target => ?_) t
    simp only [TypeMap.get?_bare]
    cases Dictionary.get? types target <;> simp [ih]

@[simp] theorem admits_bare (types : TypeMap) (keys : List String) (t : TypeDefinition) :
    t.bare.admits types.bare keys = t.admits types keys := by
  induction keys generalizing t with
  | nil =>
    simp only [admits, TypeMap.length_bare]
    exact anyReachable_bare types (fun _ _ _ => rfl) types.length [] t
  | cons key keys ih =>
    simp only [admits, TypeMap.length_bare]
    refine anyReachable_bare types (fun _ subTypes _ => ?_) types.length [] t
    simp only [Dictionary.get?_mapValues]
    cases Dictionary.get? subTypes key <;> simp [ih]

end Admission

end TypeDefinition

end ServiceCheck
