import Mathlib.Data.List.Nodup
import Mathlib.Data.List.Perm.Subperm
import Mathlib.Logic.Relation
import ServiceCheck.Types.Equivalence

/-!
The tree that a definition stands for when its links are followed. It may be infinite, so it is
given by the nodes at the ends of finite sequences of moves. At a node the definition as written
tells how often it occurs, and what the links lead to tells what it holds. To have the same
unfolding is symmetric and transitive, but reflexive only where all links lead somewhere.
-/

set_option autoImplicit false

namespace ServiceCheck

namespace TypeDefinition

def isLink : TypeDefinition → Bool
  | .link .. => true
  | _ => false

inductive Resolves (types : TypeMap) : TypeDefinition → TypeDefinition → Prop where
  | inline (h : TypeHead) (n : NativeType) (s : Option (List (String × TypeDefinition)))
      (u : Bool) : Resolves types (.inline h n s u) (.inline h n s u)
  | choice (h : TypeHead) (l r : TypeDefinition) : Resolves types (.choice h l r) (.choice h l r)
  | link {h : TypeHead} {x : String} {t t' : TypeDefinition}
      (found : Dictionary.get? types x = some t) (rest : Resolves types t t') :
      Resolves types (.link h x) t'

namespace Resolves

variable {types : TypeMap} {t t' t'' : TypeDefinition}

theorem not_isLink (h : Resolves types t t') : t'.isLink = false := by
  induction h with
  | inline => rfl
  | choice => rfl
  | link _ _ ih => exact ih

theorem refl (h : t.isLink = false) : Resolves types t t := by
  cases t with
  | inline => exact .inline ..
  | choice => exact .choice ..
  | link => simp [isLink] at h

theorem eq_of_not_isLink (ht : t.isLink = false) (h : Resolves types t t') : t' = t := by
  cases h with
  | inline => rfl
  | choice => rfl
  | link => simp [isLink] at ht

theorem unique (h : Resolves types t t') (h' : Resolves types t t'') : t' = t'' := by
  induction h with
  | inline => exact (h'.eq_of_not_isLink rfl).symm
  | choice => exact (h'.eq_of_not_isLink rfl).symm
  | link found _ ih =>
    cases h' with
    | link found' rest' =>
      rw [found] at found'
      cases found'
      exact ih rest'

end Resolves

section Unlink

variable {types : TypeMap}

theorem unlink?_of_not_isLink (budget : Nat) {t : TypeDefinition} (h : t.isLink = false) :
    t.unlink? types budget = some t := by
  cases t with
  | inline => cases budget <;> rfl
  | choice => cases budget <;> rfl
  | link => simp [isLink] at h

theorem resolves_of_unlink? {budget : Nat} {t t' : TypeDefinition}
    (h : t.unlink? types budget = some t') : Resolves types t t' := by
  induction budget generalizing t with
  | zero =>
    cases t with
    | inline => cases h; exact .inline ..
    | choice => cases h; exact .choice ..
    | link => simp [unlink?] at h
  | succ budget ih =>
    cases t with
    | inline => cases h; exact .inline ..
    | choice => cases h; exact .choice ..
    | link _ x =>
      simp only [unlink?, Option.bind_eq_some_iff] at h
      obtain ⟨next, found, hnext⟩ := h
      exact .link found (ih hnext)

inductive Chain (types : TypeMap) : Nat → TypeDefinition → TypeDefinition → Prop where
  | done {t : TypeDefinition} (h : t.isLink = false) : Chain types 0 t t
  | link {h : TypeHead} {x : String} {t t' : TypeDefinition} {links : Nat}
      (found : Dictionary.get? types x = some t) (rest : Chain types links t t') :
      Chain types (links + 1) (.link h x) t'

theorem Resolves.chain {t t' : TypeDefinition} (h : Resolves types t t') :
    ∃ links, Chain types links t t' := by
  induction h with
  | inline => exact ⟨0, .done rfl⟩
  | choice => exact ⟨0, .done rfl⟩
  | link found _ ih =>
    obtain ⟨links, hc⟩ := ih
    exact ⟨links + 1, .link found hc⟩

theorem Chain.unlink? {links budget : Nat} {t t' : TypeDefinition} (h : Chain types links t t')
    (hb : links ≤ budget) : t.unlink? types budget = some t' := by
  induction h generalizing budget with
  | done h => exact unlink?_of_not_isLink budget h
  | link found _ ih =>
    cases budget with
    | zero => omega
    | succ budget =>
      simp only [TypeDefinition.unlink?, found, Option.bind_some]
      exact ih (by omega)

theorem Chain.length_unique {links links' : Nat} {t t' t'' : TypeDefinition}
    (h : Chain types links t t') (h' : Chain types links' t t'') : links = links' := by
  induction h generalizing links' with
  | done h =>
    cases h' with
    | done => rfl
    | link => simp [isLink] at h
  | link found _ ih =>
    cases h' with
    | done h => simp [isLink] at h
    | link found' rest' =>
      rw [found] at found'
      cases found'
      rw [ih rest']

/-- The names followed in a chain are pairwise different names of the map, since from each of them
another number of links remains. So a chain has no more links than the map has entries. -/
theorem Chain.length_le {links : Nat} {t t' : TypeDefinition} (h : Chain types links t t') :
    links ≤ types.length := by
  suffices hs : ∀ (followed : List String), followed.Nodup →
      (∀ x ∈ followed, ∃ next more, Dictionary.get? types x = some next ∧
        Chain types more next t' ∧ links ≤ more) → links + followed.length ≤ types.length by
    simpa using hs [] List.nodup_nil (by simp)
  induction h with
  | done =>
    intro followed hd hf
    have hsub : followed ⊆ Dictionary.keys types := by
      intro x hx
      obtain ⟨next, _, found, _⟩ := hf x hx
      exact (Dictionary.get?_isSome_iff types x).mp (by simp [found])
    have hle := (hd.subperm hsub).length_le
    simpa [Dictionary.keys] using hle
  | @link _ x next _ links found rest ih =>
    intro followed hd hf
    have hx : x ∉ followed := by
      intro hx
      obtain ⟨next', more, found', hc, hle⟩ := hf x hx
      rw [found] at found'
      cases found'
      have heq := rest.length_unique hc
      omega
    have hle := ih (x :: followed) (List.nodup_cons.mpr ⟨hx, hd⟩) (by
      intro y hy
      rcases List.mem_cons.mp hy with rfl | hy
      · exact ⟨next, links, found, rest, Nat.le_refl _⟩
      · obtain ⟨next', more, found', hc, hle⟩ := hf y hy
        exact ⟨next', more, found', hc, by omega⟩)
    simp only [List.length_cons] at hle
    omega

theorem unlink?_eq_some_iff (t t' : TypeDefinition) :
    t.unlink? types types.length = some t' ↔ Resolves types t t' := by
  constructor
  · exact resolves_of_unlink?
  · intro h
    obtain ⟨links, hc⟩ := h.chain
    exact hc.unlink? hc.length_le

end Unlink

inductive Move where
  | member (key : String)
  | left
  | right
deriving DecidableEq, Repr

def below? : Move → TypeDefinition → Option TypeDefinition
  | .member key, .inline _ _ s _ => Dictionary.get? (s.getD []) key
  | .left, .choice _ l _ => some l
  | .right, .choice _ _ r => some r
  | _, _ => none

/-- The definition written where the moves lead. Links are followed before each move. -/
inductive NodeAt (types : TypeMap) : TypeDefinition → List Move → TypeDefinition → Prop where
  | root (t : TypeDefinition) : NodeAt types t [] t
  | move {t t' u v : TypeDefinition} {m : Move} {ms : List Move} (resolves : Resolves types t t')
      (found : below? m t' = some u) (rest : NodeAt types u ms v) : NodeAt types t (m :: ms) v

def SameShape : TypeDefinition → TypeDefinition → Prop
  | .inline _ n s u, .inline _ n' s' u' =>
    n = n' ∧ u = u' ∧
      ∀ key, key ∈ Dictionary.keys (s.getD []) ↔ key ∈ Dictionary.keys (s'.getD [])
  | .choice .., .choice .. => True
  | _, _ => False

/-- The cardinality counts as it is written here, the shape as links lead to it. -/
def SameNode (types : TypeMap) (a b : TypeDefinition) : Prop :=
  a.cardinality = b.cardinality ∧
    ∃ a' b', Resolves types a a' ∧ Resolves types b b' ∧ SameShape a' b'

/-- At the end of any moves either side has no node, or both have and the nodes are the same. -/
def SameUnfolding (types : TypeMap) (a b : TypeDefinition) : Prop :=
  ∀ moves, ((¬∃ x, NodeAt types a moves x) ∧ ¬∃ y, NodeAt types b moves y) ∨
    ∃ x y, NodeAt types a moves x ∧ NodeAt types b moves y ∧ SameNode types x y

/-- Every chain of links in the unfolding comes to an end at a definition that is not a link: no
link is dangling, and none leads back to itself through links alone. -/
def Grounded (types : TypeMap) (t : TypeDefinition) : Prop :=
  ∀ moves x, NodeAt types t moves x → ∃ x', Resolves types x x'

def block : TypeDefinition → Dictionary TypeDefinition
  | .inline _ _ s _ => s.getD []
  | _ => []

def DistinctKeys (t : TypeDefinition) : Prop := ∀ u ∈ t.nodes, (Dictionary.keys u.block).Nodup

instance (t : TypeDefinition) : Decidable t.DistinctKeys :=
  inferInstanceAs (Decidable (∀ u ∈ t.nodes, (Dictionary.keys u.block).Nodup))

end TypeDefinition

def TypeMap.DistinctKeys (types : TypeMap) : Prop := ∀ e ∈ types, e.2.DistinctKeys

instance (types : TypeMap) : Decidable types.DistinctKeys :=
  inferInstanceAs (Decidable (∀ e ∈ types, e.2.DistinctKeys))

namespace TypeDefinition

theorem mem_nodes_self (t : TypeDefinition) : t ∈ t.nodes := by
  cases t <;> simp [nodes]

theorem nodes_subset_membersNodes {members : List (String × TypeDefinition)} {key : String}
    {t : TypeDefinition} (h : (key, t) ∈ members) : t.nodes ⊆ membersNodes members := by
  induction members with
  | nil => simp at h
  | cons e rest ih =>
    obtain ⟨k, t'⟩ := e
    intro x hx
    rcases List.mem_cons.mp h with heq | hrest
    · cases heq
      simp [membersNodes, hx]
    · simp [membersNodes, ih hrest hx]

theorem nodes_subset_of_below? {m : Move} {t u : TypeDefinition} (h : below? m t = some u) :
    u.nodes ⊆ t.nodes := by
  intro x hx
  cases t with
  | inline _ _ s _ =>
    cases m with
    | member key =>
      cases s with
      | none => simp [below?, Dictionary.get?_nil] at h
      | some members =>
        have hx' := nodes_subset_membersNodes (Dictionary.mem_of_get? h) hx
        exact List.mem_cons_of_mem _ hx'
    | left => simp [below?] at h
    | right => simp [below?] at h
  | link => cases m <;> simp [below?] at h
  | choice _ l r =>
    cases m with
    | member => simp [below?] at h
    | left => cases h; simp [nodes, hx]
    | right => cases h; simp [nodes, hx]

theorem DistinctKeys.below {m : Move} {t u : TypeDefinition} (ht : t.DistinctKeys)
    (h : below? m t = some u) : u.DistinctKeys :=
  fun x hx => ht x (nodes_subset_of_below? h hx)

theorem DistinctKeys.resolves {types : TypeMap} {t t' : TypeDefinition}
    (htypes : types.DistinctKeys) (ht : t.DistinctKeys) (h : Resolves types t t') :
    t'.DistinctKeys := by
  induction h with
  | inline => exact ht
  | choice => exact ht
  | link found _ ih => exact ih (htypes _ (Dictionary.mem_of_get? found))

section Laws

variable {types : TypeMap} {a b c t x y : TypeDefinition} {moves : List Move}

theorem NodeAt.unique (hx : NodeAt types t moves x) (hy : NodeAt types t moves y) : x = y := by
  induction hx with
  | root =>
    cases hy
    rfl
  | move resolves found _ ih =>
    cases hy with
    | move resolves' found' rest' =>
      cases resolves.unique resolves'
      cases found.symm.trans found'
      exact ih rest'

theorem SameShape.symm (h : SameShape a b) : SameShape b a := by
  cases a <;> cases b <;> simp_all [SameShape]

theorem SameShape.trans (h : SameShape a b) (h' : SameShape b c) : SameShape a c := by
  cases a <;> cases b <;> cases c <;> simp_all [SameShape]

theorem SameNode.symm (h : SameNode types a b) : SameNode types b a := by
  obtain ⟨hc, a', b', ha, hb, hshape⟩ := h
  exact ⟨hc.symm, b', a', hb, ha, hshape.symm⟩

theorem SameNode.trans (h : SameNode types a b) (h' : SameNode types b c) : SameNode types a c := by
  obtain ⟨hc, a', b', ha, hb, hshape⟩ := h
  obtain ⟨hc', b'', c', hb', hc'', hshape'⟩ := h'
  cases hb.unique hb'
  exact ⟨hc.trans hc', a', c', ha, hc'', hshape.trans hshape'⟩

theorem SameUnfolding.symm (h : SameUnfolding types a b) : SameUnfolding types b a := by
  intro moves
  rcases h moves with ⟨ha, hb⟩ | ⟨x, y, hx, hy, hnode⟩
  · exact .inl ⟨hb, ha⟩
  · exact .inr ⟨y, x, hy, hx, hnode.symm⟩

theorem SameUnfolding.trans (h : SameUnfolding types a b) (h' : SameUnfolding types b c) :
    SameUnfolding types a c := by
  intro moves
  rcases h moves with ⟨ha, hb⟩ | ⟨x, y, hx, hy, hnode⟩
  · rcases h' moves with ⟨_, hc⟩ | ⟨y, z, hy, _⟩
    · exact .inl ⟨ha, hc⟩
    · exact absurd ⟨y, hy⟩ hb
  · rcases h' moves with ⟨hb, _⟩ | ⟨y', z, hy', hz, hnode'⟩
    · exact absurd ⟨y, hy⟩ hb
    · cases hy.unique hy'
      exact .inr ⟨x, z, hx, hz, hnode.trans hnode'⟩

end Laws

end TypeDefinition

end ServiceCheck
