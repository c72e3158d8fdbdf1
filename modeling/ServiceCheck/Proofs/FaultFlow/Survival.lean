import Mathlib.Data.List.Basic
import ServiceCheck.Proofs.FaultFlow.Edits
import ServiceCheck.Proofs.FaultFlow.Resolution

/-!
Which faults leave a tree of scopes. In pre-order, a scope comes before the scopes under it, and
these in the order of their creation. A tree lets through the faults thrown in it that no scope on
the way up catches, of each name the first in pre-order.
-/

set_option autoImplicit false

namespace ServiceCheck

namespace ThrownFault

theorem merge_add (faults others : List ThrownFault) (fault : ThrownFault) :
    merge faults (add others fault) = add (merge faults others) fault := by
  by_cases h : others.any (·.name = fault.name)
  · have hin : (merge faults others).any (·.name = fault.name) := by
      have hname : fault.name ∈ names others := by simpa [names] using h
      simpa [names] using (mem_names_merge faults others fault.name).mpr (.inr hname)
    rw [add, if_pos h, add, if_pos hin]
  · rw [add, if_neg h, merge_append]
    rfl

theorem merge_merge (faults others more : List ThrownFault) :
    merge faults (merge others more) = merge (merge faults others) more := by
  induction more generalizing others with
  | nil => rfl
  | cons fault rest ih =>
    have hstep : ∀ xs, merge xs (fault :: rest) = merge (add xs fault) rest := fun _ => rfl
    rw [hstep, hstep, ih, merge_add]

theorem foldl_merge_map {α : Type} (children : List α) (throws : α → List ThrownFault)
    (own : List ThrownFault) :
    (children.map fun child => merge [] (throws child)).foldl merge own =
      merge own (children.flatMap throws) := by
  induction children generalizing own with
  | nil => rfl
  | cons child rest ih =>
    rw [List.map_cons, List.foldl_cons, ih, merge_merge, List.flatMap_cons, merge_append]
    rfl

theorem filter_merge (keep : String → Bool) (faults others : List ThrownFault) :
    (merge faults others).filter (keep ·.name) =
      merge (faults.filter (keep ·.name)) (others.filter (keep ·.name)) := by
  have hadd : ∀ xs fault, (add xs fault).filter (keep ·.name) =
      if keep fault.name then add (xs.filter (keep ·.name)) fault else xs.filter (keep ·.name) := by
    intro xs fault
    by_cases hany : xs.any (·.name = fault.name) <;> by_cases hkeep : keep fault.name
    · have hstill : (xs.filter (keep ·.name)).any (·.name = fault.name) := by
        obtain ⟨other, hmem, heq⟩ := List.any_eq_true.mp hany
        refine List.any_eq_true.mpr ⟨other, List.mem_filter.mpr ⟨hmem, ?_⟩, heq⟩
        rwa [of_decide_eq_true heq]
      rw [add, if_pos hany, if_pos hkeep, add, if_pos hstill]
    · rw [add, if_pos hany, if_neg hkeep]
    · have hnone : ¬(xs.filter (keep ·.name)).any (·.name = fault.name) := fun hstill => by
        obtain ⟨other, hmem, heq⟩ := List.any_eq_true.mp hstill
        exact hany (List.any_eq_true.mpr ⟨other, (List.mem_filter.mp hmem).1, heq⟩)
      rw [add, if_neg hany, if_pos hkeep, add, if_neg hnone, List.filter_append,
        List.filter_singleton, hkeep, cond_true]
    · rw [add, if_neg hany, if_neg hkeep, List.filter_append, List.filter_singleton]
      simp [hkeep]
  induction others generalizing faults with
  | nil => rfl
  | cons fault rest ih =>
    have hstep : ∀ xs, merge xs (fault :: rest) = merge (add xs fault) rest := fun _ => rfl
    rw [hstep, ih, hadd, List.filter_cons]
    by_cases hkeep : keep fault.name
    · rw [if_pos hkeep, if_pos hkeep]
      rfl
    · rw [if_neg hkeep, if_neg hkeep]

theorem mem_merge_iff (faults others : List ThrownFault) (fault : ThrownFault) :
    fault ∈ merge faults others ↔ fault ∈ faults ∨
      fault.name ∉ names faults ∧ others.find? (·.name = fault.name) = some fault := by
  induction others generalizing faults with
  | nil => simp [merge]
  | cons first rest ih =>
    have hstep : merge faults (first :: rest) = merge (add faults first) rest := rfl
    have hadd := mem_names_add faults first fault.name
    rw [hstep, ih, hadd, List.find?_cons]
    by_cases hany : faults.any (·.name = first.name)
    · have hin : first.name ∈ names faults := by simpa [names] using hany
      rw [add, if_pos hany]
      by_cases hname : first.name = fault.name
      · simp [← hname, hin]
      · simp [hname, Ne.symm hname]
    · have hout : first.name ∉ names faults := by simpa [names] using hany
      rw [add, if_neg hany, List.mem_append, List.mem_singleton, or_assoc]
      by_cases hname : first.name = fault.name
      · simp [← hname, hout, eq_comm]
      · have hne : fault ≠ first := fun heq => hname (heq ▸ rfl)
        simp [hname, Ne.symm hname, hne]

end ThrownFault

namespace ScopeForest

theorem Under.trans {f : ScopeForest} {top mid a : Nat} (h : Under f top mid)
    (h' : Under f mid a) : Under f top a := by
  induction h' with
  | self => exact h
  | child hparent _ ih => exact .child hparent ih

theorem Under.lt_size {f : ScopeForest} {top a : Nat} (h : Under f top a) (htop : top < f.size) :
    a < f.size := by
  cases h with
  | self => exact htop
  | child hparent _ => exact lt_size_of_parent? hparent

/-- What holds of a scope once it holds of all its children holds of every scope. -/
theorem Sound.children_induction {f : ScopeForest} (hf : f.Sound) {motive : Nat → Prop}
    (step : ∀ id, id < f.size → (∀ child ∈ f.children id, motive child) → motive id) {id : Nat}
    (h : id < f.size) : motive id := by
  have hleft : ∀ left id, id < f.size → f.size ≤ id + left → motive id := by
    intro left
    induction left with
    | zero => intro id hid hle; omega
    | succ left ih =>
      intro id hid hle
      refine step id hid fun child hchild => ih child (hf.lt_size_of_mem_children hchild) ?_
      have hlt := hf.lt_of_mem_children hchild
      omega
  exact hleft f.size id h (by omega)

def subtreeUpTo : Nat → ScopeForest → Nat → List Nat
  | 0, _, _ => []
  | depth + 1, f, id => id :: (f.children id).flatMap (subtreeUpTo depth f)

/-- The scopes under a scope, itself included, in pre-order. -/
def subtree (f : ScopeForest) (id : Nat) : List Nat := subtreeUpTo f.size f id

section Subtree

variable {f : ScopeForest} (hf : f.Sound) {id : Nat} (h : id < f.size)

include hf h

theorem subtreeUpTo_eq {depth depth' : Nat} (hdepth : f.size ≤ id + depth)
    (hdepth' : f.size ≤ id + depth') : subtreeUpTo depth f id = subtreeUpTo depth' f id := by
  have hall : ∀ d d', f.size ≤ id + d → f.size ≤ id + d' →
      subtreeUpTo d f id = subtreeUpTo d' f id := by
    refine hf.children_induction (motive := fun id => ∀ d d', f.size ≤ id + d →
      f.size ≤ id + d' → subtreeUpTo d f id = subtreeUpTo d' f id) (fun id hid ih => ?_) h
    intro d d' hd hd'
    obtain ⟨n, rfl⟩ : ∃ n, d = n + 1 := ⟨d - 1, by omega⟩
    obtain ⟨n', rfl⟩ : ∃ n', d' = n' + 1 := ⟨d' - 1, by omega⟩
    rw [subtreeUpTo, subtreeUpTo]
    congr 1
    refine List.flatMap_congr fun child hchild => ih child hchild n n' ?_ ?_ <;>
    · have hlt := hf.lt_of_mem_children hchild
      omega
  exact hall depth depth' hdepth hdepth'

theorem subtree_eq : f.subtree id = id :: (f.children id).flatMap f.subtree := by
  have hmore : subtreeUpTo f.size f id = subtreeUpTo (f.size + 1) f id :=
    subtreeUpTo_eq hf h (by omega) (by omega)
  rw [subtree, hmore, subtreeUpTo]
  rfl

theorem mem_subtree_iff {a : Nat} : a ∈ f.subtree id ↔ Under f id a := by
  refine hf.children_induction (motive := fun id => a ∈ f.subtree id ↔ Under f id a)
    (fun id hid ih => ?_) h
  rw [subtree_eq hf hid, List.mem_cons, List.mem_flatMap]
  constructor
  · rintro (rfl | ⟨child, hchild, ha⟩)
    · exact .self
    · exact ((ih child hchild).mp ha).of_child (hf.mem_children.mp hchild)
  · intro ha
    by_cases heq : a = id
    · exact .inl heq
    · obtain ⟨child, hchild, hu⟩ := ha.exists_child hf heq
      exact .inr ⟨child, hchild, (ih child hchild).mpr hu⟩

end Subtree

/-- No scope on the way from a scope up to the root, both included, catches the fault. -/
def Escapes (f : ScopeForest) (root scope : Nat) (name : String) : Prop :=
  ∀ a ∈ f.subtree root, scope ∈ f.subtree a → CaughtFault.anyCatches (f.caught a) name = false

instance (f : ScopeForest) (root scope : Nat) (name : String) :
    Decidable (f.Escapes root scope name) :=
  inferInstanceAs (Decidable (∀ a ∈ f.subtree root,
    scope ∈ f.subtree a → CaughtFault.anyCatches (f.caught a) name = false))

theorem escapes_iff {f : ScopeForest} (hf : f.Sound) {root : Nat} (h : root < f.size)
    (scope : Nat) (name : String) :
    f.Escapes root scope name ↔ ∀ a, Under f root a → Under f a scope →
      CaughtFault.anyCatches (f.caught a) name = false := by
  constructor
  · intro hall a ha hscope
    exact hall a ((mem_subtree_iff hf h).mpr ha)
      ((mem_subtree_iff hf (ha.lt_size h)).mpr hscope)
  · intro hall a ha hscope
    have hu := (mem_subtree_iff hf h).mp ha
    exact hall a hu ((mem_subtree_iff hf (hu.lt_size h)).mp hscope)

theorem escapes_self_iff {f : ScopeForest} (hf : f.Sound) {root : Nat} (h : root < f.size)
    (name : String) :
    f.Escapes root root name ↔ CaughtFault.anyCatches (f.caught root) name = false := by
  rw [escapes_iff hf h]
  constructor
  · intro hall
    exact hall root .self .self
  · intro hfree a ha hroot
    obtain rfl : a = root := Nat.le_antisymm (hroot.le hf) (ha.le hf)
    exact hfree

theorem escapes_child_iff {f : ScopeForest} (hf : f.Sound) {root child scope : Nat}
    (h : root < f.size) (hchild : child ∈ f.children root) (hscope : Under f child scope)
    (name : String) :
    f.Escapes root scope name ↔
      CaughtFault.anyCatches (f.caught root) name = false ∧ f.Escapes child scope name := by
  have hparent := hf.mem_children.mp hchild
  rw [escapes_iff hf h, escapes_iff hf (hf.lt_size_of_mem_children hchild)]
  constructor
  · intro hall
    refine ⟨hall root .self (hscope.of_child hparent), fun a ha => ?_⟩
    exact hall a (ha.of_child hparent)
  · intro ⟨hfree, hall⟩ a ha hu
    by_cases heq : a = root
    · exact heq ▸ hfree
    · -- the way leads through one child only, the one that the scope is under
      obtain ⟨other, hother, hunder⟩ := ha.exists_child hf heq
      have hsame : other = child := by
        refine Classical.byContradiction fun hne => ?_
        refine not_under_sibling hf hne ?_ (hunder.trans hu) hscope
        rw [hf.mem_children.mp hother, hparent]
      exact hall a (hsame ▸ hunder) hu

/-- The faults of a tree that leave it, in pre-order: of each scope those of its throws that no
scope on the way up catches. -/
def escaping (f : ScopeForest) (throws : Nat → List ThrownFault) (root : Nat) :
    List ThrownFault :=
  (f.subtree root).flatMap fun scope =>
    (throws scope).filter fun fault => f.Escapes root scope fault.name

theorem escaping_eq {f : ScopeForest} (hf : f.Sound) (throws : Nat → List ThrownFault) {id : Nat}
    (h : id < f.size) :
    f.escaping throws id =
      (throws id ++ (f.children id).flatMap (f.escaping throws)).filter
        fun fault => !CaughtFault.anyCatches (f.caught id) fault.name := by
  rw [escaping, subtree_eq hf h, List.flatMap_cons, List.filter_append, List.flatMap_assoc,
    List.filter_flatMap]
  congr 1
  · refine List.filter_congr fun fault _ => ?_
    rw [Bool.eq_iff_iff, decide_eq_true_iff, escapes_self_iff hf h, Bool.not_eq_true']
  · refine List.flatMap_congr fun child hchild => ?_
    rw [escaping, List.filter_flatMap]
    refine List.flatMap_congr fun scope hscope => ?_
    rw [List.filter_filter]
    refine List.filter_congr fun fault _ => ?_
    have hunder := (mem_subtree_iff hf (hf.lt_size_of_mem_children hchild)).mp hscope
    rw [Bool.eq_iff_iff, decide_eq_true_iff, escapes_child_iff hf h hchild hunder,
      Bool.and_eq_true, Bool.not_eq_true', decide_eq_true_iff]

theorem survivors_eq_merge_escaping {f : ScopeForest} (hf : f.Sound)
    {throws : Nat → List ThrownFault}
    (hthrows : ∀ a, f.thrown a = ThrownFault.merge [] (throws a)) {id : Nat} (h : id < f.size) :
    f.survivors id = ThrownFault.merge [] (f.escaping throws id) := by
  refine hf.children_induction (motive := fun id =>
    f.survivors id = ThrownFault.merge [] (f.escaping throws id)) (fun id hid ih => ?_) h
  have hchildren : (f.children id).map f.survivors =
      (f.children id).map fun child => ThrownFault.merge [] (f.escaping throws child) :=
    List.map_congr_left ih
  calc f.survivors id
      = ((((f.children id).map fun child =>
          ThrownFault.merge [] (f.escaping throws child)).foldl ThrownFault.merge
            (ThrownFault.merge [] (throws id))).filter
              fun fault => !CaughtFault.anyCatches (f.caught id) fault.name) := by
        rw [survivors_eq hf, hthrows, hchildren]
        rfl
    _ = (ThrownFault.merge [] (throws id ++ (f.children id).flatMap (f.escaping throws))).filter
          fun fault => !CaughtFault.anyCatches (f.caught id) fault.name := by
        rw [ThrownFault.foldl_merge_map, ThrownFault.merge_append]
    _ = ThrownFault.merge [] (f.escaping throws id) := by
        rw [escaping_eq hf throws hid]
        exact ThrownFault.filter_merge (!CaughtFault.anyCatches (f.caught id) ·) _ _

theorem mem_names_escaping (f : ScopeForest) (throws : Nat → List ThrownFault) (root : Nat)
    (name : String) :
    name ∈ ThrownFault.names (f.escaping throws root) ↔
      ∃ scope ∈ f.subtree root, name ∈ ThrownFault.names (throws scope) ∧
        f.Escapes root scope name := by
  simp only [ThrownFault.names, escaping, List.mem_map, List.mem_flatMap, List.mem_filter,
    decide_eq_true_iff]
  constructor
  · rintro ⟨fault, ⟨scope, hscope, hmem, hfree⟩, rfl⟩
    exact ⟨scope, hscope, ⟨fault, hmem, rfl⟩, hfree⟩
  · rintro ⟨scope, hscope, ⟨fault, hmem, rfl⟩, hfree⟩
    exact ⟨fault, ⟨scope, hscope, hmem, hfree⟩, rfl⟩

theorem getElem?_congr {f g : ScopeForest} (h : SameLinks f g) {a : Nat}
    (hthrown : g.thrown a = f.thrown a) (hcaught : g.caught a = f.caught a) :
    g.scopes[a]? = f.scopes[a]? := by
  rcases Nat.lt_or_ge a f.size with hlt | hge
  · obtain ⟨s, hs⟩ := exists_scope hlt
    obtain ⟨t, ht⟩ := exists_scope (h.size_eq ▸ hlt)
    have hparent := h.parent?_eq a
    have hchildren := h.children_eq a
    simp only [parent?, children, thrown, caught, hs, ht, Option.bind_some, Option.map_some,
      Option.getD_some, Scope.children, List.reverse_inj] at hparent hchildren hthrown hcaught
    rw [hs, ht]
    cases s
    cases t
    simp_all
  · rw [getElem?_eq_none hge, getElem?_eq_none (h.size_eq ▸ hge)]

/-- Resolving a root of a built forest leaves in it the names that are thrown somewhere in its tree
and caught nowhere on the way up, each with the origin that the first such throw in pre-order
gives it, children in the order of their creation. Scopes outside the tree stay as they are. -/
theorem thrown_resolve_built (edits : List ForestEdit) (h : empty.AllFit edits) {root : Nat}
    (hroot : root < (built edits).size) (hparent : (built edits).parent? root = none) :
    (∀ name, name ∈ ThrownFault.names (((built edits).resolve root).thrown root) ↔
      ∃ scope ∈ (built edits).subtree root,
        name ∈ ThrownFault.names (ForestEdit.throws edits scope) ∧
        ∀ a ∈ (built edits).subtree root, scope ∈ (built edits).subtree a →
          .all ∉ ForestEdit.handlers edits a ∧ .named name ∉ ForestEdit.handlers edits a) ∧
    (∀ fault, fault ∈ ((built edits).resolve root).thrown root ↔
      ((built edits).escaping (ForestEdit.throws edits) root).find? (·.name = fault.name) =
        some fault) ∧
    (∀ a, ((built edits).children a).Pairwise (· < ·)) ∧
    ∀ a ∉ (built edits).subtree root,
      ((built edits).resolve root).scopes[a]? = (built edits).scopes[a]? := by
  have hf : (built edits).Sound := sound_empty.edit h
  have hthrows : ∀ a, (built edits).thrown a = ThrownFault.merge [] (ForestEdit.throws edits a) :=
    thrown_edit h
  have hcaught : ∀ a, (built edits).caught a = ForestEdit.handlers edits a :=
    fun a => caught_edit h a
  have hresolved := resolved_resolve hf root
  have hleft : ((built edits).resolve root).thrown root =
      ThrownFault.merge [] ((built edits).escaping (ForestEdit.throws edits) root) := by
    rw [hresolved.under root (List.mem_singleton_self _) root .self,
      survivors_eq_merge_escaping hf hthrows hroot]
  refine ⟨fun name => ?_, fun fault => ?_, fun a => ?_, fun a ha => ?_⟩
  · rw [hleft, ThrownFault.mem_names_merge, mem_names_escaping]
    simp [Escapes, ThrownFault.names, CaughtFault.anyCatches, hcaught]
  · rw [hleft, ThrownFault.mem_merge_iff]
    simp [ThrownFault.names]
  · exact pairwise_children_edit sound_empty h (fun _ => by simp [children, empty]) a
  · have hout : ¬Under (built edits) root a := fun hu => ha ((mem_subtree_iff hf hroot).mpr hu)
    refine getElem?_congr hresolved.links (hresolved.other a ?_ ?_) (hresolved.caught a)
    · simpa using hout
    · simp [hparent]

def forkedEdits : List ForestEdit :=
  [.addRoot, .addRoot, .addChild 0, .addChild 2, .addChild 0, .addChild 1,
    .throw 3 ⟨"Bad", some "first@P"⟩, .handle 2 "Bad", .throw 5 ⟨"Bad", none⟩,
    .throw 4 ⟨"Bad", some "second@P"⟩, .throw 4 ⟨"Bad", some "third@P"⟩, .handle 5 "default"]

theorem thrown_resolve_forkedEdits :
    (empty.AllFit forkedEdits ∧ 0 < (built forkedEdits).size ∧
      (built forkedEdits).parent? 0 = none) ∧
    "Bad" ∈ ThrownFault.names (((built forkedEdits).resolve 0).thrown 0) ∧
    ⟨"Bad", some "second@P"⟩ ∈ ((built forkedEdits).resolve 0).thrown 0 ∧
    ((built forkedEdits).children 0).Pairwise (· < ·) ∧
    ((built forkedEdits).resolve 0).scopes[5]? = (built forkedEdits).scopes[5]? := by
  have hfit : empty.AllFit forkedEdits := by decide
  have hroot : 0 < (built forkedEdits).size := by decide
  have hparent : (built forkedEdits).parent? 0 = none := by decide
  obtain ⟨hnames, hfirst, hsorted, hother⟩ := thrown_resolve_built forkedEdits hfit hroot hparent
  refine ⟨⟨hfit, hroot, hparent⟩, (hnames "Bad").mpr ⟨4, by decide, by decide, by decide⟩,
    (hfirst _).mpr (by decide), hsorted 0, hother 5 (by decide)⟩

end ScopeForest

end ServiceCheck
