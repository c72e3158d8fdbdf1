import Mathlib.Data.Finset.Card
import Mathlib.Data.Finset.Prod
import Mathlib.Combinatorics.Pigeonhole
import ServiceCheck.Proofs.Types.Comparison

/-!
Which comparisons have no end. Pairs of links are assumed when they are met and cannot be entered
twice, so a comparison can only run on for ever where the links of the two sides are out of step:
it comes back to two definitions under the same assumptions without having met two links at once.
The bound on the depth is large enough that such a return must happen within it.
-/

set_option autoImplicit false

namespace ServiceCheck

namespace TypeDefinition

mutual

theorem length_nodes : (t : TypeDefinition) → t.nodes.length = t.size
  | .inline _ _ s _ => by simp [nodes, size, length_blockNodes s, Nat.add_comm]
  | .link _ _ => rfl
  | .choice _ l r => by simp [nodes, size, length_nodes l, length_nodes r]; omega

theorem length_blockNodes : (s : Option (List (String × TypeDefinition))) →
    (blockNodes s).length = blockSize s
  | none => rfl
  | some members => length_membersNodes members

theorem length_membersNodes : (members : List (String × TypeDefinition)) →
    (membersNodes members).length = membersSize members
  | [] => rfl
  | (_, t) :: rest => by
    simp [membersNodes, membersSize, length_nodes t, length_membersNodes rest]

end

mutual

theorem nodes_subset_of_mem : (t : TypeDefinition) → ∀ u ∈ t.nodes, u.nodes ⊆ t.nodes
  | .inline h n s un => by
    intro u hu
    rcases List.mem_cons.mp hu with rfl | hu
    · exact List.Subset.refl _
    · exact List.subset_cons_of_subset _ (nodes_subset_of_mem_block s u hu)
  | .link _ _ => by
    intro u hu
    rw [List.mem_singleton.mp hu]
    exact List.Subset.refl _
  | .choice h l r => by
    intro u hu
    rcases List.mem_cons.mp hu with rfl | hu
    · exact List.Subset.refl _
    · apply List.subset_cons_of_subset
      rcases List.mem_append.mp hu with hl | hr
      · exact List.subset_append_of_subset_left _ (nodes_subset_of_mem l u hl)
      · exact List.subset_append_of_subset_right _ (nodes_subset_of_mem r u hr)

theorem nodes_subset_of_mem_block : (s : Option (List (String × TypeDefinition))) →
    ∀ u ∈ blockNodes s, u.nodes ⊆ blockNodes s
  | none => by simp [blockNodes]
  | some members => nodes_subset_of_mem_members members

theorem nodes_subset_of_mem_members : (members : List (String × TypeDefinition)) →
    ∀ u ∈ membersNodes members, u.nodes ⊆ membersNodes members
  | [] => by simp [membersNodes]
  | (_, t) :: rest => by
    intro u hu
    rcases List.mem_append.mp hu with ht | hr
    · exact List.subset_append_of_subset_left _ (nodes_subset_of_mem t u ht)
    · exact List.subset_append_of_subset_right _ (nodes_subset_of_mem_members rest u hr)

end

/-- Definitions that a comparison cannot leave: with a definition all that is written inside it,
and whatever a name of the map stands for. -/
structure Closed (types : TypeMap) (defs : List TypeDefinition) : Prop where
  nodes : ∀ t ∈ defs, t.nodes ⊆ defs
  found : ∀ x t, Dictionary.get? types x = some t → t ∈ defs

def comparedNodes (types : TypeMap) (a b : TypeDefinition) : List TypeDefinition :=
  membersNodes types ++ (a.nodes ++ b.nodes)

theorem length_comparedNodes (types : TypeMap) (a b : TypeDefinition) :
    (comparedNodes types a b).length = comparisonSize types a b := by
  simp [comparedNodes, comparisonSize, length_membersNodes, length_nodes, Nat.add_assoc]

theorem closed_comparedNodes (types : TypeMap) (a b : TypeDefinition) :
    Closed types (comparedNodes types a b) where
  nodes := by
    intro t ht
    rcases List.mem_append.mp ht with ht | ht
    · exact List.subset_append_of_subset_left _ (nodes_subset_of_mem_members types t ht)
    · apply List.subset_append_of_subset_right
      rcases List.mem_append.mp ht with ht | ht
      · exact List.subset_append_of_subset_left _ (nodes_subset_of_mem a t ht)
      · exact List.subset_append_of_subset_right _ (nodes_subset_of_mem b t ht)
  found := by
    intro x t h
    have hsub := nodes_subset_membersNodes (Dictionary.mem_of_get? h)
    exact List.mem_append_left _ (hsub (mem_nodes_self t))

section Closed

variable {types : TypeMap} {defs : List TypeDefinition}

theorem Closed.resolves (hc : Closed types defs) {t t' : TypeDefinition} (ht : t ∈ defs)
    (h : Resolves types t t') : t' ∈ defs := by
  induction h with
  | inline => exact ht
  | choice => exact ht
  | link found _ ih => exact ih (hc.found _ _ found)

theorem Closed.member (hc : Closed types defs) {h : TypeHead} {n : NativeType}
    {s : Option (List (String × TypeDefinition))} {u : Bool} {key : String} {t : TypeDefinition}
    (hd : TypeDefinition.inline h n s u ∈ defs) (ht : (key, t) ∈ s.getD []) : t ∈ defs := by
  cases s with
  | none => simp at ht
  | some members =>
    have hsub := nodes_subset_membersNodes ht
    exact hc.nodes _ hd (List.mem_cons_of_mem _ (hsub (mem_nodes_self t)))

theorem Closed.left (hc : Closed types defs) {h : TypeHead} {l r : TypeDefinition}
    (hd : TypeDefinition.choice h l r ∈ defs) : l ∈ defs :=
  hc.nodes _ hd (List.mem_cons_of_mem _ (List.mem_append_left _ (mem_nodes_self l)))

theorem Closed.right (hc : Closed types defs) {h : TypeHead} {l r : TypeDefinition}
    (hd : TypeDefinition.choice h l r ∈ defs) : r ∈ defs :=
  hc.nodes _ hd (List.mem_cons_of_mem _ (List.mem_append_right _ (mem_nodes_self r)))

theorem mem_of_memberPairs {others : Dictionary TypeDefinition}
    {members : List (String × TypeDefinition)} {p : TypeDefinition × TypeDefinition}
    (h : p ∈ (memberPairs others members).1) :
    ∃ key, (key, p.1) ∈ members ∧ (key, p.2) ∈ others := by
  induction members with
  | nil => simp [memberPairs] at h
  | cons e rest ih =>
    obtain ⟨key, a⟩ := e
    cases hb : Dictionary.get? others key with
    | none => simp [memberPairs, hb] at h
    | some b =>
      by_cases hc : a.cardinality = b.cardinality
      · simp only [memberPairs, hb, hc, if_true, List.mem_cons] at h
        rcases h with rfl | h
        · exact ⟨key, List.mem_cons_self, Dictionary.mem_of_get? hb⟩
        · obtain ⟨key', hmem, hother⟩ := ih h
          exact ⟨key', List.mem_cons_of_mem _ hmem, hother⟩
      · simp [memberPairs, hb, hc] at h

theorem mem_of_sidePairs {l r l' r' : TypeDefinition} {p : TypeDefinition × TypeDefinition}
    (h : p ∈ (sidePairs l r l' r').1) : p = (l, l') ∨ p = (r, r') := by
  simp only [sidePairs] at h
  split at h
  · split at h
    · simpa using h
    · exact .inl (List.mem_singleton.mp h)
  · simp at h

theorem Closed.plan_pairs (hc : Closed types defs) {assumed : Assumptions} {a b : TypeDefinition}
    (ha : a ∈ defs) (hb : b ∈ defs) :
    ∀ p ∈ (plan types assumed a b).pairs, p.1 ∈ defs ∧ p.2 ∈ defs := by
  intro p hp
  have hplan := planOf_plan types assumed a b
  generalize plan types assumed a b = q at hp hplan
  cases hplan with
  | answer => simp [Plan.answer] at hp
  | links _ hx hy =>
    rw [List.mem_singleton.mp hp]
    exact ⟨hc.found _ _ hx, hc.found _ _ hy⟩
  | linkLeft _ hr =>
    rw [List.mem_singleton.mp hp]
    exact ⟨hc.resolves ha hr, hb⟩
  | linkRight _ hr =>
    rw [List.mem_singleton.mp hp]
    exact ⟨ha, hc.resolves hb hr⟩
  | members =>
    obtain ⟨key, hmem, hother⟩ := mem_of_memberPairs hp
    exact ⟨hc.member ha hmem, hc.member hb hother⟩
  | sides =>
    rcases mem_of_sidePairs hp with rfl | rfl
    · exact ⟨hc.left ha, hc.left hb⟩
    · exact ⟨hc.right ha, hc.right hb⟩

end Closed

def target? : TypeDefinition → Option String
  | .link _ x => some x
  | _ => none

def linkNames (defs : List TypeDefinition) : Finset String := (defs.filterMap target?).toFinset

theorem card_linkNames (defs : List TypeDefinition) : (linkNames defs).card ≤ defs.length :=
  (List.toFinset_card_le _).trans (List.length_filterMap_le _ _)

theorem mem_linkNames {defs : List TypeDefinition} {h : TypeHead} {x : String}
    (hd : TypeDefinition.link h x ∈ defs) : x ∈ linkNames defs :=
  List.mem_toFinset.mpr (List.mem_filterMap.mpr ⟨_, hd, rfl⟩)

def free (defs : List TypeDefinition) (assumed : Assumptions) : Finset (String × String) :=
  (linkNames defs ×ˢ linkNames defs).filter fun p => assumed.holds p.1 p.2 = false

theorem card_free_le (defs : List TypeDefinition) (assumed : Assumptions) :
    (free defs assumed).card ≤ defs.length * defs.length := by
  have hle := Finset.card_filter_le (linkNames defs ×ˢ linkNames defs)
    fun p => assumed.holds p.1 p.2 = false
  rw [Finset.card_product] at hle
  exact hle.trans (Nat.mul_le_mul (card_linkNames defs) (card_linkNames defs))

theorem card_free_assume_lt {defs : List TypeDefinition} {assumed : Assumptions} {x y : String}
    (hx : x ∈ linkNames defs) (hy : y ∈ linkNames defs) (h : assumed.holds x y = false) :
    (free defs (assumed.assume x y)).card < (free defs assumed).card := by
  apply Finset.card_lt_card
  rw [Finset.ssubset_iff_of_subset]
  · refine ⟨(x, y), ?_, ?_⟩
    · simp [free, hx, hy, h]
    · simp [free, Assumptions.holds_assume]
  · intro p hp
    simp only [free, Finset.mem_filter, Assumptions.holds_assume, Bool.or_eq_false_iff] at hp ⊢
    exact ⟨hp.1, hp.2.2⟩

def Spends (defs : List TypeDefinition) (assumed assumed' : Assumptions) : Prop :=
  assumed' = assumed ∨ (free defs assumed').card < (free defs assumed).card

theorem Spends.trans {defs : List TypeDefinition} {a b c : Assumptions} (h : Spends defs a b)
    (h' : Spends defs b c) : Spends defs a c := by
  rcases h' with rfl | h'
  · exact h
  · rcases h with rfl | h
    · exact .inr h'
    · exact .inr (h'.trans h)

section Spends

variable {types : TypeMap} {defs : List TypeDefinition}

theorem spends_of_runPairs {depth : Nat}
    (hstep : ∀ assumed a b assumed', a ∈ defs → b ∈ defs →
      compareBody types depth assumed a b = .same assumed' → Spends defs assumed assumed')
    {pairs : List (TypeDefinition × TypeDefinition)}
    (hp : ∀ p ∈ pairs, p.1 ∈ defs ∧ p.2 ∈ defs) {assumed assumed' : Assumptions}
    (h : runPairs (compareBody types depth) assumed pairs = .same assumed') :
    Spends defs assumed assumed' := by
  induction pairs generalizing assumed with
  | nil =>
    simp only [runPairs, Comparing.same.injEq] at h
    exact .inl h.symm
  | cons p rest ih =>
    simp only [runPairs, Comparing.andThen_eq_same] at h
    obtain ⟨between, hfirst, hrest⟩ := h
    obtain ⟨hl, hr⟩ := hp p List.mem_cons_self
    have hspends := hstep _ _ _ _ hl hr hfirst
    exact hspends.trans (ih (fun q hq => hp q (List.mem_cons_of_mem _ hq)) hrest)

theorem spends_plan (assumed : Assumptions) {a b : TypeDefinition} (ha : a ∈ defs)
    (hb : b ∈ defs) : Spends defs assumed (plan types assumed a b).assumed := by
  have hplan := planOf_plan types assumed a b
  generalize plan types assumed a b = p at hplan
  cases hplan with
  | answer => exact .inl rfl
  | links new => exact .inr (card_free_assume_lt (mem_linkNames ha) (mem_linkNames hb) new)
  | linkLeft => exact .inl rfl
  | linkRight => exact .inl rfl
  | members => exact .inl rfl
  | sides => exact .inl rfl

theorem Closed.spends (hc : Closed types defs) {depth : Nat} {assumed assumed' : Assumptions}
    {a b : TypeDefinition} (ha : a ∈ defs) (hb : b ∈ defs)
    (h : compareBody types depth assumed a b = .same assumed') :
    Spends defs assumed assumed' := by
  induction depth generalizing assumed assumed' a b with
  | zero => simp [compareBody] at h
  | succ depth ih =>
    rw [compareBody_succ, Plan.run_eq_same_iff] at h
    have hrun := spends_of_runPairs (fun _ _ _ _ ha hb h => ih ha hb h) (hc.plan_pairs ha hb) h.2
    exact (spends_plan assumed ha hb).trans hrun

end Spends

namespace Call

def Slips (types : TypeMap) (c c' : Call) : Prop :=
  Calls types c c' ∧ ¬(c.left.isLink = true ∧ c.right.isLink = true)

def Among (defs : List TypeDefinition) (c : Call) : Prop := c.left ∈ defs ∧ c.right ∈ defs

section Chain

variable {types : TypeMap} {defs : List TypeDefinition}

theorem Calls.among (hc : Closed types defs) {c c' : Call} (h : Calls types c c')
    (hd : c.Among defs) : c'.Among defs := by
  obtain ⟨before, after, _, hp, _⟩ := h
  have hmem : (c'.left, c'.right) ∈ (c.plan types).pairs := by simp [hp]
  exact hc.plan_pairs hd.1 hd.2 _ hmem

/-- Of two links a new pair of names is assumed. -/
theorem Calls.slips_or_spends (hc : Closed types defs) {c c' : Call} (h : Calls types c c')
    (hd : c.Among defs) : (c'.assumed = c.assumed ∧ Slips types c c') ∨
      (free defs c'.assumed).card < (free defs c.assumed).card := by
  obtain ⟨before, after, depth, hp, hbefore⟩ := h
  have hmem : ∀ p ∈ before, p.1 ∈ defs ∧ p.2 ∈ defs := by
    intro p hbp
    have hpairs : p ∈ (c.plan types).pairs := by simp [hp, hbp]
    exact hc.plan_pairs hd.1 hd.2 p hpairs
  have hrun := spends_of_runPairs (fun _ _ _ _ ha hb h => hc.spends ha hb h) hmem hbefore
  by_cases hlinks : c.left.isLink = true ∧ c.right.isLink = true
  · right
    have hplan := planOf_plan types c.assumed c.left c.right
    have hfree := hd
    obtain ⟨assumed, a, b⟩ := c
    simp only [plan] at hp hrun hlinks hplan
    generalize TypeDefinition.plan types assumed a b = p at hp hrun hplan
    cases hplan with
    | answer => simp [Plan.answer] at hp
    | links new =>
      have hlt := card_free_assume_lt (mem_linkNames hfree.1) (mem_linkNames hfree.2) new
      rcases hrun with heq | hless
      · rw [heq]
        exact hlt
      · exact hless.trans hlt
    | linkLeft hb => simp [hb] at hlinks
    | linkRight ha => simp [ha] at hlinks
    | members => simp [isLink] at hlinks
    | sides => simp [isLink] at hlinks
  · rcases (spends_plan c.assumed hd.1 hd.2).trans hrun with heq | hless
    · exact .inl ⟨heq, ⟨before, after, depth, hp, hbefore⟩, hlinks⟩
    · exact .inr hless

variable {chain : Nat → Call} {length : Nat}

theorem among_chain (hc : Closed types defs) (hfirst : (chain 0).Among defs)
    (hchain : ∀ i < length, Calls types (chain i) (chain (i + 1))) :
    ∀ i ≤ length, (chain i).Among defs := by
  intro i hi
  induction i with
  | zero => exact hfirst
  | succ i ih => exact (hchain i (by omega)).among hc (ih (by omega))

theorem free_chain_le (hc : Closed types defs) (hfirst : (chain 0).Among defs)
    (hchain : ∀ i < length, Calls types (chain i) (chain (i + 1))) {i j : Nat} (hij : i ≤ j)
    (hj : j ≤ length) :
    (free defs (chain j).assumed).card ≤ (free defs (chain i).assumed).card := by
  induction hij with
  | refl => exact Nat.le_refl _
  | @step j hij ih =>
    have hamong := among_chain hc hfirst hchain j (by omega)
    refine Nat.le_trans ?_ (ih (by omega))
    rcases (hchain j (by omega)).slips_or_spends hc hamong with ⟨heq, _⟩ | hless
    · rw [heq]
    · exact hless.le

theorem slips_of_free_eq (hc : Closed types defs) {c c' : Call} (h : Calls types c c')
    (hd : c.Among defs) (hfree : (free defs c'.assumed).card = (free defs c.assumed).card) :
    c'.assumed = c.assumed ∧ Slips types c c' := by
  rcases h.slips_or_spends hc hd with hslips | hless
  · exact hslips
  · omega

/-- As long as no pair of names is newly assumed, no call is made from two links. -/
theorem slips_chain (hc : Closed types defs) (hfirst : (chain 0).Among defs)
    (hchain : ∀ i < length, Calls types (chain i) (chain (i + 1))) {i j : Nat} (hij : i + 1 ≤ j)
    (hj : j ≤ length)
    (hfree : (free defs (chain j).assumed).card = (free defs (chain i).assumed).card) :
    (chain j).assumed = (chain i).assumed ∧
      Relation.TransGen (Slips types) (chain i) (chain j) := by
  induction j, hij using Nat.le_induction with
  | base =>
    have hamong := among_chain hc hfirst hchain i (by omega)
    obtain ⟨hsame, hslips⟩ := slips_of_free_eq hc (hchain i (by omega)) hamong hfree
    exact ⟨hsame, .single hslips⟩
  | succ j hij ih =>
    have hamong := among_chain hc hfirst hchain j (by omega)
    have hle := free_chain_le hc hfirst hchain (show j ≤ j + 1 by omega) hj
    have hle' := free_chain_le hc hfirst hchain (Nat.le_of_succ_le hij) (by omega)
    obtain ⟨hsame, hslips⟩ := slips_of_free_eq hc (hchain j (by omega)) hamong (by omega)
    obtain ⟨hsame', hreach⟩ := ih (by omega) (by omega)
    exact ⟨hsame.trans hsame', hreach.tail hslips⟩

theorem reaches_chain (hchain : ∀ i < length, Calls types (chain i) (chain (i + 1))) :
    ∀ i ≤ length, Relation.ReflTransGen (Calls types) (chain 0) (chain i) := by
  intro i hi
  induction i with
  | zero => exact .refl
  | succ i ih => exact (ih (by omega)).tail (hchain i (by omega))

/-- A chain with more calls than there are definitions and assumptions to tell them apart comes
back to one of its calls. -/
theorem exists_cycle_of_chain (hc : Closed types defs) (hfirst : (chain 0).Among defs)
    (hchain : ∀ i < length, Calls types (chain i) (chain (i + 1)))
    (hlength : defs.length * defs.length * (defs.length * defs.length + 1) < length) :
    ∃ c, Relation.ReflTransGen (Calls types) (chain 0) c ∧
      Relation.TransGen (Slips types) c c := by
  classical
  let rank : Nat → Nat × TypeDefinition × TypeDefinition :=
    fun i => ((free defs (chain i).assumed).card, (chain i).left, (chain i).right)
  let ranks := Finset.range (defs.length * defs.length + 1) ×ˢ defs.toFinset ×ˢ defs.toFinset
  have hmaps : ∀ i ∈ Finset.range length, rank i ∈ ranks := by
    intro i hi
    have hle := card_free_le defs (chain i).assumed
    have hamong := among_chain hc hfirst hchain i (Finset.mem_range.mp hi).le
    simp only [rank, ranks, Finset.mem_product, Finset.mem_range, List.mem_toFinset]
    exact ⟨by omega, hamong⟩
  have hcard : ranks.card < (Finset.range length).card := by
    have hdefs := List.toFinset_card_le defs
    have hmul := Nat.mul_le_mul_left (defs.length * defs.length + 1) (Nat.mul_le_mul hdefs hdefs)
    simp only [ranks, Finset.card_product, Finset.card_range]
    rw [Nat.mul_comm] at hlength
    exact hmul.trans_lt hlength
  obtain ⟨i, hi, j, hj, hne, heq⟩ := Finset.exists_ne_map_eq_of_card_lt_of_maps_to hcard hmaps
  obtain ⟨k, l, hkl, hl, hrank⟩ : ∃ k l, k < l ∧ l < length ∧ rank k = rank l := by
    rcases Nat.lt_or_gt_of_ne hne with h | h
    · exact ⟨i, j, h, Finset.mem_range.mp hj, heq⟩
    · exact ⟨j, i, h, Finset.mem_range.mp hi, heq.symm⟩
  simp only [rank, Prod.mk.injEq] at hrank
  obtain ⟨hfree, hleft, hright⟩ := hrank
  obtain ⟨hassumed, hcycle⟩ := slips_chain hc hfirst hchain hkl hl.le hfree.symm
  have hback : chain l = chain k := by
    cases hcl : chain l
    cases hck : chain k
    simp_all
  rw [hback] at hcycle
  exact ⟨chain k, reaches_chain hchain k (by omega), hcycle⟩

end Chain

theorem unending_of_slipCycle {types : TypeMap} {c c' : Call}
    (hreach : Relation.ReflTransGen (Calls types) c c')
    (hcycle : Relation.TransGen (Slips types) c' c') : c.Unending types := by
  have hle : Slips types ≤ Calls types := fun _ _ h => h.1
  exact unending_of_reaches hreach (unending_of_onCycle (Relation.TransGen.mono hle _ _ hcycle))

theorem run_start_eq_unending_iff (types : TypeMap) (a b : TypeDefinition) :
    (start a b).run types (comparisonDepth types a b) = .unending ↔
      ∃ c, Relation.ReflTransGen (Calls types) (start a b) c ∧
        Relation.TransGen (Slips types) c c := by
  constructor
  · intro h
    obtain ⟨chain, hfirst, hchain⟩ := exists_chain_of_unending h
    have hc := closed_comparedNodes types a b
    have hamong : (chain 0).Among (comparedNodes types a b) := by
      rw [hfirst]
      exact ⟨List.mem_append_right _ (List.mem_append_left _ (mem_nodes_self a)),
        List.mem_append_right _ (List.mem_append_right _ (mem_nodes_self b))⟩
    have hcycle := exists_cycle_of_chain hc hamong hchain (by
      rw [length_comparedNodes]
      simp [comparisonDepth])
    rwa [hfirst] at hcycle
  · rintro ⟨c, hreach, hcycle⟩
    exact unending_of_slipCycle hreach hcycle _

end Call

/-- The definitions occur equally often, and their comparison comes back to one of its calls by
way of calls none of which is made from two links. -/
def OutOfStep (types : TypeMap) (a b : TypeDefinition) : Prop :=
  a.cardinality = b.cardinality ∧
    ∃ c, Relation.ReflTransGen (Call.Calls types) (.start a b) c ∧
      Relation.TransGen (Call.Slips types) c c

theorem compare_eq_unending_iff (types : TypeMap) (a b : TypeDefinition) :
    compare types a b = .unending ↔ OutOfStep types a b := by
  rw [compare, guarded_eq_unending, OutOfStep, ← Call.run_start_eq_unending_iff]
  rfl

def linkToChain : TypeDefinition := .link (.plain "x") "A"

def shortChain : TypeDefinition := .inline (.plain "x") .void (some [("x", linkToChain)]) false

/-- `A: void { x: void { x: A } }`. Every unfolding of the three is the same chain of keys. -/
def longChain : TypeDefinition := .inline (.plain "A") .void (some [("x", shortChain)]) false

theorem outOfStep_chains {types : TypeMap} (h : Dictionary.get? types "A" = some longChain) :
    OutOfStep types linkToChain shortChain := by
  have hunlink : linkToChain.unlink? types types.length = some longChain :=
    (unlink?_eq_some_iff ..).mpr (.link h (.inline ..))
  have hcall : ∀ a b a' b', plan types .empty a b = ⟨.empty, [(a', b')], true⟩ →
      ¬(a.isLink = true ∧ b.isLink = true) →
      Call.Slips types ⟨.empty, a, b⟩ ⟨.empty, a', b'⟩ := by
    intro a b a' b' hp hlinks
    refine ⟨⟨[], [], 0, ?_, ?_⟩, hlinks⟩
    · simp [Call.plan, hp]
    · simp [Call.plan, hp, runPairs]
  have hfirst := hcall linkToChain shortChain longChain shortChain
    (by simp only [linkToChain, shortChain, plan] at hunlink ⊢; rw [hunlink])
    (by decide)
  have hsecond := hcall longChain shortChain shortChain linkToChain rfl (by decide)
  have hthird := hcall shortChain linkToChain shortChain longChain
    (by simp only [linkToChain, shortChain, plan] at hunlink ⊢; rw [hunlink])
    (by decide)
  have hfourth := hcall shortChain longChain linkToChain shortChain rfl (by decide)
  exact ⟨rfl, _, .refl, (((Relation.TransGen.single hfirst).tail hsecond).tail hthird).tail hfourth⟩

/-- The bound on the depth takes no answer away. -/
theorem compare_eq_of_finished (types : TypeMap) {depth : Nat} {a b : TypeDefinition}
    (h : guarded (compareBody types depth) .empty a b ≠ .unending) :
    compare types a b = guarded (compareBody types depth) .empty a b := by
  by_cases hc : a.cardinality = b.cardinality
  · simp only [compare, guarded, hc, if_true] at h ⊢
    have hfinished : compareBody types (comparisonDepth types a b) .empty a b ≠ .unending := by
      intro hu
      obtain ⟨c, hreach, hcycle⟩ := (Call.run_start_eq_unending_iff types a b).mp hu
      exact h (Call.unending_of_slipCycle hreach hcycle depth)
    have hmax := compareBody_extendedBy types
      (Nat.le_max_left (comparisonDepth types a b) depth) _ _ _ hfinished
    rw [← hmax, compareBody_extendedBy types (Nat.le_max_right _ depth) _ _ _ h]
  · simp [compare, guarded, hc]

theorem exists_depth_iff (types : TypeMap) (a b : TypeDefinition) :
    (∃ depth, guarded (compareBody types depth) .empty a b ≠ .unending) ↔
      ¬OutOfStep types a b := by
  rw [← compare_eq_unending_iff]
  constructor
  · rintro ⟨depth, h⟩
    rwa [compare_eq_of_finished types h]
  · intro h
    exact ⟨_, h⟩

end TypeDefinition

end ServiceCheck
