import ServiceCheck.Proofs.FaultFlow.Forest

set_option autoImplicit false

namespace ServiceCheck

namespace ScopeForest

inductive Under (f : ScopeForest) (top : Nat) : Nat → Prop where
  | self : Under f top top
  | child {parent a : Nat} : f.parent? a = some parent → Under f top parent → Under f top a

theorem Under.le {f : ScopeForest} (hf : f.Sound) {top a : Nat} (h : Under f top a) : top ≤ a := by
  induction h with
  | self => exact Nat.le_refl _
  | child hparent _ ih =>
    have hlt := hf.parent_lt hparent
    omega

theorem Under.of_mem_children {f : ScopeForest} (hf : f.Sound) {top a child : Nat}
    (h : Under f top a) (hchild : child ∈ f.children a) : Under f top child :=
  .child (hf.mem_children.mp hchild) h

theorem Under.of_child {f : ScopeForest} {top child a : Nat} (h : Under f child a)
    (hchild : f.parent? child = some top) : Under f top a := by
  induction h with
  | self => exact .child hchild .self
  | child hparent _ ih => exact .child hparent ih

theorem Under.exists_child {f : ScopeForest} (hf : f.Sound) {top a : Nat} (h : Under f top a)
    (hne : a ≠ top) : ∃ child ∈ f.children top, Under f child a := by
  induction h with
  | self => exact absurd rfl hne
  | @child parent a hparent hunder ih =>
    by_cases heq : parent = top
    · subst heq
      exact ⟨a, hf.mem_children.mpr hparent, .self⟩
    · obtain ⟨child, hchild, hu⟩ := ih heq
      exact ⟨child, hchild, .child hparent hu⟩

theorem not_under_sibling {f : ScopeForest} (hf : f.Sound) {a b c : Nat} (hne : a ≠ b)
    (hparent : f.parent? a = f.parent? b) (ha : Under f a c) : ¬Under f b c := by
  induction ha with
  | self =>
    intro hb
    cases hb with
    | self => exact hne rfl
    | child hp hb =>
      have hle := hb.le hf
      have hlt := hf.parent_lt (hparent ▸ hp)
      omega
  | child hp ha ih =>
    intro hb
    cases hb with
    | self =>
      have hle := ha.le hf
      have hlt := hf.parent_lt (hparent ▸ hp)
      omega
    | child hp' hb =>
      obtain rfl := Option.some.inj (hp.symm.trans hp')
      exact ih hb

theorem under_iff_of_sameLinks {f g : ScopeForest} (h : SameLinks f g) (top a : Nat) :
    Under g top a ↔ Under f top a := by
  constructor
  · intro hu
    induction hu with
    | self => exact .self
    | child hp _ ih => exact .child (h.parent?_eq _ ▸ hp) ih
  · intro hu
    induction hu with
    | self => exact .self
    | child hp _ ih => exact .child ((h.parent?_eq _).trans hp) ih

/-- What resolving some scopes of one parent comes to: only thrown faults change, and those only
in the trees under these scopes and in the parent. -/
structure Resolved (f : ScopeForest) (ids : List Nat) (holder : Option Nat)
    (g : ScopeForest) : Prop where
  links : SameLinks f g
  caught : ∀ a, g.caught a = f.caught a
  under : ∀ id ∈ ids, ∀ a, Under f id a → g.thrown a = f.survivors a
  parent : ∀ a, holder = some a →
    g.thrown a = (ids.map f.survivors).foldl ThrownFault.merge (f.thrown a)
  other : ∀ a, (∀ id ∈ ids, ¬Under f id a) → holder ≠ some a → g.thrown a = f.thrown a

theorem resolved_nil (f : ScopeForest) (holder : Option Nat) : Resolved f [] holder f where
  links := .refl f
  caught _ := rfl
  under _ h := by simp at h
  parent _ _ := rfl
  other _ _ _ := rfl

theorem Resolved.cons {f g h : ScopeForest} {id : Nat} {ids : List Nat} {holder : Option Nat}
    (hf : f.Sound) (hid : id ∉ ids) (hholder : ∀ a ∈ id :: ids, f.parent? a = holder)
    (hfg : Resolved f [id] holder g) (hgh : Resolved g ids holder h) :
    Resolved f (id :: ids) holder h := by
  have hg := hf.of_sameLinks hfg.links
  have hid' := hholder id List.mem_cons_self
  have hapart : ∀ other ∈ ids, ∀ a, Under f other a → ¬Under f id a := by
    intro other hother a ha
    refine not_under_sibling hf (fun heq => hid (heq ▸ hother)) ?_ ha
    rw [hid', hholder other (List.mem_cons_of_mem _ hother)]
  have houtside : ∀ top, f.parent? top = holder → ∀ a, Under f top a → holder ≠ some a := by
    intro top htop a ha heq
    have hle := ha.le hf
    have hlt := hf.parent_lt (htop.trans heq)
    omega
  -- the trees resolved later have not been touched yet
  have hlater : ∀ other ∈ ids, ∀ a, Under f other a → g.survivors a = f.survivors a := by
    intro other hother a ha
    refine survivors_congr hf hg (Under f other) (fun b hb child hchild =>
      hb.of_mem_children hf hchild) (fun b hb => ?_) (fun b _ => hfg.caught b)
      (fun b _ => hfg.links.children_eq b) ha
    refine hfg.other b (fun top htop => ?_)
      (houtside other (hholder other (List.mem_cons_of_mem _ hother)) b hb)
    obtain rfl := List.mem_singleton.mp htop
    exact hapart other hother b hb
  refine ⟨hfg.links.trans hgh.links, fun a => (hgh.caught a).trans (hfg.caught a), ?_, ?_, ?_⟩
  · intro top htop a ha
    rcases List.mem_cons.mp htop with heq | hmem
    · subst heq
      have hkept : h.thrown a = g.thrown a := by
        refine hgh.other a (fun other hother hu => ?_) (houtside top hid' a ha)
        exact hapart other hother a ((under_iff_of_sameLinks hfg.links other a).mp hu) ha
      rw [hkept, hfg.under top (List.mem_singleton_self _) a ha]
    · rw [hgh.under top hmem a ((under_iff_of_sameLinks hfg.links top a).mpr ha),
        hlater top hmem a ha]
  · intro a ha
    have hmap : ids.map g.survivors = ids.map f.survivors :=
      List.map_congr_left fun other hother => hlater other hother other .self
    rw [hgh.parent a ha, hfg.parent a ha, hmap]
    rfl
  · intro a hout hne
    have hout' : ∀ other ∈ ids, ¬Under g other a := fun other hother hu =>
      hout other (List.mem_cons_of_mem _ hother)
        ((under_iff_of_sameLinks hfg.links other a).mp hu)
    rw [hgh.other a hout' hne]
    refine hfg.other a (fun top htop => ?_) hne
    exact hout top (List.mem_singleton.mp htop ▸ List.mem_cons_self)

theorem resolved_foldl {step : ScopeForest → Nat → ScopeForest} {f : ScopeForest}
    {ids : List Nat} {holder : Option Nat} (hf : f.Sound) (hnodup : ids.Nodup)
    (hholder : ∀ id ∈ ids, f.parent? id = holder)
    (hstep : ∀ g, SameLinks f g → ∀ id ∈ ids, Resolved g [id] holder (step g id)) :
    Resolved f ids holder (ids.foldl step f) := by
  induction ids generalizing f with
  | nil => exact resolved_nil f holder
  | cons id rest ih =>
    have hfirst := hstep f (.refl f) id List.mem_cons_self
    obtain ⟨hid, hrest⟩ := List.nodup_cons.mp hnodup
    refine hfirst.cons hf hid hholder (ih (hf.of_sameLinks hfirst.links) hrest ?_ ?_)
    · intro other hother
      rw [hfirst.links.parent?_eq, hholder other (List.mem_cons_of_mem _ hother)]
    · intro g hg other hother
      exact hstep g (hfirst.links.trans hg) other (List.mem_cons_of_mem _ hother)

theorem thrown_settle (f : ScopeForest) (id a : Nat) :
    (f.modify id .settle).thrown a =
      if a = id then ThrownFault.settled (f.thrown id) (f.caught id) [] else f.thrown a := by
  rw [thrown, getElem?_modify]
  by_cases ha : id = a
  · subst ha
    cases hs : f.scopes[id]? <;>
      simp [hs, thrown, caught, Scope.settle, ThrownFault.settled, Scope.catches,
        CaughtFault.anyCatches]
  · simp [ha, Ne.symm ha, thrown]

theorem handUp_of_parent? {f : ScopeForest} {id parent : Nat} (h : f.parent? id = some parent) :
    f.handUp id = (f.thrown id).foldl (fun f fault => f.throw parent fault) f := by
  simp only [handUp, h]

theorem handUp_of_root {f : ScopeForest} {id : Nat} (h : f.parent? id = none) :
    f.handUp id = f := by
  simp only [handUp, h]

theorem sameLinks_handUp (f : ScopeForest) (id : Nat) : SameLinks f (f.handUp id) := by
  cases h : f.parent? id with
  | none => rw [handUp_of_root h]; exact .refl f
  | some parent => rw [handUp_of_parent? h]; exact sameLinks_throwAll _ _ f

theorem caught_handUp (f : ScopeForest) (id a : Nat) : (f.handUp id).caught a = f.caught a := by
  cases h : f.parent? id with
  | none => rw [handUp_of_root h]
  | some parent => rw [handUp_of_parent? h]; exact caught_throwAll _ _ f a

theorem thrown_handUp_parent {f : ScopeForest} (hf : f.Sound) {id parent : Nat}
    (h : f.parent? id = some parent) :
    (f.handUp id).thrown parent = ThrownFault.merge (f.thrown parent) (f.thrown id) := by
  have hlt := hf.parent_lt h
  have hsize := lt_size_of_parent? h
  rw [handUp_of_parent? h]
  exact thrown_throwAll_self _ _ (by omega)

theorem thrown_handUp_other {f : ScopeForest} {id a : Nat} (h : f.parent? id ≠ some a) :
    (f.handUp id).thrown a = f.thrown a := by
  cases hp : f.parent? id with
  | none => rw [handUp_of_root hp]
  | some parent =>
    rw [handUp_of_parent? hp]
    refine thrown_throwAll_other _ _ f fun heq => h ?_
    rw [hp, heq]

theorem Resolved.finish {f g : ScopeForest} (hf : f.Sound) {id : Nat}
    (hfg : Resolved f (f.children id) (some id) g) :
    Resolved f [id] (f.parent? id) ((g.modify id .settle).handUp id) := by
  have hsettle : SameLinks g (g.modify id .settle) :=
    sameLinks_modify g id _ (fun _ => rfl) fun _ => rfl
  have hlinks := hfg.links.trans hsettle
  have hown : (g.modify id .settle).thrown id = f.survivors id := by
    rw [thrown_settle, if_pos rfl, hfg.parent id rfl, hfg.caught, survivors_eq hf]
    rfl
  have hothers : ∀ a, a ≠ id → (g.modify id .settle).thrown a = g.thrown a := fun a ha => by
    rw [thrown_settle, if_neg ha]
  have hparent := hlinks.parent?_eq id
  have hsound := hf.of_sameLinks hlinks
  refine ⟨hlinks.trans (sameLinks_handUp _ id), fun a => ?_, ?_, ?_, ?_⟩
  · rw [caught_handUp, caught_modify g id a .settle fun _ => rfl, hfg.caught]
  · intro top htop a ha
    obtain rfl := List.mem_singleton.mp htop
    have hnotParent : (g.modify top .settle).parent? top ≠ some a := by
      intro heq
      have hle := ha.le hf
      have hlt := hsound.parent_lt heq
      omega
    rw [thrown_handUp_other hnotParent]
    -- the top scope itself, or a scope in the tree under one of its children
    by_cases heq : a = top
    · rw [heq, hown]
    · obtain ⟨child, hchild, hu⟩ := ha.exists_child hf heq
      rw [hothers a heq, hfg.under child hchild a hu]
  · intro a ha
    have hlt := hf.parent_lt ha
    have hne : a ≠ id := Nat.ne_of_lt hlt
    rw [thrown_handUp_parent hsound (hparent.trans ha), hown, hothers a hne,
      hfg.other a (fun child hchild hu => ?_) (fun heq => hne (Option.some.inj heq).symm)]
    · rfl
    · have hle := hu.le hf
      have hlt' := hf.lt_of_mem_children hchild
      omega
  · intro a hout hne
    have haid : a ≠ id := fun heq => hout id (List.mem_singleton_self _) (heq ▸ .self)
    rw [thrown_handUp_other (by rwa [hparent]), hothers a haid]
    refine hfg.other a (fun child hchild hu => ?_) (fun heq => haid (Option.some.inj heq).symm)
    exact hout id (List.mem_singleton_self _) (hu.of_child (hf.mem_children.mp hchild))

theorem resolved_resolveUpTo {f : ScopeForest} (hf : f.Sound) {depth id : Nat}
    (h : f.size ≤ id + depth) : Resolved f [id] (f.parent? id) (resolveUpTo depth f id) := by
  induction depth generalizing f id with
  | zero =>
    have hnone : f.parent? id = none := parent?_of_size_le h
    have halone : ∀ a, Under f id a → f.size ≤ a := fun a ha => Nat.le_trans h (ha.le hf)
    refine ⟨.refl f, fun _ => rfl, ?_, ?_, fun _ _ _ => rfl⟩
    · intro top htop a ha
      obtain rfl := List.mem_singleton.mp htop
      have hle := halone a ha
      rw [resolveUpTo, survivors_eq hf, thrown_of_size_le hle, children_of_size_le hle]
      rfl
    · intro a ha
      rw [hnone] at ha
      cases ha
  | succ depth ih =>
    refine Resolved.finish hf (resolved_foldl hf (hf.nodup id) ?_ ?_)
    · intro child hchild
      exact hf.mem_children.mp hchild
    · intro g hg child hchild
      have hlt := hf.lt_of_mem_children hchild
      have hsize := hg.size_eq
      have hparent := hf.mem_children.mp hchild
      have hstep := ih (hf.of_sameLinks hg) (show g.size ≤ child + depth by omega)
      rwa [hg.parent?_eq, hparent] at hstep

theorem resolved_resolve {f : ScopeForest} (hf : f.Sound) (id : Nat) :
    Resolved f [id] (f.parent? id) (f.resolve id) := resolved_resolveUpTo hf (by omega)

/-- Resolving the roots one after another leaves in each of them what it lets through. -/
theorem thrown_resolve_roots {f : ScopeForest} (hf : f.Sound) {roots : List Nat}
    (hnodup : roots.Nodup) (hroots : ∀ root ∈ roots, f.parent? root = none) {root : Nat}
    (hroot : root ∈ roots) :
    (roots.foldl (fun g root => g.resolve root) f).thrown root = f.survivors root := by
  refine (resolved_foldl hf hnodup hroots ?_).under root hroot root .self
  intro g hg id hid
  have hstep := resolved_resolve (hf.of_sameLinks hg) id
  rwa [hg.parent?_eq, hroots id hid] at hstep

end ScopeForest

end ServiceCheck
