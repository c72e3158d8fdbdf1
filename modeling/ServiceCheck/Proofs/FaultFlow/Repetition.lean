import ServiceCheck.Proofs.FaultFlow.Survival

set_option autoImplicit false

namespace ServiceCheck

namespace ThrownFault

theorem merge_of_names_mem {faults others : List ThrownFault}
    (h : ∀ fault ∈ others, fault.name ∈ names faults) : merge faults others = faults := by
  induction others with
  | nil => rfl
  | cons fault rest ih =>
    have hpresent : faults.any (·.name = fault.name) := by
      simpa [names] using h fault List.mem_cons_self
    have hstep : merge faults (fault :: rest) = merge (add faults fault) rest := rfl
    rw [hstep, add, if_pos hpresent]
    exact ih fun other hother => h other (List.mem_cons_of_mem _ hother)

theorem merge_merge_self (faults others : List ThrownFault) :
    merge (merge faults others) others = merge faults others := by
  refine merge_of_names_mem fun fault hfault => ?_
  exact (mem_names_merge faults others fault.name).mpr (.inr (List.mem_map_of_mem hfault))

theorem foldl_merge_eq (children : List (List ThrownFault)) (own : List ThrownFault) :
    children.foldl merge own = merge own children.flatten := by
  induction children generalizing own with
  | nil => rfl
  | cons faults rest ih => rw [List.foldl_cons, ih, List.flatten_cons, merge_append]

/-- Faults of the children that come back after they were caught are caught again. -/
theorem settled_settled (own : List ThrownFault) (caught : List CaughtFault)
    (children : List (List ThrownFault)) :
    settled (settled own caught children) caught children = settled own caught children := by
  have hsettled : ∀ faults, settled faults caught children =
      merge (faults.filter (!CaughtFault.anyCatches caught ·.name))
        (children.flatten.filter (!CaughtFault.anyCatches caught ·.name)) := by
    intro faults
    rw [settled, foldl_merge_eq]
    exact filter_merge (!CaughtFault.anyCatches caught ·) faults children.flatten
  have hfree : (settled own caught children).filter (!CaughtFault.anyCatches caught ·.name) =
      settled own caught children := by
    rw [settled, List.filter_filter]
    simp only [Bool.and_self]
  rw [hsettled (settled own caught children), hfree, hsettled own, merge_merge_self]

end ThrownFault

namespace ScopeForest

/-- A forest is known by its links and by what each scope throws and catches. -/
theorem SameLinks.eq {f g : ScopeForest} (h : SameLinks f g)
    (hthrown : ∀ a, g.thrown a = f.thrown a) (hcaught : ∀ a, g.caught a = f.caught a) : g = f := by
  cases f
  cases g
  refine congrArg ScopeForest.mk (Array.ext_getElem? fun a => ?_)
  exact getElem?_congr h (hthrown a) (hcaught a)

theorem SameLinks.symm {f g : ScopeForest} (h : SameLinks f g) : SameLinks g f :=
  ⟨h.size_eq.symm, fun a => (h.parent?_eq a).symm, fun a => (h.children_eq a).symm⟩

/-- Resolving some scopes of one parent, in whatever order, has one outcome. -/
theorem Resolved.eq {f g h : ScopeForest} {ids ids' : List Nat}
    (hg : Resolved f ids none g) (hh : Resolved f ids' none h)
    (hsame : ∀ id, id ∈ ids ↔ id ∈ ids') : h = g := by
  refine (hg.links.symm.trans hh.links).eq (fun a => ?_) fun a => ?_
  · by_cases ha : ∃ id ∈ ids, Under f id a
    · obtain ⟨id, hid, hunder⟩ := ha
      rw [hg.under id hid a hunder, hh.under id ((hsame id).mp hid) a hunder]
    · have hout : ∀ id ∈ ids, ¬Under f id a := fun id hid hunder => ha ⟨id, hid, hunder⟩
      have hout' : ∀ id ∈ ids', ¬Under f id a := fun id hid => hout id ((hsame id).mpr hid)
      rw [hg.other a hout (by simp), hh.other a hout' (by simp)]
  · rw [hg.caught, hh.caught]

/-- In a resolved tree each scope lets through all that it throws. -/
theorem Resolved.survivors_eq {f g : ScopeForest} (hf : f.Sound) {id : Nat} {holder : Option Nat}
    (h : Resolved f [id] holder g) (hid : id < f.size) {a : Nat} (ha : Under f id a) :
    g.survivors a = f.survivors a := by
  refine hf.children_induction (motive := fun a => Under f id a → g.survivors a = f.survivors a)
    (fun a _ ih ha => ?_) (ha.lt_size hid) ha
  have hchildren : (f.children a).map g.survivors = (f.children a).map f.survivors :=
    List.map_congr_left fun child hchild => ih child hchild (ha.of_mem_children hf hchild)
  have hthrown := h.under id (List.mem_singleton_self _) a ha
  rw [ScopeForest.survivors_eq (hf.of_sameLinks h.links), hthrown, h.caught, h.links.children_eq,
    hchildren, ScopeForest.survivors_eq hf, ThrownFault.settled_settled]

theorem resolve_twice {f : ScopeForest} (hf : f.Sound) {id : Nat} (hid : id < f.size) :
    (f.resolve id).resolve id = f.resolve id := by
  have hfirst := resolved_resolve hf id
  have hsecond := resolved_resolve (hf.of_sameLinks hfirst.links) id
  have hkept : ∀ a, Under f id a → (f.resolve id).survivors a = f.survivors a :=
    fun a ha => hfirst.survivors_eq hf hid ha
  refine hsecond.links.eq (fun a => ?_) hsecond.caught
  by_cases ha : Under f id a
  · have ha' : Under (f.resolve id) id a := (under_iff_of_sameLinks hfirst.links id a).mpr ha
    rw [hsecond.under id (List.mem_singleton_self _) a ha', hkept a ha,
      hfirst.under id (List.mem_singleton_self _) a ha]
  · by_cases hparent : f.parent? id = some a
    · -- the parent has taken in the same faults before
      have hparent' : (f.resolve id).parent? id = some a := by
        rw [hfirst.links.parent?_eq, hparent]
      rw [hsecond.parent a hparent', hfirst.parent a hparent]
      simp only [List.map_singleton, List.foldl_cons, List.foldl_nil, hkept id .self,
        ThrownFault.merge_merge_self]
    · refine hsecond.other a (fun top htop => ?_) ?_
      · rw [List.mem_singleton.mp htop, under_iff_of_sameLinks hfirst.links]
        exact ha
      · rwa [hfirst.links.parent?_eq]

theorem resolved_roots {f : ScopeForest} (hf : f.Sound) {root other : Nat} (hne : root ≠ other)
    (hroot : f.parent? root = none) (hother : f.parent? other = none) :
    Resolved f [root, other] none ((f.resolve root).resolve other) := by
  have hfirst := resolved_resolve hf root
  have hsecond := resolved_resolve (hf.of_sameLinks hfirst.links) other
  rw [hroot] at hfirst
  rw [hfirst.links.parent?_eq, hother] at hsecond
  exact hfirst.cons hf (by simpa using hne) (by simp [hroot, hother]) hsecond

theorem resolve_comm {f : ScopeForest} (hf : f.Sound) {root other : Nat} (hne : root ≠ other)
    (hroot : f.parent? root = none) (hother : f.parent? other = none) :
    (f.resolve root).resolve other = (f.resolve other).resolve root :=
  (resolved_roots hf hne.symm hother hroot).eq (resolved_roots hf hne hroot hother)
    fun id => by simp [or_comm]

/-- In a built forest, resolving a scope leaves in every scope of its tree the faults that this one
lets through, and resolving it once more changes nothing. Two roots may be resolved in either
order. -/
theorem resolve_built_settles (edits : List ForestEdit) (h : empty.AllFit edits) :
    (∀ id < (built edits).size,
      (∀ a ∈ (built edits).subtree id,
        ((built edits).resolve id).thrown a = (built edits).survivors a) ∧
      ((built edits).resolve id).resolve id = (built edits).resolve id) ∧
    ∀ root < (built edits).size, ∀ other < (built edits).size, root ≠ other →
      (built edits).parent? root = none → (built edits).parent? other = none →
      ((built edits).resolve root).resolve other = ((built edits).resolve other).resolve root := by
  have hf : (built edits).Sound := sound_empty.edit h
  refine ⟨fun id hid => ⟨fun a ha => ?_, resolve_twice hf hid⟩, ?_⟩
  · have hunder := (mem_subtree_iff hf hid).mp ha
    exact (resolved_resolve hf id).under id (List.mem_singleton_self _) a hunder
  · intro root _ other _ hne hroot hother
    exact resolve_comm hf hne hroot hother

/-- The scope 2 catches a fault that its child throws, which a second pass brings up again. -/
theorem resolve_forkedEdits_settles :
    empty.AllFit forkedEdits ∧ 2 ∈ (built forkedEdits).children 0 ∧
      "Bad" ∈ ThrownFault.names (((built forkedEdits).resolve 2).thrown 3) ∧
      ((built forkedEdits).resolve 2).resolve 2 = (built forkedEdits).resolve 2 ∧
      ((built forkedEdits).resolve 0).resolve 1 = ((built forkedEdits).resolve 1).resolve 0 := by
  have hfit : empty.AllFit forkedEdits := by decide
  obtain ⟨hsettled, hcomm⟩ := resolve_built_settles forkedEdits hfit
  obtain ⟨hthrown, htwice⟩ := hsettled 2 (by decide)
  refine ⟨hfit, by decide, ?_, htwice,
    hcomm 0 (by decide) 1 (by decide) (by decide) (by decide) (by decide)⟩
  rw [hthrown 3 (by decide)]
  decide

end ScopeForest

end ServiceCheck
