import ServiceCheck.Proofs.Types.Matching

set_option autoImplicit false

namespace ServiceCheck

namespace TypeDefinition

variable {types : TypeMap}

theorem matching_eq : Matching types fun a b => a = b ∧ a.DistinctKeys := by
  rintro a _ ⟨rfl, ha⟩
  cases a with
  | link h x => exact (matches_links h h x x).mpr (.inl rfl)
  | inline h n s u =>
    refine (matches_inlines h h n n s s u u).mpr ⟨⟨rfl, rfl, rfl⟩, fun e he => ?_⟩
    have hfound : Dictionary.get? (s.getD []) e.1 = some e.2 :=
      Dictionary.get?_of_mem (ha _ (mem_nodes_self _)) he
    have hbelow : below? (.member e.1) (.inline h n s u) = some e.2 := hfound
    exact ⟨e.2, hfound, rfl, rfl, ha.below hbelow⟩
  | choice h l r =>
    have hl : below? .left (.choice h l r) = some l := rfl
    have hr : below? .right (.choice h l r) = some r := rfl
    exact (matches_choices h h l r l r).mpr ⟨⟨rfl, rfl, ha.below hl⟩, rfl, rfl, ha.below hr⟩

theorem Alike.refl {t : TypeDefinition} (ht : t.DistinctKeys) : Alike types t t :=
  ⟨_, matching_eq, rfl, ht⟩

theorem Alike.resolved_right {a b b' : TypeDefinition} (ha : a.isLink = false)
    (hb : Resolves types b b') (h : Alike types a b) : Alike types a b' := by
  cases b with
  | link hd y =>
    obtain ⟨t, ht, hat⟩ := (matches_link_right ha hd y).mp (matching_alike types _ _ h)
    exact hb.unique ht ▸ hat
  | inline => exact hb.eq_of_not_isLink rfl ▸ h
  | choice => exact hb.eq_of_not_isLink rfl ▸ h

theorem Alike.resolved_left {a a' b : TypeDefinition} (hb : b.isLink = false)
    (ha : Resolves types a a') (h : Alike types a b) : Alike types a' b := by
  cases a with
  | link hd x =>
    obtain ⟨t, ht, hbt⟩ := (matches_link_left hd x hb).mp (matching_alike types _ _ h)
    exact ha.unique ht ▸ hbt
  | inline => exact ha.eq_of_not_isLink rfl ▸ h
  | choice => exact ha.eq_of_not_isLink rfl ▸ h

theorem Alike.resolved (htypes : types.DistinctKeys) {a b a' b' : TypeDefinition}
    (ha : Resolves types a a') (hb : Resolves types b b') (h : Alike types a b) :
    Alike types a' b' := by
  induction ha generalizing b with
  | inline => exact h.resolved_right rfl hb
  | choice => exact h.resolved_right rfl hb
  | @link hd x t t' found rest ih =>
    cases hb with
    | inline => exact h.resolved_left rfl (.link found rest)
    | choice => exact h.resolved_left rfl (.link found rest)
    | @link hd' y w _ found' rest' =>
      rcases (matches_links hd hd' x y).mp (matching_alike types _ _ h) with
        rfl | ⟨v, v', hv, hv', hlike⟩
      · rw [found] at found'
        cases found'
        have hkeys := (htypes _ (Dictionary.mem_of_get? found)).resolves htypes rest
        exact rest.unique rest' ▸ .refl hkeys
      · rw [found] at hv
        rw [found'] at hv'
        cases hv
        cases hv'
        exact ih rest' hlike

theorem keys_subset_of_members {R : TypeDefinition → TypeDefinition → Prop}
    {members others : Dictionary TypeDefinition}
    (h : ∀ e ∈ members, ∃ b, Dictionary.get? others e.1 = some b ∧
      e.2.cardinality = b.cardinality ∧ R e.2 b) :
    Dictionary.keys members ⊆ Dictionary.keys others := by
  intro key hkey
  obtain ⟨e, he, rfl⟩ := List.mem_map.mp hkey
  obtain ⟨b, hb, _⟩ := h e he
  exact (Dictionary.get?_isSome_iff others e.1).mp (by simp [hb])

/-- As many keys, none repeated, and all of them among the others: the same keys. -/
theorem mem_keys_iff_of_subset {d e : Dictionary TypeDefinition} (hd : (Dictionary.keys d).Nodup)
    (hsub : Dictionary.keys d ⊆ Dictionary.keys e) (hlen : d.length = e.length) (key : String) :
    key ∈ Dictionary.keys d ↔ key ∈ Dictionary.keys e := by
  have hperm := (hd.subperm hsub).perm_of_length_le (by simp [Dictionary.keys, hlen])
  exact hperm.mem_iff

theorem Alike.sameShape {a b : TypeDefinition} (hna : a.isLink = false) (hnb : b.isLink = false)
    (ha : a.DistinctKeys) (h : Alike types a b) : SameShape a b := by
  have hm := matching_alike types _ _ h
  cases a with
  | link => simp [isLink] at hna
  | inline hd n s u =>
    cases b with
    | link => simp [isLink] at hnb
    | inline hd' n' s' u' =>
      obtain ⟨⟨hn, hu, hlen⟩, hall⟩ := (matches_inlines hd hd' n n' s s' u u').mp hm
      exact ⟨hn, hu, mem_keys_iff_of_subset (ha _ (mem_nodes_self _)) (keys_subset_of_members hall)
        hlen⟩
    | choice hd' l r => exact absurd hm (not_matches_inline_choice hd hd' n s u l r)
  | choice hd l r =>
    cases b with
    | link => simp [isLink] at hnb
    | inline hd' n s u => exact absurd hm (not_matches_choice_inline hd hd' n s u l r)
    | choice => trivial

theorem Alike.below {a b u v : TypeDefinition} {m : Move} (h : Alike types a b)
    (hu : below? m a = some u) (hv : below? m b = some v) :
    u.cardinality = v.cardinality ∧ Alike types u v := by
  have hm := matching_alike types _ _ h
  cases a with
  | link => cases m <;> simp [below?] at hu
  | inline hd n s un =>
    cases b with
    | link => cases m <;> simp [below?] at hv
    | inline hd' n' s' un' =>
      cases m with
      | member key =>
        have hall := ((matches_inlines hd hd' n n' s s' un un').mp hm).2
        obtain ⟨w, hw, hc, hlike⟩ := hall (key, u) (Dictionary.mem_of_get? hu)
        have heq : some w = some v := hw.symm.trans hv
        cases heq
        exact ⟨hc, hlike⟩
      | left => simp [below?] at hu
      | right => simp [below?] at hu
    | choice => cases m <;> simp [below?] at hu hv
  | choice hd l r =>
    cases b with
    | link => cases m <;> simp [below?] at hv
    | inline => cases m <;> simp [below?] at hu hv
    | choice hd' l' r' =>
      obtain ⟨hl, hr⟩ := (matches_choices hd hd' l r l' r').mp hm
      cases m with
      | member => simp [below?] at hu
      | left => cases hu; cases hv; exact hl
      | right => cases hu; cases hv; exact hr

theorem SameShape.below_isSome_iff {a b : TypeDefinition} (h : SameShape a b) (m : Move) :
    (below? m a).isSome ↔ (below? m b).isSome := by
  cases a with
  | link => cases b <;> simp [SameShape] at h
  | inline =>
    cases b with
    | link => simp [SameShape] at h
    | inline =>
      cases m with
      | member key =>
        simp only [below?, Dictionary.get?_isSome_iff]
        exact h.2.2 key
      | left => simp [below?]
      | right => simp [below?]
    | choice => simp [SameShape] at h
  | choice =>
    cases b with
    | choice => cases m <;> simp [below?]
    | link => simp [SameShape] at h
    | inline => simp [SameShape] at h

theorem nodeAt_cons_iff {t t' u : TypeDefinition} {m : Move} {ms : List Move}
    (ht : Resolves types t t') (hu : below? m t' = some u) (x : TypeDefinition) :
    NodeAt types t (m :: ms) x ↔ NodeAt types u ms x := by
  constructor
  · intro h
    cases h with
    | move resolves found rest =>
      rw [← ht.unique resolves, hu] at found
      cases found
      exact rest
  · exact .move ht hu

theorem not_nodeAt_of_below?_eq_none {t t' : TypeDefinition} {m : Move} {ms : List Move}
    (ht : Resolves types t t') (hm : below? m t' = none) :
    ¬∃ x, NodeAt types t (m :: ms) x := by
  rintro ⟨x, h⟩
  cases h with
  | move resolves found _ =>
    rw [← ht.unique resolves, hm] at found
    cases found

def LinksEnd (types : TypeMap) (t : TypeDefinition) : Prop :=
  ∀ u ∈ t.nodes, (u.unlink? types types.length).isSome

instance (t : TypeDefinition) : Decidable (LinksEnd types t) :=
  inferInstanceAs (Decidable (∀ u ∈ t.nodes, (u.unlink? types types.length).isSome))

theorem LinksEnd.resolves (htypes : ∀ e ∈ types, LinksEnd types e.2) {t t' : TypeDefinition}
    (ht : LinksEnd types t) (h : Resolves types t t') : LinksEnd types t' := by
  induction h with
  | inline => exact ht
  | choice => exact ht
  | link found _ ih => exact ih (htypes _ (Dictionary.mem_of_get? found))

theorem grounded_of_linksEnd (htypes : ∀ e ∈ types, LinksEnd types e.2) {t : TypeDefinition}
    (ht : LinksEnd types t) : Grounded types t := by
  intro moves x hx
  induction hx with
  | root t =>
    obtain ⟨t', ht'⟩ := Option.isSome_iff_exists.mp (ht t (mem_nodes_self t))
    exact ⟨t', resolves_of_unlink? ht'⟩
  | move resolves found _ ih =>
    have hend := ht.resolves htypes resolves
    exact ih fun u hu => hend u (nodes_subset_of_below? found hu)

theorem Grounded.resolves {t : TypeDefinition} (h : Grounded types t) :
    ∃ t', Resolves types t t' := h [] t (.root t)

theorem Grounded.below {t t' u : TypeDefinition} {m : Move} (h : Grounded types t)
    (ht : Resolves types t t') (hu : below? m t' = some u) : Grounded types u :=
  fun ms x hx => h (m :: ms) x (.move ht hu hx)

theorem sameUnfolding_of_alike (htypes : types.DistinctKeys) {a b : TypeDefinition}
    (ha : a.DistinctKeys) (hb : b.DistinctKeys) (hga : Grounded types a) (hgb : Grounded types b)
    (hc : a.cardinality = b.cardinality) (h : Alike types a b) : SameUnfolding types a b := by
  intro moves
  induction moves generalizing a b with
  | nil =>
    obtain ⟨a', hra⟩ := hga.resolves
    obtain ⟨b', hrb⟩ := hgb.resolves
    have hlike := h.resolved htypes hra hrb
    have hshape := hlike.sameShape hra.not_isLink hrb.not_isLink (ha.resolves htypes hra)
    exact .inr ⟨a, b, .root a, .root b, hc, a', b', hra, hrb, hshape⟩
  | cons m ms ih =>
    obtain ⟨a', hra⟩ := hga.resolves
    obtain ⟨b', hrb⟩ := hgb.resolves
    have hlike := h.resolved htypes hra hrb
    have hshape := hlike.sameShape hra.not_isLink hrb.not_isLink (ha.resolves htypes hra)
    have hiff := hshape.below_isSome_iff m
    cases hu : below? m a' with
    | none =>
      have hv : below? m b' = none := by simpa [hu] using hiff
      exact .inl ⟨not_nodeAt_of_below?_eq_none hra hu, not_nodeAt_of_below?_eq_none hrb hv⟩
    | some u =>
      obtain ⟨v, hv⟩ := Option.isSome_iff_exists.mp (hiff.mp (by simp [hu]))
      obtain ⟨hcuv, huv⟩ := hlike.below hu hv
      have hku := (ha.resolves htypes hra).below hu
      have hkv := (hb.resolves htypes hrb).below hv
      simp only [nodeAt_cons_iff hra hu, nodeAt_cons_iff hrb hv]
      exact ih hku hkv (hga.below hra hu) (hgb.below hrb hv) hcuv huv

theorem SameUnfolding.sameNode {a b : TypeDefinition} (h : SameUnfolding types a b) :
    SameNode types a b := by
  rcases h [] with ⟨hno, _⟩ | ⟨x, y, hx, hy, hnode⟩
  · exact absurd ⟨a, .root a⟩ hno
  · cases hx
    cases hy
    exact hnode

theorem SameUnfolding.below {a b a' b' u v : TypeDefinition} {m : Move}
    (h : SameUnfolding types a b) (hra : Resolves types a a') (hrb : Resolves types b b')
    (hu : below? m a' = some u) (hv : below? m b' = some v) : SameUnfolding types u v := by
  intro ms
  have hms := h (m :: ms)
  simpa only [nodeAt_cons_iff hra hu, nodeAt_cons_iff hrb hv] using hms

/-- The same unfolding but for the cardinalities written at the root. -/
def SameBody (types : TypeMap) (a b : TypeDefinition) : Prop :=
  ∃ a' b', Resolves types a a' ∧ Resolves types b b' ∧ SameShape a' b' ∧
    ∀ m u v, below? m a' = some u → below? m b' = some v → SameUnfolding types u v

theorem SameUnfolding.sameBody {a b : TypeDefinition} (h : SameUnfolding types a b) :
    SameBody types a b := by
  obtain ⟨_, a', b', hra, hrb, hshape⟩ := h.sameNode
  exact ⟨a', b', hra, hrb, hshape, fun m u v hu hv => h.below hra hrb hu hv⟩

theorem length_eq_of_mem_keys_iff {d e : Dictionary TypeDefinition}
    (hd : (Dictionary.keys d).Nodup) (he : (Dictionary.keys e).Nodup)
    (h : ∀ key, key ∈ Dictionary.keys d ↔ key ∈ Dictionary.keys e) : d.length = e.length := by
  have hperm := (List.perm_ext_iff_of_nodup hd he).mpr h
  simpa [Dictionary.keys] using hperm.length_eq

theorem matching_sameBody (htypes : types.DistinctKeys) :
    Matching types fun a b => SameBody types a b ∧ a.DistinctKeys ∧ b.DistinctKeys := by
  rintro a b ⟨⟨a', b', hra, hrb, hshape, hbelow⟩, ha, hb⟩
  cases hra with
  | @link hd x t _ found rest =>
    have hleft : ∀ c, c.isLink = false → b = c → Matches types
        (fun a b => SameBody types a b ∧ a.DistinctKeys ∧ b.DistinctKeys) (.link hd x) c := by
      rintro c hc rfl
      exact (matches_link_left hd x hc).mpr ⟨a', .link found rest,
        ⟨a', b', .refl rest.not_isLink, hrb, hshape, hbelow⟩,
        ha.resolves htypes (.link found rest), hb⟩
    cases hrb with
    | @link hd' y t' _ found' rest' =>
      exact (matches_links hd hd' x y).mpr (.inr ⟨t, t', found, found',
        ⟨a', b', rest, rest', hshape, hbelow⟩, htypes _ (Dictionary.mem_of_get? found),
        htypes _ (Dictionary.mem_of_get? found')⟩)
    | inline => exact hleft _ rfl rfl
    | choice => exact hleft _ rfl rfl
  | inline hd n s u =>
    cases hrb with
    | @link hd' y t' _ found' rest' =>
      exact (matches_link_right rfl hd' y).mpr ⟨b', .link found' rest',
        ⟨_, b', .inline .., .refl rest'.not_isLink, hshape, hbelow⟩, ha,
        hb.resolves htypes (.link found' rest')⟩
    | inline hd' n' s' u' =>
      obtain ⟨hn, hu, hkeys⟩ := hshape
      have hda := ha _ (mem_nodes_self _)
      have hdb := hb _ (mem_nodes_self _)
      have hlen := length_eq_of_mem_keys_iff hda hdb hkeys
      refine (matches_inlines hd hd' n n' s s' u u').mpr ⟨⟨hn, hu, hlen⟩, fun e he => ?_⟩
      have hfound : below? (.member e.1) (.inline hd n s u) = some e.2 :=
        Dictionary.get?_of_mem hda he
      have hmem := (hkeys e.1).mp (List.mem_map.mpr ⟨e, he, rfl⟩)
      obtain ⟨v, hv⟩ := Option.isSome_iff_exists.mp
        ((Dictionary.get?_isSome_iff (s'.getD []) e.1).mpr hmem)
      have hfound' : below? (.member e.1) (.inline hd' n' s' u') = some v := hv
      have hsame := hbelow (.member e.1) e.2 v hfound hfound'
      exact ⟨v, hv, hsame.sameNode.1, hsame.sameBody, ha.below hfound, hb.below hfound'⟩
    | choice => exact absurd hshape (by simp [SameShape])
  | choice hd l r =>
    cases hrb with
    | @link hd' y t' _ found' rest' =>
      exact (matches_link_right rfl hd' y).mpr ⟨b', .link found' rest',
        ⟨_, b', .choice .., .refl rest'.not_isLink, hshape, hbelow⟩, ha,
        hb.resolves htypes (.link found' rest')⟩
    | inline => exact absurd hshape (by simp [SameShape])
    | choice hd' l' r' =>
      have hl := hbelow .left l l' rfl rfl
      have hr := hbelow .right r r' rfl rfl
      have hla : below? .left (.choice hd l r) = some l := rfl
      have hra : below? .right (.choice hd l r) = some r := rfl
      have hlb : below? .left (.choice hd' l' r') = some l' := rfl
      have hrb : below? .right (.choice hd' l' r') = some r' := rfl
      exact (matches_choices hd hd' l r l' r').mpr
        ⟨⟨hl.sameNode.1, hl.sameBody, ha.below hla, hb.below hlb⟩,
          hr.sameNode.1, hr.sameBody, ha.below hra, hb.below hrb⟩

/-- Where all links lead somewhere, a comparison that comes to an answer says whether the two
definitions unfold to the same tree. -/
theorem answer_iff_sameUnfolding {a b : TypeDefinition} (htypes : types.DistinctKeys)
    (ha : a.DistinctKeys) (hb : b.DistinctKeys) (hga : Grounded types a) (hgb : Grounded types b)
    {answer : Bool} (h : equivalent? types a b = some answer) :
    answer = true ↔ SameUnfolding types a b := by
  rw [answer_iff_alike h]
  constructor
  · rintro ⟨hc, hlike⟩
    exact sameUnfolding_of_alike htypes ha hb hga hgb hc hlike
  · intro hsame
    exact ⟨hsame.sameNode.1, _, matching_sameBody htypes, hsame.sameBody, ha, hb⟩

def listOf (id tail : String) : TypeDefinition :=
  .inline (.plain id) .void
    (some [("next", .link ⟨.unknown, "next", ⟨0, 1⟩⟩ tail), ("value", native "value" .int)]) false

theorem sameUnfolding_lists :
    let types : TypeMap := [("List", listOf "List" "List"), ("Chain", listOf "Chain" "Chain")]
    equivalent? types (.named "List") (.named "Chain") = some true ∧
      SameUnfolding types (.named "List") (.named "Chain") := by
  intro types
  have htypes : types.DistinctKeys := by decide
  have hends : ∀ e ∈ types, LinksEnd types e.2 := by decide
  have hlist : Grounded types (.named "List") := grounded_of_linksEnd hends (by decide)
  have hchain : Grounded types (.named "Chain") := grounded_of_linksEnd hends (by decide)
  have hanswer : equivalent? types (.named "List") (.named "Chain") = some true := by
    decide +kernel
  have hiff := answer_iff_sameUnfolding htypes (by decide) (by decide) hlist hchain hanswer
  exact ⟨hanswer, hiff.mp rfl⟩

end TypeDefinition

end ServiceCheck
