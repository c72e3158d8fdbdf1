import ServiceCheck.Proofs.Types.SameUnfolding

/-!
To be alike is reflexive, symmetric and transitive, also where links dangle or lead back to
themselves. Of two alike definitions either both have an end to their links or neither has, and at
the ends they are alike again. This is what lets chains of links of different lengths be put
together.
-/

set_option autoImplicit false

namespace ServiceCheck

namespace TypeDefinition

variable {types : TypeMap} {a a' b b' c t : TypeDefinition}

theorem Matches.mono {R S : TypeDefinition → TypeDefinition → Prop} (hRS : ∀ a b, R a b → S a b)
    (h : Matches types R a b) : Matches types S a b :=
  ⟨h.1, fun p hp => hRS _ _ (h.2 p hp)⟩

theorem alike_of_matches (h : Matches types (Alike types) a b) : Alike types a b := by
  refine ⟨Matches types (Alike types), fun c d hcd => hcd.mono fun x y hxy => ?_, h⟩
  exact matching_alike types x y hxy

theorem Alike.of_resolved_left (hb : b.isLink = false) (ha : Resolves types a a')
    (h : Alike types a' b) : Alike types a b := by
  cases a with
  | link hd x => exact alike_of_matches ((matches_link_left hd x hb).mpr ⟨a', ha, h⟩)
  | inline => exact ha.eq_of_not_isLink rfl ▸ h
  | choice => exact ha.eq_of_not_isLink rfl ▸ h

theorem Alike.of_resolved_right (ha : a.isLink = false) (hb : Resolves types b b')
    (h : Alike types a b') : Alike types a b := by
  cases b with
  | link hd y => exact alike_of_matches ((matches_link_right ha hd y).mpr ⟨b', hb, h⟩)
  | inline => exact hb.eq_of_not_isLink rfl ▸ h
  | choice => exact hb.eq_of_not_isLink rfl ▸ h

/-- What is alike to a definition whose links end has links that end. -/
theorem Alike.exists_resolved_left (htypes : types.DistinctKeys) (hb : Resolves types b b')
    (h : Alike types a b) : ∃ a', Resolves types a a' ∧ Alike types a' b' := by
  have hend : ∀ {a b}, b.isLink = false → Alike types a b →
      ∃ a', Resolves types a a' ∧ Alike types a' b := by
    intro a b hb h
    cases a with
    | link hd x => exact (matches_link_left hd x hb).mp (matching_alike types _ _ h)
    | inline => exact ⟨_, .inline .., h⟩
    | choice => exact ⟨_, .choice .., h⟩
  induction hb generalizing a with
  | inline => exact hend rfl h
  | choice => exact hend rfl h
  | @link hd y t b' found rest ih =>
    cases a with
    | link hd' x =>
      rcases (matches_links hd' hd x y).mp (matching_alike types _ _ h) with
        rfl | ⟨u, u', hu, hu', hlike⟩
      · have hkeys := (htypes _ (Dictionary.mem_of_get? found)).resolves htypes rest
        exact ⟨b', .link found rest, .refl hkeys⟩
      · cases found.symm.trans hu'
        obtain ⟨a', ha', hlike'⟩ := ih hlike
        exact ⟨a', .link hu ha', hlike'⟩
    | inline => exact ⟨_, .inline .., h.resolved_right rfl (.link found rest)⟩
    | choice => exact ⟨_, .choice .., h.resolved_right rfl (.link found rest)⟩

-- Symmetry would give this from the lemma above, but only where both sides have distinct keys, which
-- is not known of a definition in between.
theorem Alike.exists_resolved_right (htypes : types.DistinctKeys) (ha : Resolves types a a')
    (h : Alike types a b) : ∃ b', Resolves types b b' ∧ Alike types a' b' := by
  have hend : ∀ {a b}, a.isLink = false → Alike types a b →
      ∃ b', Resolves types b b' ∧ Alike types a b' := by
    intro a b ha h
    cases b with
    | link hd y => exact (matches_link_right ha hd y).mp (matching_alike types _ _ h)
    | inline => exact ⟨_, .inline .., h⟩
    | choice => exact ⟨_, .choice .., h⟩
  induction ha generalizing b with
  | inline => exact hend rfl h
  | choice => exact hend rfl h
  | @link hd x t a' found rest ih =>
    cases b with
    | link hd' y =>
      rcases (matches_links hd hd' x y).mp (matching_alike types _ _ h) with
        rfl | ⟨u, u', hu, hu', hlike⟩
      · have hkeys := (htypes _ (Dictionary.mem_of_get? found)).resolves htypes rest
        exact ⟨a', .link found rest, .refl hkeys⟩
      · cases found.symm.trans hu
        obtain ⟨b', hb', hlike'⟩ := ih hlike
        exact ⟨b', .link hu' hb', hlike'⟩
    | inline => exact ⟨_, .inline .., h.resolved_left rfl (.link found rest)⟩
    | choice => exact ⟨_, .choice .., h.resolved_left rfl (.link found rest)⟩

/-- As many members on both sides, and each with a partner: so each partner has one in turn. -/
theorem exists_partner_of_length_eq {R : TypeDefinition → TypeDefinition → Prop}
    {members others : Dictionary TypeDefinition} (hmembers : (Dictionary.keys members).Nodup)
    (hothers : (Dictionary.keys others).Nodup) (hlength : members.length = others.length)
    (h : ∀ e ∈ members, ∃ b, Dictionary.get? others e.1 = some b ∧
      e.2.cardinality = b.cardinality ∧ R e.2 b) :
    ∀ e ∈ others, ∃ a, Dictionary.get? members e.1 = some a ∧
      a.cardinality = e.2.cardinality ∧ R a e.2 := by
  intro e he
  have hkey := (mem_keys_iff_of_subset hmembers (keys_subset_of_members h) hlength e.1).mpr
    (List.mem_map_of_mem he)
  obtain ⟨a, ha⟩ := Option.isSome_iff_exists.mp ((Dictionary.get?_isSome_iff members e.1).mpr hkey)
  obtain ⟨b, hb, hc, hab⟩ := h _ (Dictionary.mem_of_get? ha)
  cases hb.symm.trans (Dictionary.get?_of_mem hothers he)
  exact ⟨a, ha, hc, hab⟩

theorem matching_flip (htypes : types.DistinctKeys) :
    Matching types fun b a => Alike types a b ∧ a.DistinctKeys ∧ b.DistinctKeys := by
  rintro b a ⟨h, ha, hb⟩
  have hm := matching_alike types _ _ h
  cases b with
  | link hd' y =>
    have hleft : a.isLink = false → Matches types
        (fun b a => Alike types a b ∧ a.DistinctKeys ∧ b.DistinctKeys) (.link hd' y) a := by
      intro hna
      obtain ⟨t, ht, hat⟩ := (matches_link_right hna hd' y).mp hm
      exact (matches_link_left hd' y hna).mpr ⟨t, ht, hat, ha, hb.resolves htypes ht⟩
    cases a with
    | link hd x =>
      rcases (matches_links hd hd' x y).mp hm with rfl | ⟨t, t', ht, ht', hlike⟩
      · exact (matches_links hd' hd x x).mpr (.inl rfl)
      · exact (matches_links hd' hd y x).mpr (.inr ⟨t', t, ht', ht, hlike,
          htypes _ (Dictionary.mem_of_get? ht), htypes _ (Dictionary.mem_of_get? ht')⟩)
    | inline => exact hleft rfl
    | choice => exact hleft rfl
  | inline hd' n' s' u' =>
    cases a with
    | link hd x =>
      obtain ⟨t, ht, hat⟩ := (matches_link_left hd x rfl).mp hm
      exact (matches_link_right rfl hd x).mpr ⟨t, ht, hat, ha.resolves htypes ht, hb⟩
    | inline hd n s u =>
      obtain ⟨⟨hn, hu, hlength⟩, hall⟩ := (matches_inlines hd hd' n n' s s' u u').mp hm
      have hmembers := ha _ (mem_nodes_self _)
      have hothers := hb _ (mem_nodes_self _)
      refine (matches_inlines hd' hd n' n s' s u' u).mpr
        ⟨⟨hn.symm, hu.symm, hlength.symm⟩, fun e he => ?_⟩
      obtain ⟨t, ht, hc, hlike⟩ :=
        exists_partner_of_length_eq hmembers hothers hlength hall e he
      have hbelow : below? (.member e.1) (.inline hd n s u) = some t := ht
      have hbelow' : below? (.member e.1) (.inline hd' n' s' u') = some e.2 :=
        Dictionary.get?_of_mem hothers he
      exact ⟨t, ht, hc.symm, hlike, ha.below hbelow, hb.below hbelow'⟩
    | choice hd l r => exact absurd hm (not_matches_choice_inline hd hd' n' s' u' l r)
  | choice hd' l' r' =>
    cases a with
    | link hd x =>
      obtain ⟨t, ht, hat⟩ := (matches_link_left hd x rfl).mp hm
      exact (matches_link_right rfl hd x).mpr ⟨t, ht, hat, ha.resolves htypes ht, hb⟩
    | inline hd n s u => exact absurd hm (not_matches_inline_choice hd hd' n s u l' r')
    | choice hd l r =>
      obtain ⟨⟨hcl, hl⟩, hcr, hr⟩ := (matches_choices hd hd' l r l' r').mp hm
      have hla : below? .left (.choice hd l r) = some l := rfl
      have hra : below? .right (.choice hd l r) = some r := rfl
      have hlb : below? .left (.choice hd' l' r') = some l' := rfl
      have hrb : below? .right (.choice hd' l' r') = some r' := rfl
      exact (matches_choices hd' hd l' r' l r).mpr
        ⟨⟨hcl.symm, hl, ha.below hla, hb.below hlb⟩, hcr.symm, hr, ha.below hra, hb.below hrb⟩

theorem Alike.symm (htypes : types.DistinctKeys) (ha : a.DistinctKeys) (hb : b.DistinctKeys)
    (h : Alike types a b) : Alike types b a :=
  ⟨_, matching_flip htypes, h, ha, hb⟩

def AlikeVia (types : TypeMap) (a c : TypeDefinition) : Prop :=
  ∃ b, Alike types a b ∧ Alike types b c

/-- Where neither side is a link, the definition in between need not be one. -/
theorem AlikeVia.exists_resolved (htypes : types.DistinctKeys) (ha : a.isLink = false)
    (hc : c.isLink = false) (h : AlikeVia types a c) :
    ∃ b, b.isLink = false ∧ Alike types a b ∧ Alike types b c := by
  obtain ⟨b, hab, hbc⟩ := h
  obtain ⟨b', hb, hlike⟩ := hab.exists_resolved_right htypes (.refl ha)
  exact ⟨b', hb.not_isLink, hlike, hbc.resolved_left hc hb⟩

theorem AlikeVia.matches_ends (htypes : types.DistinctKeys) (ha : a.isLink = false)
    (hc : c.isLink = false) (h : AlikeVia types a c) : Matches types (AlikeVia types) a c := by
  obtain ⟨b, hb, hab, hbc⟩ := h.exists_resolved htypes ha hc
  have hm := matching_alike types _ _ hab
  have hm' := matching_alike types _ _ hbc
  cases b with
  | link => cases hb
  | inline hd n s u =>
    cases a with
    | link => cases ha
    | choice hd' l r => exact absurd hm (not_matches_choice_inline hd' hd n s u l r)
    | inline hd' n' s' u' =>
      cases c with
      | link => cases hc
      | choice hd'' l r => exact absurd hm' (not_matches_inline_choice hd hd'' n s u l r)
      | inline hd'' n'' s'' u'' =>
        obtain ⟨⟨hn, hu, hlength⟩, hall⟩ := (matches_inlines hd' hd n' n s' s u' u).mp hm
        obtain ⟨⟨hn', hu', hlength'⟩, hall'⟩ := (matches_inlines hd hd'' n n'' s s'' u u'').mp hm'
        refine (matches_inlines hd' hd'' n' n'' s' s'' u' u'').mpr
          ⟨⟨hn.trans hn', hu.trans hu', hlength.trans hlength'⟩, fun e he => ?_⟩
        obtain ⟨t, ht, hct, hlike⟩ := hall e he
        obtain ⟨v, hv, hcv, hlike'⟩ := hall' (e.1, t) (Dictionary.mem_of_get? ht)
        exact ⟨v, hv, hct.trans hcv, t, hlike, hlike'⟩
  | choice hd l r =>
    cases a with
    | link => cases ha
    | inline hd' n s u => exact absurd hm (not_matches_inline_choice hd' hd n s u l r)
    | choice hd' l' r' =>
      cases c with
      | link => cases hc
      | inline hd'' n s u => exact absurd hm' (not_matches_choice_inline hd hd'' n s u l r)
      | choice hd'' l'' r'' =>
        obtain ⟨⟨hcl, hl⟩, hcr, hr⟩ := (matches_choices hd' hd l' r' l r).mp hm
        obtain ⟨⟨hcl', hl'⟩, hcr', hr'⟩ := (matches_choices hd hd'' l r l'' r'').mp hm'
        exact (matches_choices hd' hd'' l' r' l'' r'').mpr
          ⟨⟨hcl.trans hcl', l, hl, hl'⟩, hcr.trans hcr', r, hr, hr'⟩

/-- Two links with a definition in between: the names agree, or what they stand for has a
definition in between again. -/
theorem AlikeVia.matches_links (htypes : types.DistinctKeys) {h h' : TypeHead} {x z : String}
    (hxz : AlikeVia types (.link h x) (.link h' z)) :
    Matches types (AlikeVia types) (.link h x) (.link h' z) := by
  have hrefl : ∀ {y t}, Dictionary.get? types y = some t → Alike types t t := fun found =>
    .refl (htypes _ (Dictionary.mem_of_get? found))
  obtain ⟨b, hab, hbc⟩ := hxz
  have hm := matching_alike types _ _ hab
  have hm' := matching_alike types _ _ hbc
  rw [TypeDefinition.matches_links]
  by_cases hb : b.isLink = true
  · cases b with
    | link hd y =>
      rcases (TypeDefinition.matches_links h hd x y).mp hm with rfl | ⟨t, t', ht, ht', hlike⟩
      · rcases (TypeDefinition.matches_links hd h' x z).mp hm' with rfl | ⟨u, u', hu, hu', hlike'⟩
        · exact .inl rfl
        · exact .inr ⟨u, u', hu, hu', u, hrefl hu, hlike'⟩
      · rcases (TypeDefinition.matches_links hd h' y z).mp hm' with rfl | ⟨u, u', hu, hu', hlike'⟩
        · exact .inr ⟨t, t', ht, ht', t', hlike, hrefl ht'⟩
        · cases ht'.symm.trans hu
          exact .inr ⟨t, u', ht, hu', t', hlike, hlike'⟩
    | inline => cases hb
    | choice => cases hb
  · rw [Bool.not_eq_true] at hb
    obtain ⟨t, ht, hlike⟩ := (matches_link_left h x hb).mp hm
    obtain ⟨u, hu, hlike'⟩ := (matches_link_right hb h' z).mp hm'
    cases ht with
    | link found rest =>
      cases hu with
      | link found' rest' =>
        exact .inr ⟨_, _, found, found', b, hlike.of_resolved_left hb rest,
          hlike'.of_resolved_right hb rest'⟩

theorem matching_alikeVia (htypes : types.DistinctKeys) : Matching types (AlikeVia types) := by
  intro a c h
  by_cases ha : a.isLink = true
  · cases a with
    | inline => cases ha
    | choice => cases ha
    | link hd x =>
      by_cases hc : c.isLink = true
      · cases c with
        | link hd' z => exact h.matches_links htypes
        | inline => cases hc
        | choice => cases hc
      · rw [Bool.not_eq_true] at hc
        obtain ⟨b, hab, hbc⟩ := h
        obtain ⟨b', hb, hlike⟩ := hbc.exists_resolved_left htypes (.refl hc)
        obtain ⟨t, ht, hlike'⟩ := hab.exists_resolved_left htypes hb
        exact (matches_link_left hd x hc).mpr ⟨t, ht, b', hlike', hlike⟩
  · rw [Bool.not_eq_true] at ha
    by_cases hc : c.isLink = true
    · cases c with
      | link hd z =>
        obtain ⟨b, hab, hbc⟩ := h
        obtain ⟨b', hb, hlike⟩ := hab.exists_resolved_right htypes (.refl ha)
        obtain ⟨t, ht, hlike'⟩ := hbc.exists_resolved_right htypes hb
        exact (matches_link_right ha hd z).mpr ⟨t, ht, b', hlike, hlike'⟩
      | inline => cases hc
      | choice => cases hc
    · rw [Bool.not_eq_true] at hc
      exact h.matches_ends htypes ha hc

theorem Alike.trans (htypes : types.DistinctKeys) (h : Alike types a b) (h' : Alike types b c) :
    Alike types a c :=
  ⟨_, matching_alikeVia htypes, b, h, h'⟩

end TypeDefinition

end ServiceCheck
