import ServiceCheck.Proofs.Correlation.Soundness
import ServiceCheck.Proofs.Types.AdmittedPaths
import ServiceCheck.Proofs.Types.AlikeLaws
import ServiceCheck.Proofs.Verification.Agreement

/-!
Equivalent types admit the same paths. A derivation for the one type is followed step by step in
the other: a link on either side is taken along by what the links of the other side lead to. So an
alias of a correlation set fits every declaration of its guard type or none.
-/

set_option autoImplicit false

namespace ServiceCheck

namespace TypeDefinition

variable {types : TypeMap} {a b b' : TypeDefinition} {keys : List String}

theorem Admits.of_resolves (hb : Resolves types b b') (h : Admits types b' keys) :
    Admits types b keys := by
  induction hb with
  | inline => exact h
  | choice => exact h
  | link found _ ih => exact .link found (ih h)

/-- An in-line definition is alike to in-line ones only, the links left out. -/
theorem Alike.exists_inline (htypes : types.DistinctKeys) {h : TypeHead} {n : NativeType}
    {s : Option (List (String × TypeDefinition))} {u : Bool}
    (hlike : Alike types (.inline h n s u) b) :
    ∃ h' s', Resolves types b (.inline h' n s' u) ∧
      ∀ e ∈ s.getD [], ∃ t, Dictionary.get? (s'.getD []) e.1 = some t ∧ Alike types e.2 t := by
  obtain ⟨b', hb, hlike⟩ := hlike.exists_resolved_right htypes (.inline ..)
  have hm := matching_alike types _ _ hlike
  cases b' with
  | link => cases hb.not_isLink
  | inline h' n' s' u' =>
    obtain ⟨⟨rfl, rfl, -⟩, hall⟩ := (matches_inlines h h' n n' s s' u u').mp hm
    refine ⟨h', s', hb, fun e he => ?_⟩
    obtain ⟨t, ht, -, hlike⟩ := hall e he
    exact ⟨t, ht, hlike⟩
  | choice h' l r => exact absurd hm (not_matches_inline_choice h h' n s u l r)

theorem Alike.exists_choice (htypes : types.DistinctKeys) {h : TypeHead} {l r : TypeDefinition}
    (hlike : Alike types (.choice h l r) b) :
    ∃ h' l' r', Resolves types b (.choice h' l' r') ∧ Alike types l l' ∧ Alike types r r' := by
  obtain ⟨b', hb, hlike⟩ := hlike.exists_resolved_right htypes (.choice ..)
  have hm := matching_alike types _ _ hlike
  cases b' with
  | link => cases hb.not_isLink
  | inline h' n s u => exact absurd hm (not_matches_choice_inline h h' n s u l r)
  | choice h' l' r' =>
    obtain ⟨⟨-, hl⟩, -, hr⟩ := (matches_choices h h' l r l' r').mp hm
    exact ⟨h', l', r', hb, hl, hr⟩

theorem Admits.of_alike (htypes : types.DistinctKeys) (h : Admits types a keys)
    (hlike : Alike types a b) : Admits types b keys := by
  induction h generalizing b with
  | @link hd x t keys found rest ih =>
    have hends : b.isLink = false → Admits types b keys := by
      intro hb
      obtain ⟨t', ht', hlike'⟩ := (matches_link_left hd x hb).mp (matching_alike types _ _ hlike)
      cases ht' with
      | link found' rest' =>
        cases found.symm.trans found'
        exact ih (hlike'.of_resolved_left hb rest')
    cases b with
    | link hd' y =>
      rcases (matches_links hd hd' x y).mp (matching_alike types _ _ hlike) with
        rfl | ⟨u, u', hu, hu', hlike'⟩
      · exact .link found rest
      · cases found.symm.trans hu
        exact .link hu' (ih hlike')
    | inline => exact hends rfl
    | choice => exact hends rfl
  | left _ ih =>
    obtain ⟨h', l', r', hb, hl, -⟩ := hlike.exists_choice htypes
    exact .of_resolves hb (.left (ih hl))
  | right _ ih =>
    obtain ⟨h', l', r', hb, -, hr⟩ := hlike.exists_choice htypes
    exact .of_resolves hb (.right (ih hr))
  | ended carries =>
    obtain ⟨h', s', hb, -⟩ := hlike.exists_inline htypes
    exact .of_resolves hb (.ended carries)
  | untyped =>
    obtain ⟨h', s', hb, -⟩ := hlike.exists_inline htypes
    exact .of_resolves hb .untyped
  | @member hd n s u key keys t found _ ih =>
    obtain ⟨h', s', hb, hall⟩ := hlike.exists_inline htypes
    obtain ⟨t', ht', hlike'⟩ := hall (key, t) (Dictionary.mem_of_get? found)
    exact .of_resolves hb (.member ht' (ih hlike'))

theorem admits_eq_of_equivalent (htypes : types.DistinctKeys) (ha : a.DistinctKeys)
    (hb : b.DistinctKeys) (h : equivalent? types a b = some true) (keys : List String) :
    a.admits types keys = b.admits types keys := by
  obtain ⟨-, hlike⟩ := (answer_iff_alike h).mp rfl
  rw [Bool.eq_iff_iff]
  constructor
  · intro hadmits
    exact ((Admits.of_admits hadmits).of_alike htypes hlike).admits
  · intro hadmits
    exact ((Admits.of_admits hadmits).of_alike htypes (hlike.symm htypes ha hb)).admits

end TypeDefinition

namespace Program

variable {callerTypes : TypeMap} {config : Config} {p : Program} {v : Validated}

/-- Every declaration of a type is the one in force or was found equivalent to it. -/
theorem equivalent_of_accepted (h : p.verify callerTypes config = .accepted v)
    {t : TypeDefinition} (ht : t ∈ p.types) :
    ∃ first, Dictionary.get? (p.allTypes callerTypes) t.id = some first ∧
      (t = first ∨
        TypeDefinition.equivalent? (p.allTypes callerTypes) first t = some true) := by
  have hmem : t ∈ (Dictionary.get? callerTypes t.id).toList ++ p.types.filter (·.id = t.id) :=
    List.mem_append_right _ (List.mem_filter.mpr ⟨ht, by simp⟩)
  have hfound : (p.types.find? (·.id = t.id)).isSome := List.find?_isSome.mpr ⟨t, ht, by simp⟩
  obtain ⟨first, hfirst⟩ : ∃ first, Dictionary.get? (p.allTypes callerTypes) t.id = some first :=
    Option.isSome_iff_exists.mp (by rw [get?_allTypes, Option.isSome_or, hfound, Bool.or_true])
  refine ⟨first, hfirst, ?_⟩
  rw [namedTypes_eq, hfirst] at hmem
  rcases List.mem_append.mp hmem with hmem | hmem
  · exact .inl (List.mem_singleton.mp hmem)
  · have hlater := (List.mem_filter.mp hmem).1
    have hcompared : (t, first, first.compare _ t) ∈ p.typeComparisons callerTypes :=
      List.mem_filterMap.mpr ⟨t, hlater, by rw [hfirst, Option.map_some]⟩
    exact .inr (Comparing.answer?_eq_true.mpr (same_of_typeComparisons h hcompared))

/-- Types found equivalent admit the same paths, and so the aliases of an accepted program fit
every declaration of their guard types. -/
theorem equivalent_types_share_paths :
    (∀ (types : TypeMap) (a b : TypeDefinition), types.DistinctKeys → a.DistinctKeys →
      b.DistinctKeys → TypeDefinition.equivalent? types a b = some true →
        ∀ keys, a.admits types keys = b.admits types keys) ∧
      ∀ (callerTypes : TypeMap) (config : Config) (p : Program) (v : Validated),
        p.verify callerTypes config = .accepted v → p.DistinctKeys → callerTypes.DistinctKeys →
          ∀ set ∈ p.correlationSets, ∀ w ∈ set.members, ∀ a ∈ w.aliases,
            ∃ keys, a.path.keys? = some keys ∧
              ∀ t ∈ p.types, t.id = a.guardType →
                t.admits (p.allTypes callerTypes) keys = true := by
  refine ⟨fun types a b htypes ha hb h =>
    TypeDefinition.admits_eq_of_equivalent htypes ha hb h, ?_⟩
  intro callerTypes config p v h hkeys hcaller set hset w hw a ha
  have hstatic := ((plain_of_accepted h hset).aliases w hw a ha).2
  obtain ⟨keys, hpath⟩ := VariablePath.exists_keys hstatic
  have hnone := CorrelationSet.aliasProblems_of_bindAll
    (correlation_problems_of_accepted h) hset hw ha
  obtain ⟨guard, hguard, hadmits⟩ := CorrelationSet.admits_of_aliasProblems hnone hpath
  refine ⟨keys, hpath, fun t ht hid => ?_⟩
  obtain ⟨first, hfirst, hsame⟩ := equivalent_of_accepted h ht
  rw [hid] at hfirst
  cases hguard.symm.trans hfirst
  rcases hsame with rfl | hequivalent
  · exact hadmits
  · have htypes := distinctKeys_allTypes hkeys hcaller
    rw [← TypeDefinition.admits_eq_of_equivalent htypes
      (htypes _ (Dictionary.mem_of_get? hguard)) (distinctKeys_of_mem_types hkeys ht) hequivalent]
    exact hadmits

def loginInline : TypeDefinition :=
  (TypeDefinition.native "Login" .void).addSubType (.native "user" .string)

def loginByName : TypeDefinition :=
  (TypeDefinition.native "Login" .void).addSubType (.link (.plain "user") "Name")

def redeclaredLogin : Program :=
  .ofDeclarations
    [.type (.native "Name" .string), .type loginInline, .type loginByName,
      .inputPort { InputPort.empty "Front" with operations := [.oneWay "login" "Login"] },
      .correlationSet (.ofMembers
        [(CorrelationVariable.ofPath (.ofKeys ["user"])).addAlias "Login" (.ofKeys ["user"])])]

theorem equivalent_types_share_paths_redeclaredLogin :
    ∃ v, redeclaredLogin.verify [] ⟨false⟩ = .accepted v ∧
      (∀ keys, loginInline.admits (redeclaredLogin.allTypes []) keys =
        loginByName.admits (redeclaredLogin.allTypes []) keys) ∧
      loginByName.admits (redeclaredLogin.allTypes []) ["user"] = true := by
  have haccepted : redeclaredLogin.verify [] ⟨false⟩ =
      .accepted ⟨(redeclaredLogin.correlation []).1, redeclaredLogin.executionMode,
        redeclaredLogin.constants⟩ :=
    verify_eq_accepted_iff.mpr ⟨by decide +kernel, by decide +kernel, rfl⟩
  obtain ⟨hequivalent, haliases⟩ := equivalent_types_share_paths
  have hshared := hequivalent (redeclaredLogin.allTypes []) loginInline loginByName
    (by decide +kernel) (by decide +kernel) (by decide +kernel) (by decide +kernel)
  obtain ⟨keys, hkeys, hfits⟩ := haliases [] ⟨false⟩ redeclaredLogin _ haccepted
    (.of_allAbove 5 (by decide +kernel)) (by decide) _ (List.mem_singleton_self _) _
    (List.mem_singleton_self _) _ (List.mem_singleton_self _)
  cases hkeys
  exact ⟨_, haccepted, hshared,
    hfits loginByName (List.mem_cons_of_mem _ (List.mem_cons_of_mem _ List.mem_cons_self)) rfl⟩

end Program

end ServiceCheck
