import ServiceCheck.Program.Construction
import ServiceCheck.Proofs.Program.DistinctKeys
import ServiceCheck.Proofs.Types.SameUnfolding
import ServiceCheck.Proofs.Verification.Ending
import ServiceCheck.Proofs.Verification.InForce
import ServiceCheck.Proofs.Verification.Kinds
import ServiceCheck.Proofs.Verification.Registration

set_option autoImplicit false

namespace ServiceCheck

open TypeDefinition (SameUnfolding Grounded LinksEnd listOf)

section Named

variable {α : Type} {name : α → String}

/-- The items of a name are its first one, unless the name is taken, and then the later ones. -/
theorem filter_named_eq (taken : List String) (items : List α) (key : String) :
    items.filter (name · = key) =
      (if key ∈ taken then none else items.find? (name · = key)).toList ++
        (laterNamed name taken items).filter (name · = key) := by
  induction items generalizing taken with
  | nil => simp [laterNamed]
  | cons item rest ih =>
    by_cases hname : name item = key
    · subst hname
      by_cases htaken : name item ∈ taken
      · simp [laterNamed, htaken, ih taken]
      · simp [laterNamed, htaken, ih (name item :: taken)]
    · by_cases hitem : name item ∈ taken
      · simp [laterNamed, hitem, hname, ih taken]
      · simp [laterNamed, hitem, hname, Ne.symm hname, ih (name item :: taken)]

/-- What agrees with the first agrees with each other. -/
theorem pairwise_of_agrees_first {R : α → α → Prop} (hsymm : ∀ {a b}, R a b → R b a)
    (htrans : ∀ {a b c}, R a b → R b c → R a c) {first : Option α} {rest : List α}
    (hfirst : ∀ later ∈ rest, ∃ a ∈ first, R a later) : (first.toList ++ rest).Pairwise R := by
  cases first with
  | none =>
    have hempty : rest = [] := by
      refine List.eq_nil_iff_forall_not_mem.mpr fun later hlater => ?_
      obtain ⟨a, ha, _⟩ := hfirst later hlater
      cases ha
    simp [hempty]
  | some a =>
    have hall : ∀ later ∈ rest, R a later := by simpa using hfirst
    refine List.pairwise_cons.mpr ⟨hall, ?_⟩
    exact List.pairwise_of_forall_mem_list fun b hb c hc =>
      htrans (hsymm (hall b hb)) (hall c hc)

theorem mem_of_mem_laterNamed {taken : List String} {items : List α} {item : α}
    (h : item ∈ laterNamed name taken items) : item ∈ items := by
  induction items generalizing taken with
  | nil => exact h
  | cons first rest ih =>
    rw [laterNamed] at h
    split at h
    · rcases List.mem_cons.mp h with rfl | h
      · exact List.mem_cons_self
      · exact List.mem_cons_of_mem _ (ih h)
    · exact List.mem_cons_of_mem _ (ih h)

theorem mem_of_mem_firstNamed {taken : List String} {items : List α} {item : α}
    (h : item ∈ firstNamed name taken items) : item ∈ items := by
  induction items generalizing taken with
  | nil => exact h
  | cons first rest ih =>
    rw [firstNamed] at h
    split at h
    · exact List.mem_cons_of_mem _ (ih h)
    · rcases List.mem_cons.mp h with rfl | h
      · exact List.mem_cons_self
      · exact List.mem_cons_of_mem _ (ih h)

theorem firstNamed_eq_self {taken : List String} {items : List α}
    (h : laterNamed name taken items = []) : firstNamed name taken items = items := by
  induction items generalizing taken with
  | nil => rfl
  | cons item rest ih =>
    rw [laterNamed] at h
    rw [firstNamed]
    split at h
    · cases h
    · rename_i hnew
      rw [if_neg hnew, ih h]

end Named

/-- Two declarations of an operation that describe the same messages. -/
structure Operation.Agrees (types : TypeMap) (o o' : Operation) : Prop where
  kind : o.kind = o'.kind
  request : SameUnfolding types o.request o'.request
  response : ∀ r ∈ o.reply, ∀ r' ∈ o'.reply, SameUnfolding types r.response r'.response
  faultNames : ∀ name, name ∈ Dictionary.keys o.faults ↔ name ∈ Dictionary.keys o'.faults
  faults : ∀ name, ∀ t ∈ Dictionary.get? o.faults name, ∀ t' ∈ Dictionary.get? o'.faults name,
    SameUnfolding types t t'

namespace Operation

variable {types : TypeMap} {o o' o'' : Operation}

theorem Agrees.symm (h : Agrees types o o') : Agrees types o' o where
  kind := h.kind.symm
  request := h.request.symm
  response r hr r' hr' := (h.response r' hr' r hr).symm
  faultNames name := (h.faultNames name).symm
  faults name t ht t' ht' := (h.faults name t' ht' t ht).symm

theorem isSome_reply_iff (h : o.kind = o'.kind) : o.reply.isSome ↔ o'.reply.isSome := by
  cases hr : o.reply <;> cases hr' : o'.reply <;> simp [kind, hr, hr'] at h ⊢

theorem Agrees.trans (h : Agrees types o o') (h' : Agrees types o' o'') :
    Agrees types o o'' where
  kind := h.kind.trans h'.kind
  request := h.request.trans h'.request
  response r hr r'' hr'' := by
    obtain ⟨r', hr'⟩ := Option.isSome_iff_exists.mp
      ((isSome_reply_iff h.kind).mp (Option.isSome_of_mem hr))
    exact (h.response r hr r' hr').trans (h'.response r' hr' r'' hr'')
  faultNames name := (h.faultNames name).trans (h'.faultNames name)
  faults name t ht t'' ht'' := by
    have hkey := (Dictionary.get?_isSome_iff o.faults name).mp (Option.isSome_of_mem ht)
    obtain ⟨t', ht'⟩ := Option.isSome_iff_exists.mp
      ((Dictionary.get?_isSome_iff o'.faults name).mpr ((h.faultNames name).mp hkey))
    exact (h.faults name t ht t' ht').trans (h'.faults name t' ht' t'' ht'')

/-- Faults that were found the same are declared by both, with the same unfolding where all links
lead somewhere. -/
theorem compareFaults_same {others faults : Dictionary TypeDefinition} {assumed : Assumptions}
    (h : compareFaults types others faults = .same assumed) :
    ∀ e ∈ faults, ∃ other, Dictionary.get? others e.1 = some other ∧
      TypeDefinition.equivalent? types e.2 other = some true := by
  induction faults with
  | nil => exact fun _ he => (List.not_mem_nil he).elim
  | cons e rest ih =>
    obtain ⟨name, fault⟩ := e
    rw [compareFaults] at h
    cases hother : Dictionary.get? others name with
    | none => simp [hother] at h
    | some other =>
      simp only [hother, Comparing.andThen_eq_same] at h
      obtain ⟨between, hsame, hrest⟩ := h
      intro e he
      rcases List.mem_cons.mp he with rfl | he
      · exact ⟨other, hother, Comparing.answer?_eq_true.mpr ⟨between, hsame⟩⟩
      · exact ih hrest e he

end Operation

theorem Comparing.exists_same {c : Comparing} (hd : c ≠ .different) (hu : c ≠ .unending) :
    ∃ assumed, c = .same assumed := by
  cases c <;> simp_all

theorem TypeDefinition.sameUnfolding_of_equivalent {types : TypeMap} (htypes : types.DistinctKeys)
    {a b : TypeDefinition} (ha : a.DistinctKeys) (hb : b.DistinctKeys)
    (hground : Grounded types a ∧ Grounded types b) (h : equivalent? types a b = some true) :
    SameUnfolding types a b := by
  obtain ⟨hc, hlike⟩ := (answer_iff_alike h).mp rfl
  exact sameUnfolding_of_alike htypes ha hb hground.1 hground.2 hc hlike

namespace Operation

variable {types : TypeMap} {first later : Operation}

structure DistinctKeys (o : Operation) : Prop where
  request : o.request.DistinctKeys
  response : ∀ r ∈ o.reply, r.response.DistinctKeys
  faults : ∀ e ∈ o.faults, e.2.DistinctKeys
  faultNames : (Dictionary.keys o.faults).Nodup

theorem faults_of_reply {o : Operation} {r : Reply} (h : o.reply = some r) :
    o.faults = r.faults := by
  simp [faults, h]

theorem faults_of_no_reply {o : Operation} (h : o.reply = none) : o.faults = [] := by
  simp [faults, h]

theorem ComparesTypes.mem_types {a b : TypeDefinition} (h : ComparesTypes types first later a b) :
    a ∈ first.types ∧ b ∈ later.types := by
  cases h with
  | request => unfold Operation.types; constructor <;> split <;> simp
  | response hr hr' => simp [Operation.types, hr, hr']
  | fault hr hr' _ hsplit _ hfound =>
    simp only [Operation.types, hr, hr', List.mem_cons]
    have hother := List.mem_map_of_mem (f := Prod.snd) (Dictionary.mem_of_get? hfound)
    exact ⟨.inr (.inr (by simp [Dictionary.values, hsplit])), .inr (.inr hother)⟩

theorem faults_agree (htypes : types.DistinctKeys) (hfirst : first.DistinctKeys)
    (hlater : later.DistinctKeys) {r r' : Reply} (hr : first.reply = some r)
    (hr' : later.reply = some r')
    (hground : ∀ a b, ComparesTypes types first later a b → Grounded types a ∧ Grounded types b)
    (hlength : r.faults.length = r'.faults.length) {assumed : Assumptions}
    (hsame : compareFaults types r'.faults r.faults = .same assumed) :
    (∀ name, name ∈ Dictionary.keys first.faults ↔ name ∈ Dictionary.keys later.faults) ∧
      ∀ name, ∀ t ∈ Dictionary.get? first.faults name,
        ∀ t' ∈ Dictionary.get? later.faults name, SameUnfolding types t t' := by
  have hfound := compareFaults_same hsame
  have hnodup := hfirst.faultNames
  have hkeys := hfirst.faults
  have hkeys' := hlater.faults
  rw [faults_of_reply hr] at hnodup hkeys ⊢
  rw [faults_of_reply hr'] at hkeys' ⊢
  constructor
  · refine TypeDefinition.mem_keys_iff_of_subset hnodup (fun name hname => ?_) hlength
    obtain ⟨e, he, rfl⟩ := List.mem_map.mp hname
    obtain ⟨other, hother, -⟩ := hfound e he
    exact (Dictionary.get?_isSome_iff r'.faults e.1).mp (by simp [hother])
  · intro name t ht t' ht'
    have hmem := Dictionary.mem_of_get? ht
    obtain ⟨other, hother, hequivalent⟩ := hfound _ hmem
    obtain rfl : other = t' := Option.some.inj (hother.symm.trans ht')
    obtain ⟨before, after, hsplit⟩ := List.append_of_mem hmem
    have hcompares : ComparesTypes types first later t other :=
      .fault hr hr' hlength hsplit (fun e he => hfound e (hsplit ▸ List.mem_append_left _ he)) ht'
    exact TypeDefinition.sameUnfolding_of_equivalent htypes (hkeys _ hmem)
      (hkeys' _ (Dictionary.mem_of_get? ht')) (hground _ _ hcompares) hequivalent

theorem agrees_of_compareSignatures (htypes : types.DistinctKeys) (hfirst : first.DistinctKeys)
    (hlater : later.DistinctKeys)
    (hground : ∀ a b, ComparesTypes types first later a b → Grounded types a ∧ Grounded types b)
    (h : ∀ part ∈ compareSignatures types first later, ∃ assumed, part.2 = .same assumed) :
    Agrees types first later := by
  have hkind : first.kind = later.kind := by
    by_contra hne
    obtain ⟨assumed, hsame⟩ := h ("kind", .different) (by simp [compareSignatures, hne])
    cases hsame
  have hequivalent : ∀ {which : String} {a b : TypeDefinition},
      (which, a.compare types b) ∈ compareSignatures types first later →
      TypeDefinition.equivalent? types a b = some true := fun hmem =>
    Comparing.answer?_eq_true.mpr (h _ hmem)
  have hrequest := TypeDefinition.sameUnfolding_of_equivalent htypes hfirst.request
    hlater.request (hground _ _ .request)
    (@hequivalent "request type" _ _ (by simp [compareSignatures]))
  cases hr : first.reply with
  | none =>
    have hr' : later.reply = none := by
      have hiff := isSome_reply_iff hkind
      simpa [hr] using hiff
    exact {
      kind := hkind
      request := hrequest
      response := by simp [hr]
      faultNames := by simp [faults_of_no_reply hr, faults_of_no_reply hr']
      faults := by simp [faults_of_no_reply hr, Dictionary.get?_nil] }
  | some r =>
    obtain ⟨r', hr'⟩ := Option.isSome_iff_exists.mp ((isSome_reply_iff hkind).mp (by simp [hr]))
    have hresponse := TypeDefinition.sameUnfolding_of_equivalent htypes
      (hfirst.response r hr) (hlater.response r' hr') (hground _ _ (.response hr hr'))
      (@hequivalent "response type" _ _ (by simp [compareSignatures, hr, hr']))
    obtain ⟨assumed, hfaults⟩ := h ("faults", if r.faults.length = r'.faults.length then
      compareFaults types r'.faults r.faults else .different) (by simp [compareSignatures, hr, hr'])
    have hlength : r.faults.length = r'.faults.length := by
      by_contra hne
      simp [hne] at hfaults
    rw [if_pos hlength] at hfaults
    obtain ⟨hnames, hall⟩ :=
      faults_agree htypes hfirst hlater hr hr' hground hlength hfaults
    exact {
      kind := hkind
      request := hrequest
      response := by simpa [hr, hr'] using hresponse
      faultNames := hnames
      faults := hall }

end Operation

namespace Program

variable {callerTypes : TypeMap} {config : Config} {p : Program} {v : Validated}

theorem same_of_typeComparisons (h : p.verify callerTypes config = .accepted v)
    {later first : TypeDefinition} {comparing : Comparing}
    (hmem : (later, first, comparing) ∈ p.typeComparisons callerTypes) :
    ∃ assumed, comparing = .same assumed := by
  obtain ⟨-, -, htypes, -⟩ := problems_eq_nil_iff.mp (problems_eq_nil_of_accepted h)
  refine Comparing.exists_same (fun hd => ?_) fun hu => ?_
  · have hnone := List.filterMap_eq_nil_iff.mp htypes _ hmem
    simp [hd] at hnone
  · have hends := (verify_eq_accepted_iff.mp h).1
    simp only [comparesForever, Bool.or_eq_false_iff, List.any_eq_false] at hends
    exact hends.1 _ hmem (by simp [hu])

theorem same_of_signatureComparisons (h : p.verify callerTypes config = .accepted v)
    {later first : Operation} {parts : List (String × Comparing)}
    (hmem : (later, first, parts) ∈ p.signatureComparisons callerTypes) :
    ∀ part ∈ parts, ∃ assumed, part.2 = .same assumed := by
  obtain ⟨-, -, -, hsignatures, -⟩ := problems_eq_nil_iff.mp (problems_eq_nil_of_accepted h)
  intro part hpart
  refine Comparing.exists_same (fun hd => ?_) fun hu => ?_
  · have hnone := List.filterMap_eq_nil_iff.mp hsignatures _ hmem
    simp only [ite_eq_left_iff, reduceCtorEq, imp_false, Classical.not_not, List.isEmpty_iff,
      List.map_eq_nil_iff, List.filter_eq_nil_iff, decide_eq_true_eq] at hnone
    exact hnone part hpart hd
  · have hends := (verify_eq_accepted_iff.mp h).1
    simp only [comparesForever, Bool.or_eq_false_iff, List.any_eq_false] at hends
    exact hends.2 _ hmem (List.any_eq_true.mpr ⟨part, hpart, by simp [hu]⟩)

theorem exposedOperations_eq_of_accepted (h : p.verify callerTypes config = .accepted v) :
    p.exposedOperations = p.inputPorts.flatMap (·.allOperations) := by
  refine List.flatMap_congr fun port hport => firstNamed_eq_self ?_
  obtain ⟨d, hd, hdport⟩ := List.mem_filterMap.mp hport
  cases d <;> cases hdport
  obtain ⟨t, ht⟩ := exists_problems_eq_nil h hd
  have hhead : port.problems t = [] := (List.append_eq_nil_iff.mp ht).1
  have hoperations := (List.append_eq_nil_iff.mp (List.append_eq_nil_iff.mp hhead).1).2
  exact (InputPort.operationProblems_eq_nil_iff.mp hoperations).1

theorem mem_types_iff (t : TypeDefinition) : t ∈ p.types ↔ .type t ∈ p.declarations := by
  simp only [types, List.mem_filterMap]
  grind

theorem get?_declareAll (position : Position) (ds : List Declaration) (t : Tables) (id : String) :
    Dictionary.get? (t.declareAll ds).types id =
      (Dictionary.get? t.types id).or ((types ⟨position, ds⟩).find? (·.id = id)) := by
  rw [Tables.types_declareAll, Dictionary.get?_foldl_setNew]
  rfl

theorem get?_allTypes (callerTypes : TypeMap) (p : Program) (id : String) :
    Dictionary.get? (p.allTypes callerTypes) id =
      (Dictionary.get? callerTypes id).or (p.types.find? (·.id = id)) :=
  get?_declareAll p.position p.declarations (.initial callerTypes) id

theorem contains_allTypes_iff {name : String} :
    Dictionary.contains (p.allTypes callerTypes) name = true ↔
      Dictionary.contains callerTypes name = true ∨ ∃ u ∈ p.types, u.id = name := by
  rw [Dictionary.contains, get?_allTypes, Option.isSome_or, Bool.or_eq_true, List.find?_isSome]
  simp [Dictionary.contains]

theorem distinctKeys_of_mem_types (hkeys : p.DistinctKeys) {t : TypeDefinition} (ht : t ∈ p.types) :
    t.DistinctKeys := by
  have hdeclared := (mem_types_iff t).mp ht
  refine (TypeDefinition.distinctKeys_iff t).mpr fun x hx => hkeys x ?_
  exact .of_part (List.mem_map_of_mem hdeclared) (.of_part (List.mem_singleton_self _) hx)

theorem mem_declareAll_types {t : Tables} {ds : List Declaration} {e : String × TypeDefinition}
    (h : e ∈ (t.declareAll ds).types) : e ∈ t.types ∨ .type e.2 ∈ ds := by
  induction ds generalizing t with
  | nil => exact .inl h
  | cons d rest ih =>
    rcases ih h with hdeclared | hrest
    · cases d with
      | type u =>
        simp only [Tables.declare, Dictionary.setNew] at hdeclared
        split at hdeclared
        · exact .inl hdeclared
        · rcases List.mem_append.mp hdeclared with hold | hnew
          · exact .inl hold
          · obtain rfl := List.mem_singleton.mp hnew
            exact .inr List.mem_cons_self
      | _ => exact .inl hdeclared
    · exact .inr (List.mem_cons_of_mem _ hrest)

theorem distinctKeys_allTypes (hkeys : p.DistinctKeys) (hcaller : callerTypes.DistinctKeys) :
    (p.allTypes callerTypes).DistinctKeys := by
  intro e he
  rcases mem_declareAll_types he with hold | hdeclared
  · exact hcaller e hold
  · exact distinctKeys_of_mem_types hkeys ((mem_types_iff e.2).mpr hdeclared)

theorem contains_of_exposed {o : Operation} (ho : o ∈ p.inputPorts.flatMap (·.allOperations)) :
    (Node.program p).Contains (.operation o) := by
  obtain ⟨port, hport, ho⟩ := List.mem_flatMap.mp ho
  obtain ⟨d, hd, hdport⟩ := List.mem_filterMap.mp hport
  cases d <;> cases hdport
  have hmem : ∀ x ∈ port.toPort.parts, x.Contains (.operation o) →
      (Node.program p).Contains (.operation o) := fun x hx hxo =>
    .of_part (List.mem_map_of_mem hd) (.of_part (List.mem_singleton_self _) (.of_part hx hxo))
  rcases List.mem_append.mp ho with hown | hinterface
  · exact hmem _ (List.mem_append_left _ (List.mem_map_of_mem hown)) (.self _)
  · obtain ⟨i, hi, ho⟩ := List.mem_flatMap.mp hinterface
    exact hmem _ (List.mem_append_right _ (List.mem_map_of_mem hi))
      (.of_part (List.mem_map_of_mem ho) (.self _))

theorem distinctKeys_of_exposed (hkeys : p.DistinctKeys) {o : Operation}
    (ho : o ∈ p.inputPorts.flatMap (·.allOperations)) : o.DistinctKeys := by
  have hcontains := contains_of_exposed ho
  have htypes : ∀ t ∈ o.types, t.DistinctKeys := fun t ht =>
    (TypeDefinition.distinctKeys_iff t).mpr fun x hx =>
      hkeys x (hcontains.trans (Node.Contains.of_part (List.mem_map_of_mem ht) hx))
  exact {
    request := htypes _ (by unfold Operation.types; split <;> simp)
    response := fun r hr => htypes _ (by simp [Operation.types, Option.mem_def.mp hr])
    faults := fun e he => htypes _ (by
      cases hr : o.reply with
      | none => simp [Operation.faults_of_no_reply hr] at he
      | some r =>
        rw [Operation.faults_of_reply hr] at he
        simpa [Operation.types, hr] using .inr (.inr (List.mem_map_of_mem he)))
    faultNames := of_decide_eq_true (hkeys _ hcontains) }

theorem pairwise_exposed (h : p.verify callerTypes config = .accepted v) (hkeys : p.DistinctKeys)
    (hcaller : callerTypes.DistinctKeys)
    (hground : ∀ a b, p.ComparesTypes callerTypes a b →
      Grounded (p.allTypes callerTypes) a ∧ Grounded (p.allTypes callerTypes) b) (id : String) :
    ((p.inputPorts.flatMap (·.allOperations)).filter (·.id = id)).Pairwise
      (Operation.Agrees (p.allTypes callerTypes)) := by
  have htypes := distinctKeys_allTypes hkeys hcaller
  rw [filter_named_eq [], if_neg List.not_mem_nil]
  refine pairwise_of_agrees_first (R := Operation.Agrees _) .symm .trans fun later hmem => ?_
  obtain ⟨hlater, hid⟩ := List.mem_filter.mp hmem
  obtain rfl : later.id = id := by simpa using hid
  have hexposed := mem_of_mem_laterNamed hlater
  obtain ⟨first, hfirst⟩ : ∃ first, p.registered? later.id = some first :=
    Option.isSome_iff_exists.mp (List.find?_isSome.mpr ⟨later, hexposed, by simp⟩)
  have hlast : later ∈ p.laterOperations := by
    rwa [laterOperations, exposedOperations_eq_of_accepted h]
  have hregistered : p.firstOperations.find? (·.id = later.id) = some first := by
    rw [find?_firstOperations, hfirst]
  have hcompared : (later, first, Operation.compareSignatures _ first later) ∈
      p.signatureComparisons callerTypes :=
    List.mem_filterMap.mpr ⟨later, hlast, by rw [hregistered, Option.map_some]⟩
  exact ⟨first, hfirst, Operation.agrees_of_compareSignatures htypes
    (distinctKeys_of_exposed hkeys (List.mem_of_find?_eq_some hfirst))
    (distinctKeys_of_exposed hkeys hexposed)
    (fun a b hab => hground a b (.signature hlast hregistered hab))
    (same_of_signatureComparisons h hcompared)⟩

theorem namedTypes_eq (callerTypes : TypeMap) (p : Program) (id : String) :
    (Dictionary.get? callerTypes id).toList ++ p.types.filter (·.id = id) =
      (Dictionary.get? (p.allTypes callerTypes) id).toList ++
        (p.laterTypes callerTypes).filter (·.id = id) := by
  rw [filter_named_eq (Dictionary.keys callerTypes), get?_allTypes, ← List.append_assoc]
  congr 1
  cases hcalled : Dictionary.get? callerTypes id with
  | none => simp [(Dictionary.get?_eq_none_iff callerTypes id).mp hcalled]
  | some t =>
    have hkey := (Dictionary.get?_isSome_iff callerTypes id).mp (by simp [hcalled])
    simp [hkey]

theorem pairwise_types (h : p.verify callerTypes config = .accepted v) (hkeys : p.DistinctKeys)
    (hcaller : callerTypes.DistinctKeys)
    (hground : ∀ a b, p.ComparesTypes callerTypes a b →
      Grounded (p.allTypes callerTypes) a ∧ Grounded (p.allTypes callerTypes) b) (id : String) :
    ((Dictionary.get? callerTypes id).toList ++ p.types.filter (·.id = id)).Pairwise
      (SameUnfolding (p.allTypes callerTypes)) := by
  have htypes := distinctKeys_allTypes hkeys hcaller
  rw [namedTypes_eq]
  refine pairwise_of_agrees_first (R := SameUnfolding _) .symm .trans fun later hmem => ?_
  obtain ⟨hlater, hid⟩ := List.mem_filter.mp hmem
  obtain rfl : later.id = id := by simpa using hid
  have hdeclared : later ∈ p.types := mem_of_mem_laterNamed hlater
  have hfound : (p.types.find? (·.id = later.id)).isSome :=
    List.find?_isSome.mpr ⟨later, hdeclared, by simp⟩
  obtain ⟨first, hfirst⟩ : ∃ first,
      Dictionary.get? (p.allTypes callerTypes) later.id = some first :=
    Option.isSome_iff_exists.mp (by rw [get?_allTypes, Option.isSome_or, hfound, Bool.or_true])
  have hcompared : (later, first, first.compare _ later) ∈ p.typeComparisons callerTypes :=
    List.mem_filterMap.mpr ⟨later, hlater, by rw [hfirst, Option.map_some]⟩
  exact ⟨first, hfirst, TypeDefinition.sameUnfolding_of_equivalent htypes
    (htypes _ (Dictionary.mem_of_get? hfirst)) (distinctKeys_of_mem_types hkeys hdeclared)
    (hground first later (.type hlater hfirst))
    (Comparing.answer?_eq_true.mpr (same_of_typeComparisons h hcompared))⟩

/-- In an accepted program the declarations of one operation agree pairwise in all that they say of
messages, and so do the declarations of one type, the caller's entry included. -/
theorem declarations_agree (callerTypes : TypeMap) (config : Config) (p : Program) (v : Validated)
    (h : p.verify callerTypes config = .accepted v)
    (hkeys : p.DistinctKeys) (hcaller : callerTypes.DistinctKeys)
    (hground : ∀ a b, p.ComparesTypes callerTypes a b →
      Grounded (p.allTypes callerTypes) a ∧ Grounded (p.allTypes callerTypes) b) (id : String) :
    ((p.inputPorts.flatMap (·.allOperations)).filter (·.id = id)).Pairwise
        (Operation.Agrees (p.allTypes callerTypes)) ∧
      ((Dictionary.get? callerTypes id).toList ++ p.types.filter (·.id = id)).Pairwise
        (SameUnfolding (p.allTypes callerTypes)) :=
  ⟨pairwise_exposed h hkeys hcaller hground id, pairwise_types h hkeys hcaller hground id⟩

/-- Where no link of a type or of an exposed signature dangles or goes round in links alone, the
same holds of all that is compared. -/
theorem grounded_of_links (hdeclared : ∀ e ∈ p.allTypes callerTypes,
      LinksEnd (p.allTypes callerTypes) e.2)
    (hlater : ∀ t ∈ p.types, LinksEnd (p.allTypes callerTypes) t)
    (hexposed : ∀ o ∈ p.inputPorts.flatMap (·.allOperations), ∀ t ∈ o.types,
      LinksEnd (p.allTypes callerTypes) t) {a b : TypeDefinition}
    (h : p.ComparesTypes callerTypes a b) :
    Grounded (p.allTypes callerTypes) a ∧ Grounded (p.allTypes callerTypes) b := by
  have hground : ∀ {t}, LinksEnd (p.allTypes callerTypes) t →
      Grounded (p.allTypes callerTypes) t := TypeDefinition.grounded_of_linksEnd hdeclared
  cases h with
  | type hmem found =>
    exact ⟨hground (hdeclared _ (Dictionary.mem_of_get? found)),
      hground (hlater _ (mem_of_mem_laterNamed hmem))⟩
  | @signature first later hmem found _ _ compares =>
    have hkept : ∀ o ∈ p.exposedOperations, o ∈ p.inputPorts.flatMap (·.allOperations) := by
      intro o ho
      obtain ⟨port, hport, ho⟩ := List.mem_flatMap.mp ho
      exact List.mem_flatMap.mpr ⟨port, hport, mem_of_mem_firstNamed ho⟩
    have hfirst := hkept _ (mem_of_mem_firstNamed (List.mem_of_find?_eq_some found))
    exact ⟨hground (hexposed _ hfirst _ compares.mem_types.1),
      hground (hexposed _ (hkept _ (mem_of_mem_laterNamed hmem)) _ compares.mem_types.2)⟩

def twoQueues : Program :=
  .ofDeclarations
    [.type (listOf "List" "List"), .type (listOf "Chain" "Chain"), .type (listOf "List" "Chain"),
      .inputPort { InputPort.empty "Front" with operations := [.oneWay "push" "List"] },
      .inputPort { InputPort.empty "Back" with operations := [.oneWay "push" "Chain"] }]

theorem declarations_agree_twoQueues :
    ∃ v, twoQueues.verify [] ⟨false⟩ = .accepted v ∧
      [Operation.oneWay "push" "List", .oneWay "push" "Chain"].Pairwise
        (Operation.Agrees (twoQueues.allTypes [])) ∧
      [listOf "List" "List", listOf "List" "Chain"].Pairwise
        (SameUnfolding (twoQueues.allTypes [])) := by
  have haccepted : twoQueues.verify [] ⟨false⟩ =
      .accepted ⟨(twoQueues.correlation []).1, twoQueues.executionMode, twoQueues.constants⟩ :=
    verify_eq_accepted_iff.mpr ⟨by decide +kernel, by decide +kernel, rfl⟩
  have hground : ∀ a b, twoQueues.ComparesTypes [] a b →
      Grounded (twoQueues.allTypes []) a ∧ Grounded (twoQueues.allTypes []) b :=
    fun a b => grounded_of_links (by decide +kernel) (by decide +kernel) (by decide +kernel)
  have hagree := declarations_agree [] ⟨false⟩ twoQueues _ haccepted
    (.of_allAbove 5 (by decide +kernel)) (by decide) hground
  exact ⟨_, haccepted, (hagree "push").1, (hagree "List").2⟩

end Program

end ServiceCheck
