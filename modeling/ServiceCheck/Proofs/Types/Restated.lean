import ServiceCheck.Proofs.Types.AlikeLaws
import ServiceCheck.Proofs.Types.OutOfStep

set_option autoImplicit false

namespace ServiceCheck

namespace TypeDefinition

mutual

/-- The definitions are the same but for positions, identifiers, the order of sub-types, and
whether an empty block is written. -/
inductive Restated : TypeDefinition → TypeDefinition → Prop where
  | inline {h h' : TypeHead} {n : NativeType} {s s' : Option (List (String × TypeDefinition))}
      {u : Bool} {members : List (String × TypeDefinition)}
      (cardinality : h.cardinality = h'.cardinality) (order : (s.getD []).Perm members)
      (entries : RestatedEntries members (s'.getD [])) :
      Restated (.inline h n s u) (.inline h' n s' u)
  | link {h h' : TypeHead} {x : String} (cardinality : h.cardinality = h'.cardinality) :
      Restated (.link h x) (.link h' x)
  | choice {h h' : TypeHead} {l r l' r' : TypeDefinition}
      (cardinality : h.cardinality = h'.cardinality) (left : Restated l l')
      (right : Restated r r') : Restated (.choice h l r) (.choice h' l' r')

inductive RestatedEntries :
    List (String × TypeDefinition) → List (String × TypeDefinition) → Prop where
  | nil : RestatedEntries [] []
  | cons {key : String} {t t' : TypeDefinition} {rest rest' : List (String × TypeDefinition)}
      (first : Restated t t') (others : RestatedEntries rest rest') :
      RestatedEntries ((key, t) :: rest) ((key, t') :: rest')

end

variable {types : TypeMap} {a b c : TypeDefinition}

theorem Restated.cardinality_eq (h : Restated a b) : a.cardinality = b.cardinality := by
  cases h with
  | inline cardinality => exact cardinality
  | link cardinality => exact cardinality
  | choice cardinality => exact cardinality

theorem RestatedEntries.keys_eq {members others : List (String × TypeDefinition)}
    (h : RestatedEntries members others) : Dictionary.keys members = Dictionary.keys others := by
  induction members generalizing others with
  | nil =>
    cases h
    rfl
  | cons e rest ih =>
    cases h with
    | cons _ hrest => exact congrArg (_ :: ·) (ih hrest)

theorem RestatedEntries.exists_mem {members others : List (String × TypeDefinition)}
    (h : RestatedEntries members others) :
    ∀ e ∈ members, ∃ t, (e.1, t) ∈ others ∧ Restated e.2 t := by
  induction members generalizing others with
  | nil => exact nofun
  | cons first rest ih =>
    cases h with
    | cons hfirst hrest =>
      intro e he
      rcases List.mem_cons.mp he with rfl | he
      · exact ⟨_, List.mem_cons_self, hfirst⟩
      · obtain ⟨t, ht, hrestated⟩ := ih hrest e he
        exact ⟨t, List.mem_cons_of_mem _ ht, hrestated⟩

theorem size_le_membersSize {members : List (String × TypeDefinition)}
    {e : String × TypeDefinition} (h : e ∈ members) : e.2.size ≤ membersSize members := by
  induction members with
  | nil => cases h
  | cons first rest ih =>
    rcases List.mem_cons.mp h with rfl | h
    · exact Nat.le_add_right ..
    · exact Nat.le_trans (ih h) (Nat.le_add_left ..)

theorem size_lt_of_mem_block {h : TypeHead} {n : NativeType}
    {s : Option (List (String × TypeDefinition))} {u : Bool} {e : String × TypeDefinition}
    (he : e ∈ s.getD []) : e.2.size < (TypeDefinition.inline h n s u).size := by
  cases s with
  | none => cases he
  | some members =>
    have hle : e.2.size ≤ membersSize members := size_le_membersSize he
    simp only [size, blockSize]
    omega

theorem compareMembers_same {step : Step} {others : Dictionary TypeDefinition}
    {members : List (String × TypeDefinition)}
    (h : ∀ e ∈ members, ∃ b, Dictionary.get? others e.1 = some b ∧
      ∀ assumed, step assumed e.2 b = .same assumed) (assumed : Assumptions) :
    compareMembers step others assumed members = .same assumed := by
  induction members with
  | nil => rfl
  | cons e rest ih =>
    obtain ⟨b, hb, hstep⟩ := h e List.mem_cons_self
    have hrest := ih fun e he => h e (List.mem_cons_of_mem _ he)
    rw [compareMembers, hb]
    simp only [hstep, Comparing.andThen, hrest]

/-- Nothing is assumed on the way, since links to one name are not followed. -/
theorem Restated.compareBody_eq (h : Restated a b) (ha : a.DistinctKeys) {depth : Nat}
    (hdepth : a.size ≤ depth) (assumed : Assumptions) :
    compareBody types depth assumed a b = .same assumed := by
  induction depth generalizing a b assumed with
  | zero => cases h <;> simp [size] at hdepth
  | succ depth ih =>
    have hguarded : ∀ {c d}, Restated c d → c.DistinctKeys → c.size ≤ depth → ∀ assumed,
        guarded (compareBody types depth) assumed c d = .same assumed :=
      fun hcd hc hle assumed => guarded_eq_same.mpr ⟨hcd.cardinality_eq, ih hcd hc hle assumed⟩
    cases h with
    | link => simp [compareBody]
    | @choice hd hd' l r l' r' _ hl hr =>
      have hleft : below? .left (.choice hd l r) = some l := rfl
      have hright : below? .right (.choice hd l r) = some r := rfl
      simp only [size] at hdepth
      simp only [compareBody, hguarded hl (ha.below hleft) (by omega), Comparing.andThen,
        hguarded hr (ha.below hright) (by omega)]
    | @inline hd hd' n s s' u members _ order entries =>
      have hkeys := order.map Prod.fst
      have hnodup : (Dictionary.keys (s'.getD [])).Nodup := by
        rw [← entries.keys_eq]
        exact hkeys.nodup (ha _ (mem_nodes_self _))
      have hlength : (s.getD []).length = (s'.getD []).length := by
        have hlengths := congrArg List.length entries.keys_eq
        rw [order.length_eq]
        simpa [Dictionary.keys] using hlengths
      simp only [compareBody, hlength, and_self, if_true]
      refine compareMembers_same (fun e he => ?_) assumed
      obtain ⟨t, ht, hrestated⟩ := entries.exists_mem e (order.mem_iff.mp he)
      have hbelow : below? (.member e.1) (.inline hd n s u) = some e.2 :=
        Dictionary.get?_of_mem (ha _ (mem_nodes_self _)) he
      have hlt : e.2.size < (TypeDefinition.inline hd n s u).size := size_lt_of_mem_block he
      exact ⟨t, Dictionary.get?_of_mem hnodup ht,
        hguarded hrestated (ha.below hbelow) (by omega)⟩

theorem Restated.equivalent (h : Restated a b) (ha : a.DistinctKeys) :
    equivalent? types a b = some true := by
  have hsame : guarded (compareBody types a.size) .empty a b = .same .empty :=
    guarded_eq_same.mpr ⟨h.cardinality_eq, h.compareBody_eq ha (Nat.le_refl _) .empty⟩
  have hfinished : guarded (compareBody types a.size) .empty a b ≠ .unending := by simp [hsame]
  rw [equivalent?, compare_eq_of_finished types hfinished, hsame]
  rfl

theorem equivalent_comm (htypes : types.DistinctKeys) (ha : a.DistinctKeys) (hb : b.DistinctKeys)
    {answer answer' : Bool} (h : equivalent? types a b = some answer)
    (h' : equivalent? types b a = some answer') : answer = answer' := by
  rw [Bool.eq_iff_iff, answer_iff_alike h, answer_iff_alike h']
  exact ⟨fun ⟨hc, hlike⟩ => ⟨hc.symm, hlike.symm htypes ha hb⟩,
    fun ⟨hc, hlike⟩ => ⟨hc.symm, hlike.symm htypes hb ha⟩⟩

theorem equivalent_trans (htypes : types.DistinctKeys) (h : equivalent? types a b = some true)
    (h' : equivalent? types b c = some true) {answer : Bool}
    (hends : equivalent? types a c = some answer) : answer = true := by
  obtain ⟨hc, hlike⟩ := (answer_iff_alike h).mp rfl
  obtain ⟨hc', hlike'⟩ := (answer_iff_alike h').mp rfl
  exact (answer_iff_alike hends).mpr ⟨hc.trans hc', hlike.trans htypes hlike'⟩

/-- Finished comparisons are an equivalence on definitions, over any map: restating changes
nothing, the sides may be exchanged, and a definition in between may be left out. -/
theorem comparison_equivalence (types : TypeMap) (htypes : types.DistinctKeys) :
    (∀ a b, a.DistinctKeys → Restated a b → equivalent? types a b = some true) ∧
      (∀ a b, a.DistinctKeys → b.DistinctKeys → ∀ answer answer',
        equivalent? types a b = some answer → equivalent? types b a = some answer' →
          answer = answer') ∧
      ∀ a b c, equivalent? types a b = some true → equivalent? types b c = some true →
        ∀ answer, equivalent? types a c = some answer → answer = true :=
  ⟨fun _ _ ha h => h.equivalent ha,
    fun _ _ ha hb _ _ h h' => equivalent_comm htypes ha hb h h',
    fun _ _ _ h h' _ hends => equivalent_trans htypes h h' hends⟩

def orderOf (list : String) : TypeDefinition :=
  .inline (.plain "Order") .void
    (some [("items", .link (.plain "items") list), ("lost", .link (.plain "lost") "Missing"),
      ("round", .link (.plain "round") "Loop"), ("note", native "note" .string)]) false

def restatedOrder : TypeDefinition :=
  .inline ⟨⟨"orders.ol", 3⟩, "Purchase", .one⟩ .void
    (some [("lost", .link (.plain "lost") "Missing"), ("items", .link (.plain "items") "List"),
      ("round", .link (.plain "circle") "Loop"),
      ("note", .inline (.plain "note") .string (some []) false)]) false

theorem comparison_equivalence_orders :
    let types : TypeMap := [("List", listOf "List" "List"), ("Chain", listOf "Chain" "Chain"),
      ("Loop", .named "Loop")]
    Restated (orderOf "List") restatedOrder ∧
      equivalent? types (orderOf "List") restatedOrder = some true ∧
      equivalent? types restatedOrder (orderOf "List") = some true ∧
      equivalent? types restatedOrder (orderOf "Chain") = some true ∧
      equivalent? types (orderOf "List") (orderOf "Chain") = some true := by
  intro types
  have hrestated : Restated (orderOf "List") restatedOrder :=
    .inline rfl (.swap ..) (.cons (.link rfl) (.cons (.link rfl) (.cons (.link rfl)
      (.cons (.inline rfl .nil .nil) .nil))))
  obtain ⟨hrestate, hswap, hskip⟩ := comparison_equivalence types (by decide)
  have hsame := hrestate _ _ (by decide) hrestated
  have hother : equivalent? types restatedOrder (orderOf "Chain") = some true := by
    decide +kernel
  obtain ⟨answer, hanswer⟩ : ∃ answer, equivalent? types restatedOrder (orderOf "List") =
      some answer := Option.isSome_iff_exists.mp (by decide +kernel)
  obtain ⟨answer', hanswer'⟩ : ∃ answer, equivalent? types (orderOf "List") (orderOf "Chain") =
      some answer := Option.isSome_iff_exists.mp (by decide +kernel)
  refine ⟨hrestated, hsame, ?_, hother, ?_⟩
  · rw [hanswer, ← hswap _ _ (by decide) (by decide) _ _ hsame hanswer]
  · rw [hanswer', hskip _ _ _ hsame hother _ hanswer']

end TypeDefinition

end ServiceCheck
