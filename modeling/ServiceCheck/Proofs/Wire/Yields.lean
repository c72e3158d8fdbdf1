import ServiceCheck.Wire.Decoder

set_option autoImplicit false

namespace ServiceCheck

variable {α β : Type}

section Results

variable {ε : Type}

theorem mapError_eq_ok_iff {ε' : Type} {result : Except ε α} {f : ε → ε'} {x : α} :
    result.mapError f = .ok x ↔ result = .ok x := by
  cases result with
  | error e => exact ⟨nofun, nofun⟩
  | ok y => exact ⟨fun h => congrArg _ (Except.ok.inj h), fun h => congrArg _ (Except.ok.inj h)⟩

theorem bind_eq_ok_iff {result : Except ε α} {f : α → Except ε β} {y : β} :
    result >>= f = .ok y ↔ ∃ x, result = .ok x ∧ f x = .ok y := by
  cases result with
  | error e => exact ⟨nofun, fun ⟨_, h, _⟩ => nomatch h⟩
  | ok x => exact ⟨fun h => ⟨x, rfl, h⟩, fun ⟨_, h, hf⟩ => Except.ok.inj h ▸ hf⟩

theorem if_eq_ok_iff {c : Prop} [Decidable c] {e : ε} {x y : α} :
    (if c then Except.ok x else .error e) = .ok y ↔ c ∧ x = y := by
  by_cases h : c <;> simp [h]

theorem map_eq_ok_iff {result : Except ε α} {f : α → β} {y : β} :
    result.map f = .ok y ↔ ∃ x, result = .ok x ∧ f x = y := by
  cases result <;> simp [Except.map]

end Results

namespace Decoder

theorem Placed.both_eq_ok_iff {f : Placed (α → β)} {x : Placed α} {y : β} :
    f.both x = .ok y ↔ ∃ g a, f = .ok g ∧ x = .ok a ∧ g a = y := by
  cases f with
  | error e => cases x <;> simp [Placed.both]
  | ok g => cases x <;> simp [Placed.both]

/-- Whatever the decoder makes of a value has the property. -/
def Yields (d : Decoder α) (P : α → Prop) : Prop := ∀ room j x, d room j = .ok x → P x

structure Fields.Yield (fields : Fields α) (P : α → Prop) : Prop where
  members : ∀ room members x, fields.ofMembers room members = .ok x → P x
  items : ∀ room start items x, fields.ofItems room start items = .ok x → P x

theorem Yields.map {P : α → Prop} {Q : β → Prop} {d : Decoder α} (hd : d.Yields P) {f : α → β}
    (h : ∀ x, P x → Q (f x)) : Yields (fun room j => (d room j).map f) Q := by
  intro room j y heq
  obtain ⟨x, hx, rfl⟩ := map_eq_ok_iff.mp heq
  exact h x (hd _ _ _ hx)

theorem yields_any (d : Decoder α) : d.Yields fun _ => True := fun _ _ _ _ => trivial

theorem yields_unbounded {P : α → Prop} {d : Nat → Decoder α}
    (hzero : ∀ room j x, d 0 room j ≠ .ok x)
    (hsucc : ∀ n, (d n).Yields P → (d (n + 1)).Yields P) :
    Yields (fun room j => d (room + 1) room j) P := by
  have hdepth : ∀ n, (d n).Yields P := by
    intro n
    induction n with
    | zero => exact fun room j x h => absurd h (hzero room j x)
    | succ n ih => exact hsucc n ih
  exact fun room => hdepth (room + 1) room

section Records

theorem yield_pure {P : α → Prop} {x : α} (h : P x) : (pure x : Fields α).Yield P where
  members _ _ _ heq := Except.ok.inj heq ▸ h
  items _ _ _ _ heq := Except.ok.inj heq ▸ h

theorem Fields.Yield.seq {P : β → Prop} {Q : α → Prop} {f : Fields (α → β)} {x : Fields α}
    (hf : f.Yield fun g => ∀ a, Q a → P (g a)) (hx : x.Yield Q) : (f <*> x).Yield P where
  members room members y heq := by
    obtain ⟨g, a, hg, ha, rfl⟩ := Placed.both_eq_ok_iff.mp heq
    exact hf.members _ _ _ hg a (hx.members _ _ _ ha)
  items room start items y heq := by
    obtain ⟨g, a, hg, ha, rfl⟩ := Placed.both_eq_ok_iff.mp heq
    exact hf.items _ _ _ _ hg a (hx.items _ _ _ _ ha)

theorem Fields.Yield.map {P : β → Prop} {Q : α → Prop} {f : α → β} {x : Fields α}
    (h : ∀ a, Q a → P (f a)) (hx : x.Yield Q) : (f <$> x).Yield P :=
  .seq (yield_pure h) hx

theorem Fields.Yield.first {P : β → Prop} {f : α → β} {x : Fields α} (h : ∀ a, P (f a)) :
    (f <$> x).Yield P :=
  .map (fun a _ => h a) ⟨fun _ _ _ _ => trivial, fun _ _ _ _ _ => trivial⟩

theorem Fields.Yield.skip {P : β → Prop} {f : Fields (α → β)} {x : Fields α}
    (hf : f.Yield fun g => ∀ a, P (g a)) : (f <*> x).Yield P where
  members room members y heq := by
    obtain ⟨g, a, hg, -, rfl⟩ := Placed.both_eq_ok_iff.mp heq
    exact hf.members _ _ _ hg a
  items room start items y heq := by
    obtain ⟨g, a, hg, -, rfl⟩ := Placed.both_eq_ok_iff.mp heq
    exact hf.items _ _ _ _ hg a

theorem yield_field {P : α → Prop} {d : Decoder α} (hd : d.Yields P) (name : String)
    {unnamed short : Except DecodeError α} (hunnamed : ∀ x, unnamed = .ok x → P x)
    (hshort : ∀ x, short = .ok x → P x) : (field name d unnamed short).Yield P where
  members room members x heq := by
    simp only [field] at heq
    split at heq
    · exact hd _ _ _ (mapError_eq_ok_iff.mp heq)
    · exact hunnamed x (mapError_eq_ok_iff.mp heq)
  items room start items x heq := by
    simp only [field] at heq
    split at heq
    · exact hd _ _ _ (mapError_eq_ok_iff.mp heq)
    · exact hshort x (mapError_eq_ok_iff.mp heq)

theorem yield_required {P : α → Prop} {d : Decoder α} (hd : d.Yields P) (name : String) :
    (required name d).Yield P := yield_field hd name (fun _ h => nomatch h) fun _ h => nomatch h

theorem yield_defaulted {P : α → Prop} {d : Decoder α} (hd : d.Yields P) (name : String)
    {value : α} (hvalue : P value) : (defaulted name value d).Yield P :=
  yield_field hd name (fun _ h => Except.ok.inj h ▸ hvalue) fun _ h => Except.ok.inj h ▸ hvalue

theorem yields_optional {P : α → Prop} {d : Decoder α} (hd : d.Yields P) :
    (optional d).Yields fun o => ∀ x ∈ o, P x := by
  intro room j o heq x hx
  unfold optional at heq
  split at heq
  · cases heq
    cases hx
  · cases hj : d room j with
    | error e => rw [hj] at heq; cases heq
    | ok y =>
      rw [hj] at heq
      cases heq
      cases hx
      exact hd _ _ _ hj

theorem yield_nullable {P : α → Prop} {d : Decoder α} (hd : d.Yields P) (name : String) :
    (nullable name d).Yield fun o => ∀ x ∈ o, P x :=
  yield_field (yields_optional hd) name (fun _ h => Except.ok.inj h ▸ nofun) fun _ h => nomatch h

theorem yields_record {P : α → Prop} {fields : Fields α} (h : fields.Yield P) :
    (record fields).Yields P := by
  have hchecked : ∀ {check : Placed Unit} {result : Placed α} {x : α},
      Placed.checked check result = .ok x → result = .ok x := by
    intro check result x heq
    obtain ⟨g, a, hg, ha, rfl⟩ := Placed.both_eq_ok_iff.mp heq
    cases check with
    | error e => cases hg
    | ok u => exact Except.ok.inj hg ▸ ha
  intro room j x heq
  unfold record at heq
  split at heq
  · cases heq
  · cases heq
  · exact h.members _ _ _ (hchecked (mapError_eq_ok_iff.mp heq))
  · exact h.items _ _ _ _ (hchecked (mapError_eq_ok_iff.mp heq))
  · cases heq

end Records

section Collections

theorem yields_entries {P : α → Prop} {d : Decoder α} (hd : d.Yields P) {room : Nat}
    {members : List (Option String × Json)} {pairs : List (String × α)}
    (h : entries d room members = .ok pairs) : ∀ e ∈ pairs, P e.2 := by
  induction members generalizing pairs with
  | nil =>
    cases h
    simp
  | cons member rest ih =>
    obtain ⟨_ | key, j⟩ := member
    · cases h
    · obtain ⟨value, hvalue, h⟩ := bind_eq_ok_iff.mp h
      obtain ⟨others, hothers, h⟩ := bind_eq_ok_iff.mp h
      cases h
      intro e he
      rcases List.mem_cons.mp he with heq | he
      · exact heq ▸ hd _ _ _ hvalue
      · exact ih hothers e he

theorem yields_dictionary {P : α → Prop} {d : Decoder α} (hd : d.Yields P) :
    (dictionary d).Yields fun m => (Dictionary.keys m).Nodup ∧ ∀ e ∈ m, P e.2 := by
  intro room j m heq
  unfold dictionary at heq
  split at heq
  · cases heq
  · obtain ⟨pairs, hpairs, heq⟩ := bind_eq_ok_iff.mp heq
    obtain ⟨-, rfl⟩ := if_eq_ok_iff.mp heq
    exact ⟨Dictionary.nodup_keys_ofList pairs,
      fun e he => yields_entries hd hpairs e (Dictionary.mem_of_mem_ofList he)⟩
  · cases heq

theorem mapM_yields {P : α → Prop} {f : Json → Except DecodeError α}
    (hf : ∀ j x, f j = .ok x → P x) {items : List Json} {xs : List α}
    (h : items.mapM f = .ok xs) : ∀ x ∈ xs, P x := by
  induction items generalizing xs with
  | nil =>
    cases h
    simp
  | cons j items ih =>
    rw [List.mapM_cons] at h
    obtain ⟨x, hx, h⟩ := bind_eq_ok_iff.mp h
    obtain ⟨rest, hrest, h⟩ := bind_eq_ok_iff.mp h
    cases h
    exact List.forall_mem_cons.mpr ⟨hf j x hx, ih hrest⟩

theorem yields_list {P : α → Prop} {d : Decoder α} (hd : d.Yields P) :
    (list d).Yields fun xs => ∀ x ∈ xs, P x := by
  intro room j xs heq
  unfold list at heq
  split at heq
  · cases heq
  · obtain ⟨ys, hys, heq⟩ := bind_eq_ok_iff.mp heq
    obtain ⟨-, rfl⟩ := if_eq_ok_iff.mp heq
    exact mapM_yields (hd _) hys
  · cases heq

theorem yields_pair {P : α → Prop} {Q : β → Prop} {d : Decoder α} {e : Decoder β}
    (hd : d.Yields P) (he : e.Yields Q) : (pair d e).Yields fun p => P p.1 ∧ Q p.2 := by
  intro room j p heq
  unfold pair at heq
  split at heq
  · cases heq
  · rename_i items _
    cases items with
    | nil => cases heq
    | cons first rest =>
      obtain ⟨x, hx, heq⟩ := bind_eq_ok_iff.mp heq
      cases rest with
      | nil => cases heq
      | cons second rest =>
        obtain ⟨y, hy, heq⟩ := bind_eq_ok_iff.mp heq
        obtain ⟨-, rfl⟩ := if_eq_ok_iff.mp heq
        exact ⟨hd _ _ _ hx, he _ _ _ hy⟩
  · cases heq

end Collections

section Variants

def Content.Yields (P : α → Prop) : Content α → Prop
  | .unit x => P x
  | .value d => d.Yields P

theorem Content.Yields.decode {P : α → Prop} {content : Content α} (h : content.Yields P)
    {room : Nat} {j : Json} {x : α} (heq : content.decode room j = .ok x) : P x := by
  cases content with
  | unit y =>
    cases j with
    | null => exact Except.ok.inj heq ▸ h
    | _ => cases heq
  | value d => exact h _ _ _ heq

theorem yields_choice {P : α → Prop} {variants : List (String × Content α)}
    (h : ∀ variant ∈ variants, variant.2.Yields P) : (choice variants).Yields P := by
  have hfound : ∀ {name content}, variants.lookup name = some content → content.Yields P :=
    fun hlookup => h _ (Dictionary.mem_of_get? hlookup)
  intro room j x heq
  unfold choice at heq
  split at heq
  · split at heq
    · cases heq
    · rename_i result hlookup
      have hdecode : (Content.unit result).decode 0 .null = .ok x := heq
      exact (hfound hlookup).decode hdecode
    · cases heq
  · split at heq
    · cases heq
    · cases heq
    · split at heq
      · cases heq
      · rename_i content hlookup
        obtain ⟨result, hdecode, heq⟩ := bind_eq_ok_iff.mp heq
        obtain ⟨-, rfl⟩ := if_eq_ok_iff.mp heq
        exact (hfound hlookup).decode hdecode
  · cases heq

end Variants

end Decoder

end ServiceCheck
