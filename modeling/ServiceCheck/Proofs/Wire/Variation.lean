import ServiceCheck.Proofs.Wire.Layout
import ServiceCheck.Proofs.Wire.Reads
import ServiceCheck.Proofs.Wire.Yields

/-!
A decoder keeps to a layout when it gives one value for all wordings that the layout lets vary. The
property goes from the decoders of the parts to the decoder of the whole, one lemma for each way of
putting decoders together.
-/

set_option autoImplicit false

namespace ServiceCheck.Decoder

open Layout (Varies)

variable {α β : Type}

def Keeps (d : Decoder α) (layout : Layout) : Prop :=
  ∀ room j j' x, Varies layout room j j' → d room j = .ok x → d room j' = .ok x

theorem keeps_plain (d : Decoder α) : d.Keeps .plain := nofun

theorem Keeps.map {d : Decoder α} {layout : Layout} (hd : d.Keeps layout) (f : α → β) :
    Keeps (fun room j => (d room j).map f) layout := by
  intro room j j' y hvaries hy
  obtain ⟨x, hx, rfl⟩ := map_eq_ok_iff.mp hy
  exact map_eq_ok_iff.mpr ⟨x, hd _ _ _ _ hvaries hx, rfl⟩

theorem keeps_part {d : Decoder α} {p : Part} (hd : d.Keeps p.layout) : d.Keeps (.part p) := by
  intro room j j' x hvaries hx
  cases hvaries with
  | part h => exact hd _ _ _ _ h hx

section Collections

theorem ne_null_of_varies {layout : Layout} {room : Nat} {j j' : Json}
    (h : Varies layout room j j') : j ≠ .null ∧ j' ≠ .null := by
  induction h with
  | optional _ ih => exact ih
  | part _ ih => exact ih
  | _ => exact ⟨nofun, nofun⟩

theorem keeps_optional {d : Decoder α} {layout : Layout} (hd : d.Keeps layout) :
    (optional d).Keeps (.optional layout) := by
  intro room j j' x hvaries hx
  cases hvaries with
  | optional h =>
    obtain ⟨hj, hj'⟩ := ne_null_of_varies h
    rw [optional_of_ne_null hj] at hx
    rw [optional_of_ne_null hj']
    exact hd.map some _ _ _ _ h hx

theorem mapM_replaced {f : Json → Except DecodeError α} {j j' : Json}
    (h : ∀ x, f j = .ok x → f j' = .ok x) {before after : List Json} {xs : List α}
    (hxs : (before ++ j :: after).mapM f = .ok xs) :
    (before ++ j' :: after).mapM f = .ok xs := by
  induction before generalizing xs with
  | nil =>
    rw [List.nil_append, List.mapM_cons] at hxs ⊢
    obtain ⟨x, hx, hxs⟩ := bind_eq_ok_iff.mp hxs
    exact bind_eq_ok_iff.mpr ⟨x, h x hx, hxs⟩
  | cons k before ih =>
    rw [List.cons_append, List.mapM_cons] at hxs ⊢
    obtain ⟨y, hy, hxs⟩ := bind_eq_ok_iff.mp hxs
    obtain ⟨ys, hys, hxs⟩ := bind_eq_ok_iff.mp hxs
    exact bind_eq_ok_iff.mpr ⟨y, hy, bind_eq_ok_iff.mpr ⟨ys, ih hys, hxs⟩⟩

theorem keeps_list {d : Decoder α} {layout : Layout} (hd : d.Keeps layout) :
    (list d).Keeps (.list layout) := by
  intro room j j' x hvaries hx
  cases hvaries with
  | item before after ending h =>
    obtain ⟨xs, hxs, hending⟩ := bind_eq_ok_iff.mp hx
    exact bind_eq_ok_iff.mpr ⟨xs, mapM_replaced (fun x => hd _ _ _ x h) hxs, hending⟩

theorem keeps_pair {d : Decoder α} {e : Decoder β} {first second : Layout}
    (hd : d.Keeps first) (he : e.Keeps second) : (pair d e).Keeps (.pair first second) := by
  intro room j j' x hvaries hx
  cases hvaries with
  | first after ending h =>
    obtain ⟨y, hy, hx⟩ := bind_eq_ok_iff.mp hx
    exact bind_eq_ok_iff.mpr ⟨y, hd _ _ _ _ h hy, hx⟩
  | second before after ending h =>
    obtain ⟨y, hy, hx⟩ := bind_eq_ok_iff.mp hx
    obtain ⟨z, hz, hx⟩ := bind_eq_ok_iff.mp hx
    exact bind_eq_ok_iff.mpr ⟨y, hy, bind_eq_ok_iff.mpr ⟨z, he _ _ _ _ h hz, hx⟩⟩

theorem entries_replaced {d : Decoder α} {room : Nat} {j j' : Json}
    (h : ∀ x, d room j = .ok x → d room j' = .ok x) {key : Option String}
    {before after : List (Option String × Json)} {pairs : List (String × α)}
    (hpairs : entries d room (before ++ (key, j) :: after) = .ok pairs) :
    entries d room (before ++ (key, j') :: after) = .ok pairs := by
  induction before generalizing pairs with
  | nil =>
    cases key with
    | none => cases hpairs
    | some key =>
      obtain ⟨x, hx, hpairs⟩ := bind_eq_ok_iff.mp hpairs
      exact bind_eq_ok_iff.mpr ⟨x, h x hx, hpairs⟩
  | cons member before ih =>
    obtain ⟨_ | name, k⟩ := member
    · cases hpairs
    · obtain ⟨x, hx, hpairs⟩ := bind_eq_ok_iff.mp hpairs
      obtain ⟨others, hothers, hpairs⟩ := bind_eq_ok_iff.mp hpairs
      exact bind_eq_ok_iff.mpr ⟨x, hx, bind_eq_ok_iff.mpr ⟨others, ih hothers, hpairs⟩⟩

theorem keeps_dictionary {d : Decoder α} {layout : Layout} (hd : d.Keeps layout) :
    (dictionary d).Keeps (.dictionary layout) := by
  intro room j j' x hvaries hx
  cases hvaries with
  | entry key before after ending h =>
    obtain ⟨pairs, hpairs, hending⟩ := bind_eq_ok_iff.mp hx
    exact bind_eq_ok_iff.mpr ⟨pairs, entries_replaced (fun x => hd _ _ _ x h) hpairs, hending⟩

end Collections

section Variants

inductive Content.Keeps : String × Option Layout → String × Content α → Prop where
  | unit (name : String) (x : α) : Keeps (name, none) (name, .unit x)
  | value (name : String) {d : Decoder α} {layout : Layout} (hd : d.Keeps layout) :
    Keeps (name, some layout) (name, .value d)

theorem Content.Keeps.name_eq {content : String × Option Layout} {decoded : String × Content α}
    (h : Content.Keeps content decoded) : content.1 = decoded.1 := by
  cases h <;> rfl

theorem lookup_of_keeps {contents : List (String × Option Layout)}
    {variants : List (String × Content α)} (h : List.Forall₂ Content.Keeps contents variants)
    {name : String} {content : Option Layout} (hname : contents.lookup name = some content) :
    ∃ decoded, variants.lookup name = some decoded ∧
      Content.Keeps (name, content) (name, decoded) := by
  induction h with
  | nil => cases hname
  | @cons head decoded _ _ hhead _ ih =>
    obtain ⟨key, found⟩ := head
    obtain ⟨_, decoded⟩ := decoded
    obtain rfl := hhead.name_eq
    rw [List.lookup_cons] at hname ⊢
    by_cases hkey : name = key
    · subst hkey
      simp only [beq_self_eq_true] at hname ⊢
      cases hname
      exact ⟨decoded, rfl, hhead⟩
    · rw [beq_false_of_ne hkey] at hname ⊢
      exact ih hname

theorem keeps_choice {contents : List (String × Option Layout)}
    {variants : List (String × Content α)} (h : List.Forall₂ Content.Keeps contents variants) :
    (choice variants).Keeps (.variants contents) := by
  intro room j j' x hvaries hx
  cases hvaries with
  | content after ending hname hcontent =>
    obtain ⟨_, hlookup, hkeeps⟩ := lookup_of_keeps h hname
    cases hkeeps with
    | value _ hd =>
      simp only [choice, hlookup, Content.decode] at hx ⊢
      obtain ⟨y, hy, hx⟩ := bind_eq_ok_iff.mp hx
      exact bind_eq_ok_iff.mpr ⟨y, hd _ _ _ _ hcontent hy, hx⟩
  | bare room hname =>
    obtain ⟨_, hlookup, hkeeps⟩ := lookup_of_keeps h hname
    cases hkeeps with
    | unit _ y =>
      simp only [choice, hlookup, Content.decode] at hx ⊢
      exact hx

theorem keeps_named (names : List (String × α)) : (named names).Keeps (.named names) := by
  refine keeps_choice ?_
  rw [List.forall₂_map_left_iff, List.forall₂_map_right_iff]
  exact List.forall₂_same.mpr fun n _ => .unit n.1 n.2

end Variants

section Records

inductive Changes (slot : Slot Layout) (room : Nat) : Option Json → Option Json → Prop where
  | same (found : Option Json) : Changes slot room found found
  | varied {j j' : Json} (h : Varies slot.content room j j') :
    Changes slot room (some j) (some j')
  | omitted {j : Json} {isDefault : Nat → Json → Prop} (hslot : slot.omissible = some isDefault)
    (h : isDefault room j) : Changes slot room (some j) none

/-- What the fields give depends on what is found for each of them, and there only up to changes
of the wording. An array keeps its length, so nothing is left out of it. -/
structure Fields.Keeps (fields : Fields α) (slots : List (Slot Layout)) : Prop where
  names : fields.names = slots.map Slot.name
  members : ∀ room members members' x,
    (∀ slot ∈ slots,
      Changes slot room (members.lookup (some slot.name)) (members'.lookup (some slot.name))) →
    fields.ofMembers room members = .ok x → fields.ofMembers room members' = .ok x
  items : ∀ room start items items' x, items.length = items'.length →
    (∀ i slot, slots[i]? = some slot → Changes slot room items[start + i]? items'[start + i]?) →
    fields.ofItems room start items = .ok x → fields.ofItems room start items' = .ok x

theorem keeps_pure (x : α) : (pure x : Fields α).Keeps [] where
  names := rfl
  members _ _ _ _ _ hx := hx
  items _ _ _ _ _ _ _ hx := hx

theorem Fields.Keeps.seq {f : Fields (α → β)} {x : Fields α} {first second : List (Slot Layout)}
    (hf : f.Keeps first) (hx : x.Keeps second) : (f <*> x).Keeps (first ++ second) where
  names := by
    rw [List.map_append, ← hf.names, ← hx.names]
    rfl
  members room members members' y hchanges heq := by
    obtain ⟨g, a, hg, ha, rfl⟩ := Placed.both_eq_ok_iff.mp heq
    have hg := hf.members _ _ _ _ (fun s hs => hchanges s (List.mem_append_left _ hs)) hg
    have ha := hx.members _ _ _ _ (fun s hs => hchanges s (List.mem_append_right _ hs)) ha
    exact Placed.both_eq_ok_iff.mpr ⟨g, a, hg, ha, rfl⟩
  items room start items items' y hlength hchanges heq := by
    obtain ⟨g, a, hg, ha, rfl⟩ := Placed.both_eq_ok_iff.mp heq
    have hcount : f.names.length = first.length := by rw [hf.names, List.length_map]
    have hg := hf.items _ _ _ _ _ hlength (fun i slot hslot => hchanges i slot (by
      rw [List.getElem?_append_left (List.getElem?_eq_some_iff.mp hslot).1, hslot])) hg
    have ha := hx.items _ _ _ _ _ hlength (fun i slot hslot => by
      rw [hcount, Nat.add_assoc]
      exact hchanges (first.length + i) slot (by
        rw [List.getElem?_append_right (Nat.le_add_right _ _), Nat.add_sub_cancel_left, hslot])) ha
    exact Placed.both_eq_ok_iff.mpr ⟨g, a, hg, ha, rfl⟩

theorem Fields.Keeps.map {fields : Fields α} {slots : List (Slot Layout)} (f : α → β)
    (h : fields.Keeps slots) : (f <$> fields).Keeps slots := (keeps_pure f).seq h

theorem lookup_eq_locate (name : String) (members : List (Option String × Json)) :
    members.lookup (some name) = (locate name members).map (·.2) := by
  induction members with
  | nil => rfl
  | cons member rest ih =>
    obtain ⟨key, j⟩ := member
    rw [List.lookup_cons, locate]
    by_cases hkey : key = some name
    · simp [hkey]
    · rw [beq_false_of_ne (Ne.symm hkey), if_neg hkey, Option.map_map]
      exact ih

/-- A field gives what is found for it, whatever its place. -/
theorem field_ofMembers_eq_ok_iff {name : String} {d : Decoder α}
    {unnamed short : Except DecodeError α} {room : Nat} {members : List (Option String × Json)}
    {x : α} : (field name d unnamed short).ofMembers room members = .ok x ↔
      (members.lookup (some name)).elim unnamed (d room) = .ok x := by
  rw [lookup_eq_locate]
  cases h : locate name members with
  | none => simp only [field, h]; exact mapError_eq_ok_iff
  | some found => simp only [field, h]; exact mapError_eq_ok_iff

theorem field_ofItems_eq_ok_iff {name : String} {d : Decoder α}
    {unnamed short : Except DecodeError α} {room start : Nat} {items : List Json} {x : α} :
    (field name d unnamed short).ofItems room start items = .ok x ↔
      items[start]?.elim short (d room) = .ok x := by
  cases h : items[start]? with
  | none => simp only [field, h]; exact mapError_eq_ok_iff
  | some j => simp only [field, h]; exact mapError_eq_ok_iff

theorem keeps_field (slot : Slot Layout) {d : Decoder α} (hd : d.Keeps slot.content)
    {unnamed short : Except DecodeError α}
    (hdefault : ∀ isDefault ∈ slot.omissible, ∀ room j x, isDefault room j → d room j = .ok x →
      unnamed = .ok x) : (field slot.name d unnamed short).Keeps [slot] where
  names := rfl
  members room members members' x hchanges hx := by
    rw [field_ofMembers_eq_ok_iff] at hx ⊢
    have hchange := hchanges slot List.mem_cons_self
    generalize members.lookup (some slot.name) = found at hx hchange
    generalize members'.lookup (some slot.name) = found' at hchange
    cases hchange with
    | same => exact hx
    | varied h => exact hd _ _ _ _ h hx
    | omitted homissible h => exact hdefault _ homissible _ _ _ h hx
  items room start items items' x hlength hchanges hx := by
    rw [field_ofItems_eq_ok_iff] at hx ⊢
    have hchange := hchanges 0 slot rfl
    have hnone : items'[start]? = none → items[start]? = none := by
      rw [List.getElem?_eq_none_iff, List.getElem?_eq_none_iff, hlength]
      exact id
    rw [Nat.add_zero] at hchange
    generalize items[start]? = found at hx hchange hnone
    generalize items'[start]? = found' at hchange hnone
    cases hchange with
    | same => exact hx
    | varied h => exact hd _ _ _ _ h hx
    | omitted => cases hnone rfl

theorem keeps_required {name : String} {d : Decoder α} {layout : Layout} (hd : d.Keeps layout) :
    (required name d).Keeps [.required name layout] :=
  keeps_field (.required name layout) hd nofun

theorem keeps_defaulted {name : String} {value : α} {d : Decoder α} {layout : Layout}
    (hd : d.Keeps layout) :
    (defaulted name value d).Keeps [.defaulted name value d layout] := by
  refine keeps_field (.defaulted name value d layout) hd fun isDefault h room j x hj hx => ?_
  cases h
  exact hj.symm.trans hx

theorem optional_eq_none_iff {d : Decoder α} {room : Nat} {j : Json} :
    optional d room j = .ok none ↔ j = .null := by
  constructor
  · intro h
    by_contra hj
    rw [optional_of_ne_null hj] at h
    obtain ⟨x, -, heq⟩ := map_eq_ok_iff.mp h
    cases heq
  · rintro rfl
    rfl

/-- Whatever the field could hold, it holds nothing where `null` stands. -/
theorem keeps_optionalField {name : String} {d : Decoder α} (e : Decoder α) {layout : Layout}
    {short : Except DecodeError (Option α)} (hd : d.Keeps layout) :
    (field name (optional d) (.ok none) short).Keeps [.optional name e layout] := by
  refine keeps_field (.optional name e layout) (keeps_optional hd)
    fun isDefault h room j x hj hx => ?_
  cases h
  rw [optional_eq_none_iff.mp hj] at hx
  exact hx

def fieldKeys (names : List String) (members : List (Option String × Json)) : List String :=
  (members.filterMap (·.1)).filter (· ∈ names)

theorem fieldKeys_cons (names : List String) (key : String) (j : Json)
    (rest : List (Option String × Json)) : fieldKeys names ((some key, j) :: rest) =
      if key ∈ names then key :: fieldKeys names rest else fieldKeys names rest := by
  by_cases h : key ∈ names <;> simp [fieldKeys, h]

theorem fieldKeys_sublist (names : List String) (member : Option String × Json)
    (rest : List (Option String × Json)) :
    (fieldKeys names rest).Sublist (fieldKeys names (member :: rest)) :=
  ((List.sublist_cons_self _ _).filterMap _).filter _

theorem mem_fieldKeys {names : List String} {members : List (Option String × Json)}
    {name : String} : name ∈ fieldKeys names members ↔
      name ∈ names ∧ ∃ j, (some name, j) ∈ members := by
  simp [fieldKeys, and_comm]

/-- No flaw is found where the object ends, every key can be read and no field is there twice. -/
theorem memberFlaw_eq_ok_iff {names : List String} {ending : Ending} {seen : List String}
    (hseen : ∀ name ∈ seen, name ∈ names) {place : Nat}
    {members : List (Option String × Json)} :
    memberFlaw names ending seen place members = .ok () ↔
      ending = .closed ∧ (∀ member ∈ members, member.1 ≠ none) ∧
        (fieldKeys names members).Nodup ∧ ∀ name ∈ fieldKeys names members, name ∉ seen := by
  induction members generalizing seen place with
  | nil => simp [memberFlaw, fieldKeys]
  | cons member rest ih =>
    obtain ⟨_ | key, j⟩ := member
    · simp [memberFlaw]
    · rw [memberFlaw, fieldKeys_cons]
      by_cases hkey : key ∈ seen
      · simp [hkey, hseen key hkey]
      · by_cases hname : key ∈ names
        · have hcons : ∀ name ∈ key :: seen, name ∈ names :=
            List.forall_mem_cons.mpr ⟨hname, hseen⟩
          simp only [hkey, hname, if_false, if_true, ih hcons]
          simp only [List.nodup_cons, List.mem_cons, not_or]
          grind
        · simp only [hkey, hname, if_false, ih hseen, List.forall_mem_cons]
          simp

theorem lookup_eq_some_iff {names : List String} {members : List (Option String × Json)}
    (hnodup : (fieldKeys names members).Nodup) {name : String} (hname : name ∈ names) {j : Json} :
    members.lookup (some name) = some j ↔ (some name, j) ∈ members := by
  induction members with
  | nil => simp
  | cons member rest ih =>
    obtain ⟨key, k⟩ := member
    rw [List.lookup_cons, List.mem_cons]
    by_cases hkey : key = some name
    · subst hkey
      rw [fieldKeys_cons, if_pos hname, List.nodup_cons, mem_fieldKeys] at hnodup
      have hrest : (some name, j) ∉ rest := fun hmem => hnodup.1 ⟨hname, j, hmem⟩
      simp [hrest, eq_comm]
    · have hrest := (fieldKeys_sublist names (key, k) rest).nodup hnodup
      have hne : (some name, j) ≠ (key, k) := fun heq => hkey (Prod.mk.inj heq).1.symm
      simp only [beq_false_of_ne (Ne.symm hkey), ih hrest, hne, false_or]

theorem checked_eq_ok_iff {check : Placed Unit} {result : Placed α} {x : α} :
    (Placed.checked check result).result = .ok x ↔ check = .ok () ∧ result = .ok x := by
  rw [Placed.result, mapError_eq_ok_iff]
  cases check <;> cases result <;> simp [Placed.checked, Placed.both, Except.map]

variable {fields : Fields α} {slots : List (Slot Layout)} {room : Nat} {ending : Ending} {x : α}

/-- The members of a closed object that can be read, no field twice among them. -/
structure Readable (slots : List (Slot Layout)) (members : List (Option String × Json)) : Prop where
  keys : ∀ member ∈ members, member.1 ≠ none
  nodup : (fieldKeys (slots.map Slot.name) members).Nodup

theorem Fields.Keeps.object_eq_ok_iff (h : fields.Keeps slots)
    {members : List (Option String × Json)} :
    record fields (room + 1) (.object members ending) = .ok x ↔
      ending = .closed ∧ Readable slots members ∧ fields.ofMembers room members = .ok x := by
  rw [record, checked_eq_ok_iff, memberFlaw_eq_ok_iff (List.forall_mem_nil _), h.names, and_assoc,
    and_assoc, and_congr_right_iff]
  intro _
  constructor
  · rintro ⟨hkeys, ⟨hnodup, -⟩, hx⟩
    exact ⟨⟨hkeys, hnodup⟩, hx⟩
  · rintro ⟨⟨hkeys, hnodup⟩, hx⟩
    exact ⟨hkeys, ⟨hnodup, fun _ _ => List.not_mem_nil⟩, hx⟩

/-- It is enough to see what happens to the keys and to what is found for each field. -/
theorem Fields.Keeps.object (h : fields.Keeps slots)
    {members members' : List (Option String × Json)}
    (hreadable : Readable slots members → Readable slots members')
    (hchanges : Readable slots members → ∀ slot ∈ slots,
      Changes slot room (members.lookup (some slot.name)) (members'.lookup (some slot.name)))
    (hx : record fields (room + 1) (.object members ending) = .ok x) :
    record fields (room + 1) (.object members' ending) = .ok x := by
  rw [h.object_eq_ok_iff] at hx ⊢
  obtain ⟨hending, hread, hx⟩ := hx
  exact ⟨hending, hreadable hread, h.members _ _ _ _ (hchanges hread) hx⟩

theorem Readable.perm {members members' : List (Option String × Json)}
    (h : Readable slots members) (hperm : members.Perm members') : Readable slots members' where
  keys member hmember := h.keys member (hperm.mem_iff.mpr hmember)
  nodup := ((hperm.filterMap _).filter _).nodup_iff.mp h.nodup

theorem Readable.lookup_perm {members members' : List (Option String × Json)}
    (h : Readable slots members) (hperm : members.Perm members') {slot : Slot Layout}
    (hslot : slot ∈ slots) :
    members.lookup (some slot.name) = members'.lookup (some slot.name) := by
  have hname := List.mem_map_of_mem (f := Slot.name) hslot
  refine Option.ext fun j => ?_
  rw [lookup_eq_some_iff h.nodup hname, lookup_eq_some_iff (h.perm hperm).nodup hname,
    hperm.mem_iff]

/-- The order of the members does not matter. -/
theorem Fields.Keeps.permuted (h : fields.Keeps slots)
    {members members' : List (Option String × Json)} (hperm : members.Perm members')
    (hx : record fields (room + 1) (.object members ending) = .ok x) :
    record fields (room + 1) (.object members' ending) = .ok x :=
  h.object (fun hread => hread.perm hperm)
    (fun hread _ hslot => hread.lookup_perm hperm hslot ▸ .same _) hx

section Members

variable {name : String} {j j' : Json} {members : List (Option String × Json)}

theorem Readable.tail {key : Option String} (h : Readable slots ((key, j) :: members)) :
    Readable slots members where
  keys member hmember := h.keys member (List.mem_cons_of_mem _ hmember)
  nodup := (fieldKeys_sublist _ _ _).nodup h.nodup

theorem lookup_tail {key : String} (h : name ≠ key) :
    ((some key, j) :: members).lookup (some name) = members.lookup (some name) := by
  rw [List.lookup_cons, beq_false_of_ne (fun heq => h (Option.some.inj heq))]

/-- A field is not found again behind its member. -/
theorem Readable.lookup_eq_none {slot : Slot Layout} (hslot : slot ∈ slots)
    (h : Readable slots ((some slot.name, j) :: members)) :
    members.lookup (some slot.name) = none := by
  have hname := List.mem_map_of_mem (f := Slot.name) hslot
  have hnodup := h.nodup
  rw [fieldKeys_cons, if_pos hname, List.nodup_cons, mem_fieldKeys] at hnodup
  refine Option.eq_none_iff_forall_ne_some.mpr fun k hk => hnodup.1 ⟨hname, k, ?_⟩
  exact (lookup_eq_some_iff h.tail.nodup hname).mp hk

variable (h : fields.Keeps slots)

include h

theorem Fields.Keeps.omitted (hdistinct : (slots.map Slot.name).Nodup) {slot : Slot Layout}
    {isDefault : Nat → Json → Prop} (hslot : slot ∈ slots)
    (homissible : slot.omissible = some isDefault) (hj : isDefault room j)
    (hx : record fields (room + 1) (.object ((some slot.name, j) :: members) ending) = .ok x) :
    record fields (room + 1) (.object members ending) = .ok x := by
  refine h.object Readable.tail (fun hread other hother => ?_) hx
  by_cases hname : other.name = slot.name
  · obtain rfl : other = slot := List.inj_on_of_nodup_map hdistinct hother hslot hname
    rw [List.lookup_cons_self, hread.lookup_eq_none hslot]
    exact .omitted homissible hj
  · rw [lookup_tail hname]
    exact .same _

theorem Fields.Keeps.added (hname : name ∉ slots.map Slot.name)
    (hx : record fields (room + 1) (.object members ending) = .ok x) :
    record fields (room + 1) (.object ((some name, j) :: members) ending) = .ok x := by
  refine h.object (fun hread => ⟨?_, ?_⟩) (fun _ slot hslot => ?_) hx
  · exact List.forall_mem_cons.mpr ⟨nofun, hread.keys⟩
  · rw [fieldKeys_cons, if_neg hname]
    exact hread.nodup
  · have hne : slot.name ≠ name := fun heq => hname (heq ▸ List.mem_map_of_mem hslot)
    rw [lookup_tail hne]
    exact .same _

theorem Fields.Keeps.member (hdistinct : (slots.map Slot.name).Nodup) {slot : Slot Layout}
    (hslot : slot ∈ slots) (hvaries : Varies slot.content room j j')
    (hx : record fields (room + 1) (.object ((some slot.name, j) :: members) ending) = .ok x) :
    record fields (room + 1) (.object ((some slot.name, j') :: members) ending) = .ok x := by
  refine h.object (fun hread => ⟨?_, ?_⟩) (fun _ other hother => ?_) hx
  · exact List.forall_mem_cons.mpr ⟨nofun, hread.tail.keys⟩
  · have hnodup := hread.nodup
    rw [fieldKeys_cons] at hnodup ⊢
    exact hnodup
  · by_cases hname : other.name = slot.name
    · obtain rfl : other = slot := List.inj_on_of_nodup_map hdistinct hother hslot hname
      rw [List.lookup_cons_self, List.lookup_cons_self]
      exact .varied hvaries
    · rw [lookup_tail hname, lookup_tail hname]
      exact .same _

theorem Fields.Keeps.place {before after : List Json} {slot : Slot Layout}
    (hslot : slots[before.length]? = some slot) (hvaries : Varies slot.content room j j')
    (hx : record fields (room + 1) (.array (before ++ j :: after) ending) = .ok x) :
    record fields (room + 1) (.array (before ++ j' :: after) ending) = .ok x := by
  have hlength : (before ++ j :: after).length = (before ++ j' :: after).length := by simp
  rw [record, checked_eq_ok_iff] at hx ⊢
  obtain ⟨hflaw, hx⟩ := hx
  rw [itemFlaw, hlength] at hflaw
  refine ⟨hflaw, h.items _ _ _ _ _ hlength (fun i other hother => ?_) hx⟩
  have hplace : ∀ (l : List Json) (k : Nat), (before ++ l)[before.length + k]? = l[k]? := by
    intro l k
    rw [List.getElem?_append_right (Nat.le_add_right _ _), Nat.add_sub_cancel_left]
  rw [Nat.zero_add]
  rcases Nat.lt_or_ge i before.length with hi | hi
  · rw [List.getElem?_append_left hi, List.getElem?_append_left hi]
    exact .same _
  · obtain ⟨k, rfl⟩ := Nat.exists_eq_add_of_le hi
    rw [hplace, hplace]
    cases k with
    | zero =>
      obtain rfl := Option.some.inj (hother.symm.trans hslot)
      exact .varied hvaries
    | succ k => exact .same _

end Members

/-- A record is decoded in one way, however it is worded. -/
theorem keeps_record {written : List (Slot Layout)} (h : fields.Keeps slots)
    (hslots : slots = written) (hdistinct : decide fields.names.Nodup = true) :
    (record fields).Keeps (.record written) := by
  subst hslots
  have hdistinct : (slots.map Slot.name).Nodup := h.names ▸ of_decide_eq_true hdistinct
  intro room j j' x hvaries hx
  -- A change of one member is seen at the front, where a permutation can bring it.
  cases hvaries with
  | permuted _ _ ending hperm => exact h.permuted hperm hx
  | omitted before after ending hslot homissible hj =>
    exact h.omitted hdistinct hslot homissible hj (h.permuted List.perm_middle hx)
  | added _ j before after ending hname =>
    exact h.permuted List.perm_middle.symm (h.added hname hx)
  | member before after ending hslot hvaries =>
    have hhead := h.member hdistinct hslot hvaries (h.permuted List.perm_middle hx)
    exact h.permuted List.perm_middle.symm hhead
  | place before after ending hslot hvaries => exact h.place hslot hvaries hx

theorem Content.Keeps.tagged {written : List (Slot Layout)} {tag : String} (h : fields.Keeps slots)
    (hslots : slots = written) (hdistinct : decide fields.names.Nodup = true) :
    Content.Keeps (tag, some (.record written)) (tag, .value (record fields)) :=
  .value tag (keeps_record h hslots hdistinct)

end Records

end ServiceCheck.Decoder
