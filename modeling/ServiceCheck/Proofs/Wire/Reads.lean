import ServiceCheck.Proofs.Json.Reread
import ServiceCheck.Wire.TypeDefinition
import Mathlib.Data.List.Nodup

/-!
Decoders that read a value from its written form. The property goes from the decoders of the parts
to the decoder of the whole, one lemma for each way of putting decoders together.
-/

set_option autoImplicit false

namespace ServiceCheck

namespace Json

theorem itemsDepth_le_iff {items : List Json} {room : Nat} :
    itemsDepth items ≤ room ↔ ∀ j ∈ items, j.depth ≤ room := by
  induction items with
  | nil => simp [itemsDepth]
  | cons j js ih => rw [itemsDepth, Nat.max_le, ih, List.forall_mem_cons]

theorem membersDepth_le_iff {members : List (String × Json)} {room : Nat} :
    membersDepth (members.map fun m => (some m.1, m.2)) ≤ room ↔
      ∀ m ∈ members, m.2.depth ≤ room := by
  induction members with
  | nil => simp [membersDepth]
  | cons m ms ih => rw [List.map_cons, membersDepth, Nat.max_le, ih, List.forall_mem_cons]

theorem exists_of_depth_list_le {items : List Json} {room : Nat} (h : (list items).depth ≤ room) :
    ∃ rest, room = rest + 1 ∧ ∀ j ∈ items, j.depth ≤ rest := by
  simp only [list, depth] at h
  exact ⟨room - 1, by omega, itemsDepth_le_iff.mp (by omega)⟩

theorem exists_of_depth_record_le {members : List (String × Json)} {room : Nat}
    (h : (record members).depth ≤ room) :
    ∃ rest, room = rest + 1 ∧ ∀ m ∈ members, m.2.depth ≤ rest := by
  simp only [record, depth] at h
  exact ⟨room - 1, by omega, membersDepth_le_iff.mp (by omega)⟩

end Json

namespace Decoder

variable {α β : Type} {bound : Nat} {j : Json} {x : α}

/-- The value is read from its written form in any room that is below the bound and deep enough. -/
structure Reads (bound : Nat) (d : Decoder α) (j : Json) (x : α) : Prop where
  whole : j.Whole
  read : ∀ room < bound, j.depth ≤ room → d room j = .ok x

theorem Reads.mono {d : Decoder α} {lower : Nat} (h : d.Reads bound j x) (hle : lower ≤ bound) :
    d.Reads lower j x where
  whole := h.whole
  read room hroom hdepth := h.read room (Nat.lt_of_lt_of_le hroom hle) hdepth

/-- Of decoders for each depth, the one for the room at hand. -/
theorem reads_unbounded {d : Nat → Decoder α} (h : ∀ n, (d n).Reads n j x) (bound : Nat) :
    Reads bound (fun room j => d (room + 1) room j) j x where
  whole := (h 0).whole
  read room _ hdepth := (h (room + 1)).read room (Nat.lt_succ_self room) hdepth

theorem Reads.map {d : Decoder α} (f : α → β) (h : d.Reads bound j x) :
    Reads bound (fun room j => (d room j).map f) j (f x) where
  whole := h.whole
  read room hroom hdepth := by rw [h.read room hroom hdepth]; rfl

theorem reads_string (s : String) : string.Reads bound (Json.text s) s where
  whole := .string s
  read _ _ _ := rfl

theorem reads_bool (b : Bool) : bool.Reads bound (.bool b) b where
  whole := .bool b
  read _ _ _ := rfl

theorem reads_double {x : Double} (h : Double.ofNumeral? x.numeral = some x) :
    double.Reads bound (Json.double x) x where
  whole := .number x.numeral
  read _ _ _ := by simp only [double, Json.double, h]

theorem integer_int {low high i : Int} (room : Nat) (hlow : low ≤ i) (hhigh : i ≤ high)
    (hleast : -0x8000000000000000 ≤ low) (hgreatest : high < 0x10000000000000000) :
    integer low high room (Json.int i) = .ok i := by
  have hint := Numeral.toInt?_ofInt (show -0x8000000000000000 ≤ i by omega)
    (show i < 0x10000000000000000 by omega)
  simp only [integer, Json.int, hint, hlow, hhigh, and_self, if_true]

theorem reads_int32 (i : Int32) : int32.Reads bound (Json.int i.toInt) i where
  whole := .number _
  read room _ _ := by
    rw [int32, integer_int room i.minValue_le_toInt i.toInt_le (by decide) (by decide)]
    exact congrArg Except.ok (Int32.ofInt_toInt i)

theorem reads_int64 (i : Int64) : int64.Reads bound (Json.int i.toInt) i where
  whole := .number _
  read room _ _ := by
    rw [int64, integer_int room i.minValue_le_toInt i.toInt_le (by decide) (by decide)]
    exact congrArg Except.ok (Int64.ofInt_toInt i)

theorem reads_uint32 (n : UInt32) : uint32.Reads bound (Json.int n.toNat) n where
  whole := .number _
  read room _ _ := by
    have hlt := n.toNat_lt_size
    rw [uint32, integer_int room (Int.natCast_nonneg _) (by omega) (by decide) (by decide)]
    exact congrArg Except.ok (UInt32.ofNat_toNat ..)

section Collections

variable {toJson : α → Json} {d : Decoder α}

theorem optional_of_ne_null (h : j ≠ .null) (room : Nat) :
    optional d room j = (d room j).map some := by
  cases j <;> first | rfl | exact absurd rfl h

theorem reads_optional {o : Option α} (h : ∀ x ∈ o, d.Reads bound (toJson x) x)
    (hnull : ∀ x, toJson x ≠ .null) :
    (optional d).Reads bound (Json.optional (o.map toJson)) o := by
  cases o with
  | none => exact ⟨.null, fun _ _ _ => rfl⟩
  | some x =>
    have hx := h x rfl
    refine ⟨hx.whole, fun room hroom hdepth => ?_⟩
    show optional d room (toJson x) = _
    rw [optional_of_ne_null (hnull x), hx.read room hroom hdepth]
    rfl

theorem mapM_eq_ok {room : Nat} {xs : List α} (h : ∀ x ∈ xs, d room (toJson x) = .ok x) :
    (xs.map toJson).mapM (d room) = .ok xs := by
  induction xs with
  | nil => rfl
  | cons x xs ih =>
    rw [List.map_cons, List.mapM_cons, h x List.mem_cons_self,
      ih fun y hy => h y (List.mem_cons_of_mem _ hy)]
    rfl

theorem reads_list {xs : List α} (h : ∀ x ∈ xs, d.Reads bound (toJson x) x) :
    (list d).Reads bound (Json.list (xs.map toJson)) xs where
  whole := .list fun j hj => by
    obtain ⟨x, hx, rfl⟩ := List.mem_map.mp hj
    exact (h x hx).whole
  read room hroom hdepth := by
    obtain ⟨rest, rfl, hdepths⟩ := Json.exists_of_depth_list_le hdepth
    have hread := mapM_eq_ok fun x hx =>
      (h x hx).read rest (by omega) (hdepths _ (List.mem_map_of_mem hx))
    rw [Json.list, list, hread]
    rfl

theorem reads_pair {e : Decoder β} {k : Json} {y : β} (hx : d.Reads bound j x)
    (hy : e.Reads bound k y) : (pair d e).Reads bound (Json.list [j, k]) (x, y) where
  whole := .list (by simp [hx.whole, hy.whole])
  read _ _ hdepth := by
    obtain ⟨rest, rfl, hdepths⟩ := Json.exists_of_depth_list_le hdepth
    have hx := hx.read rest (by omega) (hdepths j (by simp))
    have hy := hy.read rest (by omega) (hdepths k (by simp))
    simp only [Json.list, pair, hx, hy]
    rfl

theorem entries_eq_ok {m : Dictionary α} {room : Nat} (h : ∀ e ∈ m, d room (toJson e.2) = .ok e.2) :
    entries d room (m.map fun e => (some e.1, toJson e.2)) = .ok m := by
  induction m with
  | nil => rfl
  | cons e m ih =>
    rw [List.map_cons, entries, h e List.mem_cons_self,
      ih fun e he => h e (List.mem_cons_of_mem _ he)]
    rfl

theorem reads_dictionary {m : Dictionary α} (h : ∀ e ∈ m, d.Reads bound (toJson e.2) e.2)
    (hnodup : (Dictionary.keys m).Nodup) :
    (dictionary d).Reads bound (Json.dictionary (m.map fun e => (e.1, toJson e.2))) m where
  whole := .record fun member hmember => by
    obtain ⟨e, he, rfl⟩ := List.mem_map.mp hmember
    exact (h e he).whole
  read room hroom hdepth := by
    obtain ⟨rest, rfl, hdepths⟩ := Json.exists_of_depth_record_le hdepth
    have hread := entries_eq_ok fun e he =>
      (h e he).read rest (by omega) (hdepths _ (List.mem_map_of_mem he))
    rw [Json.dictionary, Json.record, dictionary, List.map_map]
    show (entries d rest (m.map fun e => (some e.1, toJson e.2)) >>= _) = _
    rw [hread]
    exact congrArg Except.ok (Dictionary.ofList_of_nodup hnodup)

end Collections

section Variants

variable {variants : List (String × Content α)} {tag : String}

theorem reads_unit (h : variants.lookup tag = some (.unit x)) :
    (choice variants).Reads bound (Json.text tag) x where
  whole := .string tag
  read room _ _ := by simp only [Json.text, choice, h]

theorem reads_tagged {d : Decoder α} (h : variants.lookup tag = some (.value d))
    (hd : d.Reads bound j x) : (choice variants).Reads (bound + 1) (Json.tagged tag j) x where
  whole := .record (by simp [hd.whole])
  read room hroom hdepth := by
    obtain ⟨rest, rfl, hdepths⟩ := Json.exists_of_depth_record_le hdepth
    have hread := hd.read rest (by omega) (hdepths (tag, j) (by simp))
    simp only [Json.tagged, Json.record, List.map_cons, List.map_nil, choice, h, Content.decode,
      hread]
    rfl

/-- A table with distinct names serves for both directions. -/
theorem reads_named [DecidableEq α] {names : List (String × α)}
    (hnodup : (names.map (·.1)).Nodup) (hx : x ∈ names.map (·.2)) :
    (named names).Reads bound (Json.text (nameIn names x)) x := by
  obtain ⟨e, hfind⟩ : ∃ e, names.find? (·.2 = x) = some e := by
    obtain ⟨e, he, rfl⟩ := List.mem_map.mp hx
    exact Option.isSome_iff_exists.mp (List.find?_isSome.mpr ⟨e, he, by simp⟩)
  obtain ⟨name, y⟩ := e
  obtain rfl : y = x := by simpa using List.find?_some hfind
  have hname : nameIn names y = name := by rw [nameIn, hfind]; rfl
  rw [hname]
  refine reads_unit
    (Dictionary.get?_of_mem ?_ (List.mem_map_of_mem (List.mem_of_find?_eq_some hfind)))
  rw [Dictionary.keys, List.map_map]
  exact hnodup

end Variants

/-- The fields of a record are read from members that stand somewhere among distinct ones. -/
structure Fields.Reads (bound : Nat) (fields : Fields α) (members : List (String × Json)) (x : α) :
    Prop where
  names : members.map (·.1) = fields.names
  whole : ∀ m ∈ members, m.2.Whole
  read : ∀ room < bound, (∀ m ∈ members, m.2.depth ≤ room) →
    ∀ all : List (String × Json), (all.map (·.1)).Nodup → members ⊆ all →
      fields.ofMembers room (all.map fun m => (some m.1, m.2)) = .ok x

section Fields

variable {name : String} {d : Decoder α}

theorem locate_of_mem {all : List (String × Json)} (hnodup : (all.map (·.1)).Nodup)
    (h : (name, j) ∈ all) : ∃ place, locate name (all.map fun m => (some m.1, m.2)) =
      some (place, j) := by
  induction all with
  | nil => cases h
  | cons m rest ih =>
    obtain ⟨key, k⟩ := m
    rw [List.map_cons, List.nodup_cons] at hnodup
    rcases List.mem_cons.mp h with heq | hrest
    · cases heq
      exact ⟨0, by simp [locate]⟩
    · have hne : key ≠ name := by
        rintro rfl
        exact hnodup.1 (List.mem_map.mpr ⟨_, hrest, rfl⟩)
      obtain ⟨place, hplace⟩ := ih hnodup.2 hrest
      exact ⟨place + 1, by simp [locate, hne, hplace]⟩

theorem reads_field {unnamed short : Except DecodeError α} (h : d.Reads bound j x) :
    (field name d unnamed short).Reads bound [(name, j)] x where
  names := rfl
  whole := by simp [h.whole]
  read room hroom hdepth all hnodup hall := by
    obtain ⟨place, hplace⟩ := locate_of_mem hnodup (hall List.mem_cons_self)
    have hread := h.read room hroom (hdepth _ List.mem_cons_self)
    simp only [field, hplace, hread]
    rfl

theorem reads_pure (bound : Nat) (x : α) : (pure x : Fields α).Reads bound [] x where
  names := rfl
  whole := nofun
  read _ _ _ _ _ _ := rfl

theorem Fields.Reads.seq {f : Fields (α → β)} {fields : Fields α} {g : α → β}
    {first second : List (String × Json)} (hf : f.Reads bound first g)
    (hx : fields.Reads bound second x) : (f <*> fields).Reads bound (first ++ second) (g x) where
  names := by
    rw [List.map_append, hf.names, hx.names]
    rfl
  whole m hm := (List.mem_append.mp hm).elim (hf.whole m) (hx.whole m)
  read room hroom hdepth all hnodup hall := by
    obtain ⟨hfirst, hsecond⟩ := List.append_subset.mp hall
    have hg := hf.read room hroom (fun m hm => hdepth m (List.mem_append_left _ hm)) all hnodup
      hfirst
    have hy := hx.read room hroom (fun m hm => hdepth m (List.mem_append_right _ hm)) all hnodup
      hsecond
    show Placed.both _ _ = _
    rw [hg, hy]
    rfl

theorem Fields.Reads.field {f : Fields (α → β)} {g : α → β} {members : List (String × Json)}
    {unnamed short : Except DecodeError α} (hf : f.Reads bound members g)
    (h : d.Reads bound j x) :
    (f <*> Decoder.field name d unnamed short).Reads bound (members ++ [(name, j)]) (g x) :=
  hf.seq (reads_field h)

theorem memberFlaw_eq_ok {names : List String} {all : List (String × Json)} {seen : List String}
    (hnodup : (all.map (·.1)).Nodup) (hseen : ∀ m ∈ all, m.1 ∉ seen) (place : Nat) :
    memberFlaw names .closed seen place (all.map fun m => (some m.1, m.2)) = .ok () := by
  induction all generalizing seen place with
  | nil => rfl
  | cons m rest ih =>
    rw [List.map_cons, List.nodup_cons] at hnodup
    rw [List.map_cons, memberFlaw, if_neg (hseen m List.mem_cons_self)]
    refine ih hnodup.2 (fun m' hm' => ?_) _
    have hne : m'.1 ≠ m.1 := fun heq => hnodup.1 (heq ▸ List.mem_map_of_mem hm')
    have hold := hseen m' (List.mem_cons_of_mem _ hm')
    split
    · exact List.not_mem_cons_of_ne_of_not_mem hne hold
    · exact hold

theorem Fields.Reads.record {fields : Fields α} {members : List (String × Json)}
    (h : fields.Reads bound members x) (hdistinct : decide fields.names.Nodup = true) :
    (Decoder.record fields).Reads bound (Json.record members) x where
  whole := .record h.whole
  read room hroom hdepth := by
    obtain ⟨rest, rfl, hdepths⟩ := Json.exists_of_depth_record_le hdepth
    have hnodup : (members.map (·.1)).Nodup := h.names ▸ of_decide_eq_true hdistinct
    have hread := h.read rest (by omega) hdepths members hnodup (List.Subset.refl _)
    have hflaw : memberFlaw fields.names .closed [] 0 (members.map fun m => (some m.1, m.2)) =
        .ok () := memberFlaw_eq_ok hnodup (fun _ _ => List.not_mem_nil) 0
    rw [Json.record, Decoder.record, hread, hflaw]
    rfl

theorem Fields.Reads.tagged {fields : Fields α} {members : List (String × Json)}
    {variants : List (String × Content α)} {tag : String} (h : fields.Reads bound members x)
    (hvariant : variants.lookup tag = some (.value (Decoder.record fields)))
    (hdistinct : decide fields.names.Nodup = true) :
    (choice variants).Reads (bound + 1) (Json.tagged tag (Json.record members)) x :=
  reads_tagged hvariant (h.record hdistinct)

end Fields

end Decoder

end ServiceCheck
