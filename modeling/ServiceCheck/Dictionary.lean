/-!
Dictionaries that keep the order in which keys were first set. They are plain lists of pairs, so
that the recursive program types can hold them.
-/

set_option autoImplicit false

namespace ServiceCheck

abbrev Dictionary (α : Type) := List (String × α)

namespace Dictionary

variable {α : Type}

def get? (d : Dictionary α) (key : String) : Option α := d.lookup key

def contains (d : Dictionary α) (key : String) : Bool := (get? d key).isSome

def keys (d : Dictionary α) : List String := d.map (·.1)

def values (d : Dictionary α) : List α := d.map (·.2)

/-- A key that is present keeps its place and takes the new value. -/
def set : Dictionary α → String → α → Dictionary α
  | [], key, value => [(key, value)]
  | (k, v) :: rest, key, value =>
    if k = key then (k, value) :: rest else (k, v) :: set rest key value

/-- The first value stored under a key stays. -/
def setNew (d : Dictionary α) (key : String) (value : α) : Dictionary α :=
  if contains d key then d else d ++ [(key, value)]

/-- The last value of a repeated key, at the place of the first. -/
def ofList (entries : List (String × α)) : Dictionary α :=
  entries.foldl (fun d e => set d e.1 e.2) []

def push (d : Dictionary (List α)) (key : String) (value : α) : Dictionary (List α) :=
  set d key ((get? d key).getD [] ++ [value])

theorem get?_nil (key : String) : get? ([] : Dictionary α) key = none := rfl

theorem get?_cons (k : String) (v : α) (rest : Dictionary α) (key : String) :
    get? ((k, v) :: rest) key = if k = key then some v else get? rest key := by
  rw [get?, List.lookup_cons]
  by_cases h : k = key
  · simp [h]
  · rw [beq_false_of_ne (Ne.symm h), if_neg h, get?]

theorem get?_append (d e : Dictionary α) (key : String) :
    get? (d ++ e) key = (get? d key).or (get? e key) := List.lookup_append

theorem get?_eq_none_iff (d : Dictionary α) (key : String) :
    get? d key = none ↔ key ∉ keys d := by
  rw [get?, List.lookup_eq_none_iff, keys, List.mem_map, not_exists]
  exact forall_congr' fun e => by rw [not_and, bne_iff_ne, ne_comm, ne_eq]

theorem mem_of_get? {d : Dictionary α} {key : String} {value : α} (h : get? d key = some value) :
    (key, value) ∈ d := by
  obtain ⟨before, after, rfl, -⟩ := List.lookup_eq_some_iff.mp h
  exact List.mem_append_right before List.mem_cons_self

theorem get?_set_self (d : Dictionary α) (key : String) (value : α) :
    get? (set d key value) key = some value := by
  induction d with
  | nil => simp [set, get?_cons]
  | cons e rest ih =>
    obtain ⟨k, v⟩ := e
    by_cases h : k = key <;> simp [set, get?_cons, h, ih]

theorem get?_set_other (d : Dictionary α) {key other : String} (value : α) (h : other ≠ key) :
    get? (set d key value) other = get? d other := by
  induction d with
  | nil => simp [set, get?_nil, get?_cons, Ne.symm h]
  | cons e rest ih =>
    obtain ⟨k, v⟩ := e
    by_cases hk : k = key
    · subst hk
      simp [set, get?_cons, Ne.symm h]
    · by_cases ho : k = other
      · subst ho
        simp [set, get?_cons, hk]
      · simp [set, get?_cons, hk, ho, ih]

theorem get?_setNew (d : Dictionary α) (key other : String) (value : α) :
    get? (setNew d key value) other =
      (get? d other).or (if key = other then some value else none) := by
  by_cases h : contains d key
  · by_cases hk : key = other
    · subst hk
      obtain ⟨v, hv⟩ := Option.isSome_iff_exists.mp h
      simp [setNew, h, hv]
    · simp [setNew, h, hk]
  · simp [setNew, h, get?_append, get?_nil, get?_cons]

theorem get?_foldl_setNew (items : List α) (key : α → String) (d : Dictionary α) (k : String) :
    get? (items.foldl (fun d item => setNew d (key item) item) d) k =
      (get? d k).or (items.find? (key · = k)) := by
  induction items generalizing d with
  | nil => simp
  | cons item rest ih =>
    rw [List.foldl_cons, ih, get?_setNew, Option.or_assoc]
    congr 1
    by_cases h : key item = k <;> simp [h]

theorem get?_isSome_iff (d : Dictionary α) (key : String) : (get? d key).isSome ↔ key ∈ keys d := by
  rw [← Option.ne_none_iff_isSome, ne_eq, get?_eq_none_iff, Classical.not_not]

def keysOutside (d : Dictionary α) (seen : List String) : List String := (keys d).filter (· ∉ seen)

theorem mem_keysOutside {d : Dictionary α} {seen : List String} {key : String} {value : α}
    (found : get? d key = some value) (new : key ∉ seen) : key ∈ keysOutside d seen := by
  refine List.mem_filter.mpr ⟨?_, by simpa using new⟩
  rw [← get?_isSome_iff, found]
  rfl

theorem length_keysOutside_cons {d : Dictionary α} {seen : List String} {key : String}
    (h : key ∈ keysOutside d seen) :
    (keysOutside d (key :: seen)).length < (keysOutside d seen).length := by
  have hsub : keysOutside d (key :: seen) = (keysOutside d seen).filter (· ≠ key) := by
    simp only [keysOutside, List.filter_filter, List.mem_cons, not_or, Bool.decide_and]
  rw [hsub]
  exact List.length_filter_lt_length_iff_exists.mpr ⟨key, h, by simp⟩

theorem length_keysOutside_le (d : Dictionary α) (seen : List String) :
    (keysOutside d seen).length ≤ d.length :=
  Nat.le_trans (List.length_filter_le ..) (by simp [keys])

theorem get?_of_mem {d : Dictionary α} (hd : (keys d).Nodup) {key : String} {value : α}
    (h : (key, value) ∈ d) : get? d key = some value := by
  induction d with
  | nil => simp at h
  | cons e rest ih =>
    obtain ⟨k, v⟩ := e
    simp only [keys, List.map_cons, List.nodup_cons] at hd
    rcases List.mem_cons.mp h with heq | hrest
    · simp only [Prod.mk.injEq] at heq
      simp [get?_cons, heq]
    · have hk : k ≠ key := fun hk => hd.1 (hk ▸ List.mem_map.mpr ⟨_, hrest, rfl⟩)
      simp only [get?_cons, hk, if_false]
      exact ih hd.2 hrest

/-- Dictionaries without repeated keys are told apart by their keys and what is found there. -/
theorem ext_get? {d e : Dictionary α} (hd : (keys d).Nodup) (hkeys : keys d = keys e)
    (hget : ∀ key, get? d key = get? e key) : d = e := by
  induction d generalizing e with
  | nil => exact (List.map_eq_nil_iff.mp hkeys.symm).symm
  | cons x rest ih =>
    obtain ⟨k, v⟩ := x
    cases e with
    | nil => cases hkeys
    | cons y others =>
      obtain ⟨l, w⟩ := y
      obtain ⟨rfl, hrest⟩ : k = l ∧ keys rest = keys others := List.cons.inj hkeys
      obtain ⟨hnew, hnodup⟩ : k ∉ keys rest ∧ (keys rest).Nodup := List.nodup_cons.mp hd
      have hvalue : v = w := by simpa [get?_cons] using hget k
      have hfound : ∀ key, get? rest key = get? others key := by
        intro key
        by_cases hkey : k = key
        · subst hkey
          rw [(get?_eq_none_iff rest k).mpr hnew,
            (get?_eq_none_iff others k).mpr fun h => hnew (hrest ▸ h)]
        · simpa [get?_cons, hkey] using hget key
      rw [hvalue, ih hnodup hrest hfound]

theorem get?_map_pair (names : List String) (value : String → α) (name : String) :
    get? (names.map fun name => (name, value name)) name =
      if name ∈ names then some (value name) else none := by
  induction names with
  | nil => rfl
  | cons first rest ih =>
    by_cases h : first = name
    · simp [get?_cons, h]
    · simp [get?_cons, h, ih, Ne.symm h]

section Push

variable {β : Type}

theorem get?_push (d : Dictionary (List α)) (key k : String) (value : α) :
    get? (push d key value) k =
      if key = k then some ((get? d k).getD [] ++ [value]) else get? d k := by
  by_cases h : key = k
  · subst h
    rw [push, get?_set_self, if_pos rfl]
  · rw [push, get?_set_other _ _ (Ne.symm h), if_neg h]

theorem get?_foldl_push (items : List β) (key : β → String) (value : β → α)
    (d : Dictionary (List α)) (k : String) :
    get? (items.foldl (fun d item => push d (key item) (value item)) d) k =
      if items.any (key · = k) then
        some ((get? d k).getD [] ++ (items.filter (key · = k)).map value)
      else get? d k := by
  induction items generalizing d with
  | nil => simp
  | cons item rest ih =>
    rw [List.foldl_cons, ih, get?_push]
    by_cases h : key item = k
    · by_cases hrest : rest.any (key · = k)
      · simp [h, hrest]
      · have hnone : rest.filter (key · = k) = [] := by simpa using hrest
        simp [h, hrest, hnone]
    · simp [h]

theorem keys_set (d : Dictionary α) (key : String) (value : α) :
    keys (set d key value) = if key ∈ keys d then keys d else keys d ++ [key] := by
  induction d with
  | nil => simp [set, keys]
  | cons e rest ih =>
    obtain ⟨k, v⟩ := e
    by_cases h : k = key
    · simp [set, keys, h]
    · have hcons : keys ((k, v) :: rest) = k :: keys rest := rfl
      have hset : keys (set ((k, v) :: rest) key value) = k :: keys (set rest key value) := by
        simp [set, h, keys]
      rw [hset, ih, hcons]
      by_cases hmem : key ∈ keys rest <;> simp [hmem, Ne.symm h]

theorem nodup_keys_set {d : Dictionary α} (hd : (keys d).Nodup) (key : String) (value : α) :
    (keys (set d key value)).Nodup := by
  rw [keys_set]
  by_cases h : key ∈ keys d
  · rwa [if_pos h]
  · rw [if_neg h, List.nodup_append]
    refine ⟨hd, by simp, fun a ha b hb heq => h ?_⟩
    rw [← List.mem_singleton.mp hb, ← heq]
    exact ha

theorem nodup_keys_ofList (entries : List (String × α)) : (keys (ofList entries)).Nodup := by
  have hfold : ∀ d : Dictionary α, (keys d).Nodup →
      (keys (entries.foldl (fun d e => set d e.1 e.2) d)).Nodup := by
    induction entries with
    | nil => exact fun _ hd => hd
    | cons e rest ih => exact fun d hd => ih _ (nodup_keys_set hd _ _)
  exact hfold [] (by simp [keys])

theorem set_of_notMem {d : Dictionary α} {key : String} (h : key ∉ keys d) (value : α) :
    set d key value = d ++ [(key, value)] := by
  induction d with
  | nil => rfl
  | cons e rest ih =>
    simp only [keys, List.map_cons, List.mem_cons, not_or] at h
    rw [set, if_neg (Ne.symm h.1), ih h.2, List.cons_append]

theorem ofList_of_nodup {d : Dictionary α} (h : (keys d).Nodup) : ofList d = d := by
  have hfold : ∀ front : Dictionary α, (keys (front ++ d)).Nodup →
      d.foldl (fun d e => set d e.1 e.2) front = front ++ d := by
    clear h
    induction d with
    | nil => exact fun front _ => (List.append_nil front).symm
    | cons e rest ih =>
      intro front hfront
      have hnew : e.1 ∉ keys front := by
        simp only [keys, List.map_append, List.map_cons, List.nodup_append] at hfront
        exact fun hmem => hfront.2.2 _ hmem _ List.mem_cons_self rfl
      rw [List.append_cons] at hfront ⊢
      rw [List.foldl_cons, set_of_notMem hnew, ih _ hfront]
  exact hfold [] h

theorem mem_set {d : Dictionary α} {key : String} {value : α} {e : String × α}
    (h : e ∈ set d key value) : e ∈ d ∨ e = (key, value) := by
  induction d with
  | nil => exact .inr (List.mem_singleton.mp h)
  | cons first rest ih =>
    obtain ⟨k, v⟩ := first
    by_cases hk : k = key
    · rw [set, if_pos hk] at h
      rcases List.mem_cons.mp h with heq | hrest
      · exact .inr (hk ▸ heq)
      · exact .inl (List.mem_cons_of_mem _ hrest)
    · rw [set, if_neg hk] at h
      rcases List.mem_cons.mp h with heq | hrest
      · exact .inl (heq ▸ List.mem_cons_self)
      · rcases ih hrest with hold | hnew
        · exact .inl (List.mem_cons_of_mem _ hold)
        · exact .inr hnew

theorem mem_of_mem_ofList {entries : List (String × α)} {e : String × α}
    (h : e ∈ ofList entries) : e ∈ entries := by
  have hfold : ∀ d : Dictionary α, e ∈ entries.foldl (fun d e => set d e.1 e.2) d →
      e ∈ d ∨ e ∈ entries := by
    clear h
    induction entries with
    | nil => exact fun _ he => .inl he
    | cons first rest ih =>
      intro d he
      rcases ih _ he with hd | hrest
      · rcases mem_set hd with hold | hnew
        · exact .inl hold
        · exact .inr (hnew ▸ List.mem_cons_self)
      · exact .inr (List.mem_cons_of_mem _ hrest)
  exact (hfold [] h).resolve_left List.not_mem_nil

theorem nodup_keys_foldl_push (items : List β) (key : β → String) (value : β → α)
    {d : Dictionary (List α)} (hd : (keys d).Nodup) :
    (keys (items.foldl (fun d item => push d (key item) (value item)) d)).Nodup := by
  induction items generalizing d with
  | nil => exact hd
  | cons item rest ih => exact ih (nodup_keys_set hd _ _)

end Push

end Dictionary

end ServiceCheck
