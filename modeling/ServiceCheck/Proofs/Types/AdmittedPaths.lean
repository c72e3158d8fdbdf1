import Mathlib.Data.List.Basic
import ServiceCheck.Types.Admission

/-!
A type admits a path when this can be derived, rule by rule, from the definition. The search for a
derivation follows no name twice before it has used up a key. So it comes to an end, also where
links lead back to themselves, and it misses nothing: a derivation that follows a name twice has a
shorter one inside.
-/

set_option autoImplicit false

namespace ServiceCheck.TypeDefinition

variable {types : TypeMap}

/-- The definition describes a node at the path that can carry a value. -/
inductive Admits (types : TypeMap) : TypeDefinition → List String → Prop where
  | link {h : TypeHead} {x : String} {t : TypeDefinition} {keys : List String}
      (found : Dictionary.get? types x = some t) (rest : Admits types t keys) :
      Admits types (.link h x) keys
  | left {h : TypeHead} {l r : TypeDefinition} {keys : List String} (rest : Admits types l keys) :
      Admits types (.choice h l r) keys
  | right {h : TypeHead} {l r : TypeDefinition} {keys : List String} (rest : Admits types r keys) :
      Admits types (.choice h l r) keys
  | ended {h : TypeHead} {n : NativeType} {s : Option (List (String × TypeDefinition))} {u : Bool}
      (carries : n ≠ .void) : Admits types (.inline h n s u) []
  | untyped {h : TypeHead} {n : NativeType} {s : Option (List (String × TypeDefinition))}
      {key : String} {keys : List String} : Admits types (.inline h n s true) (key :: keys)
  | member {h : TypeHead} {n : NativeType} {s : Option (List (String × TypeDefinition))} {u : Bool}
      {key : String} {keys : List String} {t : TypeDefinition}
      (found : Dictionary.get? (s.getD []) key = some t) (rest : Admits types t keys) :
      Admits types (.inline h n s u) (key :: keys)

section Offers

/-- An in-line definition is reached through choices and links, none of the avoided names being
followed. -/
inductive Offers (types : TypeMap) (avoided : List String) :
    TypeDefinition → TypeDefinition → Prop where
  | inline (h : TypeHead) (n : NativeType) (s : Option (List (String × TypeDefinition)))
      (u : Bool) : Offers types avoided (.inline h n s u) (.inline h n s u)
  | left {h : TypeHead} {l r v : TypeDefinition} (rest : Offers types avoided l v) :
      Offers types avoided (.choice h l r) v
  | right {h : TypeHead} {l r v : TypeDefinition} (rest : Offers types avoided r v) :
      Offers types avoided (.choice h l r) v
  | link {h : TypeHead} {x : String} {t v : TypeDefinition} (new : x ∉ avoided)
      (found : Dictionary.get? types x = some t) (rest : Offers types avoided t v) :
      Offers types avoided (.link h x) v

/-- What is reached after a name was followed for the last time is reached without it. -/
theorem Offers.avoid {avoided : List String} {x : String} {q t v : TypeDefinition}
    (hq : Dictionary.get? types x = some q) (h : Offers types avoided t v) :
    Offers types (x :: avoided) t v ∨ Offers types (x :: avoided) q v := by
  induction h with
  | inline => exact .inl (.inline ..)
  | left _ ih => exact ih.imp_left .left
  | right _ ih => exact ih.imp_left .right
  | @link h y t v new found _ ih =>
    by_cases heq : y = x
    · subst heq
      obtain rfl : t = q := Option.some.inj (found.symm.trans hq)
      exact .inr (ih.elim (fun h => h) fun h => h)
    · exact ih.imp_left (.link (by simp [heq, new]) found)

theorem offers_inline_iff {avoided : List String} {h : TypeHead} {n : NativeType}
    {s : Option (List (String × TypeDefinition))} {u : Bool} {v : TypeDefinition} :
    Offers types avoided (.inline h n s u) v ↔ v = .inline h n s u := by
  constructor
  · intro hv
    cases hv
    rfl
  · rintro rfl
    exact .inline ..

theorem offers_choice_iff {avoided : List String} {h : TypeHead} {l r v : TypeDefinition} :
    Offers types avoided (.choice h l r) v ↔
      Offers types avoided l v ∨ Offers types avoided r v := by
  constructor
  · intro hv
    cases hv with
    | left rest => exact .inl rest
    | right rest => exact .inr rest
  · rintro (hl | hr)
    · exact .left hl
    · exact .right hr

theorem offers_link_iff {avoided : List String} {h : TypeHead} {x : String} {v : TypeDefinition} :
    Offers types avoided (.link h x) v ↔
      x ∉ avoided ∧ ∃ t, Dictionary.get? types x = some t ∧ Offers types (x :: avoided) t v := by
  constructor
  · intro hv
    cases hv with
    | link new found rest => exact ⟨new, _, found, (rest.avoid found).elim (fun h => h) fun h => h⟩
  · rintro ⟨new, t, found, hv⟩
    refine .link new found ?_
    clear found
    induction hv with
    | inline => exact .inline ..
    | left _ ih => exact .left ih
    | right _ ih => exact .right ih
    | link new' found _ ih => exact .link (fun h => new' (List.mem_cons_of_mem _ h)) found ih

end Offers

section Budget

variable {test : InlineTest}

def passes (test : InlineTest) : TypeDefinition → Bool
  | .inline _ n s u => test n (s.getD []) u
  | _ => false

/-- With a budget for all names left, exactly the offered definitions are tested. -/
theorem anyReachable_iff {budget : Nat} {followed : List String}
    (hbudget : (Dictionary.keysOutside types followed).length ≤ budget) (t : TypeDefinition) :
    anyReachable types test budget followed t = true ↔
      ∃ v, Offers types followed t v ∧ v.passes test = true := by
  induction budget generalizing followed t with
  | zero =>
    rw [anyReachable]
    induction t using anyAlternative.induct with
    | case1 h n s u => simp [anyAlternative, offers_inline_iff, passes]
    | case2 h x =>
      simp only [anyAlternative, offers_link_iff]
      constructor
      · exact nofun
      · rintro ⟨v, ⟨new, t, found, -⟩, -⟩
        have hpos := List.length_pos_of_mem (Dictionary.mem_keysOutside found new)
        omega
    | case3 h l r ihl ihr =>
      simp only [anyAlternative, Bool.or_eq_true, ihl, ihr, offers_choice_iff, or_and_right,
        exists_or]
  | succ budget ih =>
    rw [anyReachable]
    induction t using anyAlternative.induct with
    | case1 h n s u => simp [anyAlternative, offers_inline_iff, passes]
    | case2 h x =>
      simp only [anyAlternative, offers_link_iff, Bool.and_eq_true, decide_eq_true_eq]
      cases hfound : Dictionary.get? types x with
      | none => simp
      | some t =>
        by_cases new : x ∈ followed
        · simp [new]
        · have hlt := Dictionary.length_keysOutside_cons (Dictionary.mem_keysOutside hfound new)
          have hnext := @ih (x :: followed) (by omega) t
          simp [new, hnext]
    | case3 h l r ihl ihr =>
      simp only [anyAlternative, Bool.or_eq_true, ihl, ihr, offers_choice_iff, or_and_right,
        exists_or]

end Budget

def inlineTest (types : TypeMap) : List String → InlineTest
  | [], n, _, _ => n != .void
  | key :: keys, _, subTypes, isOpen =>
    isOpen ||
      match Dictionary.get? subTypes key with
      | some sub => sub.admits types keys
      | none => false

theorem admits_eq (keys : List String) (t : TypeDefinition) :
    t.admits types keys = anyReachable types (inlineTest types keys) types.length [] t := by
  cases keys <;> rfl

theorem admits_iff_offers (keys : List String) (t : TypeDefinition) :
    t.admits types keys = true ↔
      ∃ v, Offers types [] t v ∧ v.passes (inlineTest types keys) = true := by
  rw [admits_eq, anyReachable_iff (Dictionary.length_keysOutside_le types [])]

theorem Admits.of_offers {keys avoided : List String} {t v : TypeDefinition}
    (h : Offers types avoided t v) (hv : Admits types v keys) : Admits types t keys := by
  induction h with
  | inline => exact hv
  | left _ ih => exact .left (ih hv)
  | right _ ih => exact .right (ih hv)
  | link _ found _ ih => exact .link found (ih hv)

theorem Admits.admits {keys : List String} {t : TypeDefinition} (h : Admits types t keys) :
    t.admits types keys = true := by
  induction h with
  | link found _ ih =>
    obtain ⟨v, hv, hpasses⟩ := (admits_iff_offers ..).mp ih
    exact (admits_iff_offers ..).mpr ⟨v, .link List.not_mem_nil found hv, hpasses⟩
  | left _ ih =>
    obtain ⟨v, hv, hpasses⟩ := (admits_iff_offers ..).mp ih
    exact (admits_iff_offers ..).mpr ⟨v, .left hv, hpasses⟩
  | right _ ih =>
    obtain ⟨v, hv, hpasses⟩ := (admits_iff_offers ..).mp ih
    exact (admits_iff_offers ..).mpr ⟨v, .right hv, hpasses⟩
  | ended carries =>
    exact (admits_iff_offers ..).mpr ⟨_, .inline .., by simpa [passes, inlineTest]⟩
  | untyped => exact (admits_iff_offers ..).mpr ⟨_, .inline .., rfl⟩
  | member found _ ih =>
    exact (admits_iff_offers ..).mpr ⟨_, .inline .., by simp [passes, inlineTest, found, ih]⟩

theorem Admits.of_admits {keys : List String} {t : TypeDefinition}
    (h : t.admits types keys = true) : Admits types t keys := by
  induction keys generalizing t with
  | nil =>
    obtain ⟨v, hv, hpasses⟩ := (admits_iff_offers ..).mp h
    cases v with
    | inline h n s u => exact .of_offers hv (.ended (by simpa [passes, inlineTest] using hpasses))
    | link | choice => cases hpasses
  | cons key keys ih =>
    obtain ⟨v, hv, hpasses⟩ := (admits_iff_offers ..).mp h
    cases v with
    | inline h n s u =>
      refine .of_offers hv ?_
      simp only [passes, inlineTest, Bool.or_eq_true] at hpasses
      rcases hpasses with rfl | hmember
      · exact .untyped
      · cases hfound : Dictionary.get? (s.getD []) key with
        | none => simp [hfound] at hmember
        | some t =>
          rw [hfound] at hmember
          exact .member hfound (ih hmember)
    | link | choice => cases hpasses

/-- The course of a search that nothing bounds, with the names followed since the last key. The
left side of a choice comes first, and the right side only after a failure. -/
inductive Search (types : TypeMap) :
    List String → List String → TypeDefinition → Bool → Prop where
  | repeated {followed keys : List String} {h : TypeHead} {x : String} (seen : x ∈ followed) :
      Search types followed keys (.link h x) false
  | dangling {followed keys : List String} {h : TypeHead} {x : String} (new : x ∉ followed)
      (missing : Dictionary.get? types x = none) : Search types followed keys (.link h x) false
  | link {followed keys : List String} {h : TypeHead} {x : String} {t : TypeDefinition}
      {answer : Bool} (new : x ∉ followed) (found : Dictionary.get? types x = some t)
      (rest : Search types (x :: followed) keys t answer) :
      Search types followed keys (.link h x) answer
  | left {followed keys : List String} {h : TypeHead} {l r : TypeDefinition}
      (found : Search types followed keys l true) : Search types followed keys (.choice h l r) true
  | right {followed keys : List String} {h : TypeHead} {l r : TypeDefinition} {answer : Bool}
      (failed : Search types followed keys l false) (rest : Search types followed keys r answer) :
      Search types followed keys (.choice h l r) answer
  | ended {followed : List String} {h : TypeHead} {n : NativeType}
      {s : Option (List (String × TypeDefinition))} {u : Bool} :
      Search types followed [] (.inline h n s u) (n != .void)
  | untyped {followed keys : List String} {h : TypeHead} {n : NativeType}
      {s : Option (List (String × TypeDefinition))} {key : String} :
      Search types followed (key :: keys) (.inline h n s true) true
  | absent {followed keys : List String} {h : TypeHead} {n : NativeType}
      {s : Option (List (String × TypeDefinition))} {key : String}
      (missing : Dictionary.get? (s.getD []) key = none) :
      Search types followed (key :: keys) (.inline h n s false) false
  | member {followed keys : List String} {h : TypeHead} {n : NativeType}
      {s : Option (List (String × TypeDefinition))} {key : String} {t : TypeDefinition}
      {answer : Bool} (found : Dictionary.get? (s.getD []) key = some t)
      (rest : Search types [] keys t answer) :
      Search types followed (key :: keys) (.inline h n s false) answer

/-- Every step of a search uses up a key, or follows a new name, or goes on to a part of the
definition. -/
theorem Search.exists_answer (types : TypeMap) (followed keys : List String) (t : TypeDefinition) :
    ∃ answer, Search types followed keys t answer := by
  match t, keys with
  | .link h x, keys =>
    by_cases new : x ∈ followed
    · exact ⟨false, .repeated new⟩
    · cases found : Dictionary.get? types x with
      | none => exact ⟨false, .dangling new found⟩
      | some t =>
        have hlt := Dictionary.length_keysOutside_cons (Dictionary.mem_keysOutside found new)
        obtain ⟨answer, hanswer⟩ := exists_answer types (x :: followed) keys t
        exact ⟨answer, .link new found hanswer⟩
  | .choice h l r, keys =>
    obtain ⟨first, hfirst⟩ := exists_answer types followed keys l
    cases first with
    | true => exact ⟨true, .left hfirst⟩
    | false =>
      obtain ⟨answer, hanswer⟩ := exists_answer types followed keys r
      exact ⟨answer, .right hfirst hanswer⟩
  | .inline h n s u, [] => exact ⟨_, .ended⟩
  | .inline h n s true, key :: keys => exact ⟨true, .untyped⟩
  | .inline h n s false, key :: keys =>
    cases found : Dictionary.get? (s.getD []) key with
    | none => exact ⟨false, .absent found⟩
    | some t =>
      obtain ⟨answer, hanswer⟩ := exists_answer types [] keys t
      exact ⟨answer, .member found hanswer⟩
termination_by (keys.length, (Dictionary.keysOutside types followed).length, sizeOf t)

/-- A search answers what the budgeted one answers whose budget is for all names left. -/
theorem Search.eq_anyReachable {followed keys : List String} {t : TypeDefinition} {answer : Bool}
    (h : Search types followed keys t answer) {budget : Nat}
    (hbudget : (Dictionary.keysOutside types followed).length ≤ budget) :
    anyReachable types (inlineTest types keys) budget followed t = answer := by
  induction h generalizing budget with
  | repeated seen => cases budget <;> simp [anyReachable, anyAlternative, seen]
  | dangling new missing => cases budget <;> simp [anyReachable, anyAlternative, missing]
  | link new found _ ih =>
    have hlt := Dictionary.length_keysOutside_cons (Dictionary.mem_keysOutside found new)
    obtain ⟨budget, rfl⟩ : ∃ n, budget = n + 1 := ⟨budget - 1, by omega⟩
    have hrest := @ih budget (by omega)
    simp [anyReachable, anyAlternative, new, found, hrest]
  | left _ ih =>
    have hleft := ih hbudget
    cases budget <;> simp_all [anyReachable, anyAlternative]
  | right _ _ ihl ihr =>
    have hleft := ihl hbudget
    have hright := ihr hbudget
    cases budget <;> simp_all [anyReachable, anyAlternative]
  | ended => cases budget <;> rfl
  | untyped => cases budget <;> rfl
  | absent missing => cases budget <;> simp [anyReachable, anyAlternative, inlineTest, missing]
  | member found _ ih =>
    have hrest := ih (Dictionary.length_keysOutside_le types [])
    rw [← admits_eq] at hrest
    cases budget <;> simp [anyReachable, anyAlternative, inlineTest, found, hrest]

/-- The search ends for every map, definition and path, with one answer, which is yes exactly where
the path can be derived. -/
theorem search_ends_and_admits_iff (types : TypeMap) (keys : List String) (t : TypeDefinition) :
    (∀ answer, Search types [] keys t answer ↔ answer = t.admits types keys) ∧
      (t.admits types keys = true ↔ Admits types t keys) := by
  have hanswers : ∀ answer, Search types [] keys t answer → answer = t.admits types keys := by
    intro answer hsearch
    rw [admits_eq, hsearch.eq_anyReachable (Dictionary.length_keysOutside_le types [])]
  obtain ⟨found, hfound⟩ := Search.exists_answer types [] keys t
  refine ⟨fun answer => ⟨hanswers answer, ?_⟩, ⟨.of_admits, fun h => h.admits⟩⟩
  rintro rfl
  rwa [← hanswers found hfound]

end ServiceCheck.TypeDefinition
