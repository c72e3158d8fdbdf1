import ServiceCheck.Proofs.Json.Tokens

set_option autoImplicit false

namespace ServiceCheck.Json

mutual

def depth : Json → Nat
  | .array items _ => 1 + itemsDepth items
  | .object members _ => 1 + membersDepth members
  | _ => 0

def itemsDepth : List Json → Nat
  | [] => 0
  | j :: js => max j.depth (itemsDepth js)

def membersDepth : List (Option String × Json) → Nat
  | [] => 0
  | (_, j) :: ms => max j.depth (membersDepth ms)

end

/-- Nothing of the value is torn, broken or unreadable. -/
inductive Whole : Json → Prop where
  | null : Whole .null
  | bool (value : Bool) : Whole (.bool value)
  | number (value : Numeral) : Whole (.number value)
  | string (value : String) : Whole (text value)
  | list {items : List Json} (h : ∀ j ∈ items, Whole j) : Whole (list items)
  | record {members : List (String × Json)} (h : ∀ m ∈ members, Whole m.2) :
    Whole (record members)

theorem write_number (n : Numeral) (rest : List Char) : write (.number n) rest = n.chars ++ rest :=
  rfl

theorem write_text (s : String) (rest : List Char) : write (text s) rest = writeString s rest := rfl

theorem write_array (items : List Json) (ending : Ending) (rest : List Char) :
    write (.array items ending) rest = '[' :: writeItems items (writeEnd ']' ending rest) := rfl

theorem write_object (members : List (Option String × Json)) (ending : Ending)
    (rest : List Char) : write (.object members ending) rest =
      '\x7b' :: writeMembers members (writeEnd '\x7d' ending rest) := rfl

theorem writeItems_cons (j k : Json) (js : List Json) (rest : List Char) :
    writeItems (j :: k :: js) rest = write j (',' :: writeItems (k :: js) rest) := by
  rw [writeItems]
  exact nofun

theorem writeMembers_cons (key : Option String) (j : Json) (m : Option String × Json)
    (ms : List (Option String × Json)) (rest : List Char) :
    writeMembers ((key, j) :: m :: ms) rest =
      writeString (key.getD "") (':' :: write j (',' :: writeMembers (m :: ms) rest)) := by
  rw [writeMembers]
  exact nofun

theorem writeString_append (s : String) (rest : List Char) :
    writeString s rest = writeString s [] ++ rest := by
  simp [writeString]

mutual

/-- The text of a value does not depend on what follows it. -/
theorem write_append : ∀ (j : Json) (rest : List Char), write j rest = write j [] ++ rest
  | .null, _ | .bool true, _ | .bool false, _ | .broken, _ => rfl
  | .number n, rest => by rw [write_number, write_number, List.append_nil]
  | .string s, rest => writeString_append _ rest
  | .array items ending, rest => by
    rw [write_array, write_array, writeItems_append, writeItems_append items (writeEnd _ _ [])]
    cases ending <;> simp [writeEnd]
  | .object members ending, rest => by
    rw [write_object, write_object, writeMembers_append,
      writeMembers_append members (writeEnd _ _ [])]
    cases ending <;> simp [writeEnd]

theorem writeItems_append : ∀ (items : List Json) (rest : List Char),
    writeItems items rest = writeItems items [] ++ rest
  | [], _ => rfl
  | [j], rest => by rw [writeItems, writeItems, write_append]
  | j :: k :: js, rest => by
    rw [writeItems_cons, writeItems_cons, write_append, writeItems_append (k :: js),
      write_append j (_ :: writeItems _ []), List.append_assoc, List.cons_append]

theorem writeMembers_append : ∀ (members : List (Option String × Json)) (rest : List Char),
    writeMembers members rest = writeMembers members [] ++ rest
  | [], _ => rfl
  | [(key, j)], rest => by
    rw [writeMembers, writeMembers, writeString_append, write_append,
      writeString_append _ (_ :: write _ []), List.append_assoc, List.cons_append]
  | (key, j) :: m :: ms, rest => by
    rw [writeMembers_cons, writeMembers_cons, writeString_append, write_append,
      writeMembers_append (m :: ms), writeString_append _ (_ :: write _ _),
      write_append j (_ :: writeMembers _ [])]
    simp

end

/-- No other value, blank or bracket is mistaken for the front of a number. -/
theorem front_ne_of_number {c : Char} (h : c = '-' ∨ c.isDigit) :
    c ∉ [' ', '\t', '\n', '\r', ']', 'n', 't', 'f', '"', '[', '\x7b'] := by
  intro hc
  rcases h with rfl | h
  · revert hc
    decide
  · simp only [List.mem_cons, List.not_mem_nil, or_false] at hc
    rcases hc with rfl | rfl | rfl | rfl | rfl | rfl | rfl | rfl | rfl | rfl | rfl <;> cases h

/-- No value starts with a blank, and none with the end of an array. -/
theorem Whole.exists_write_eq_cons {j : Json} (h : j.Whole) (rest : List Char) :
    ∃ c cs, write j rest = c :: cs ∧ isBlank c = false ∧ c ≠ ']' := by
  cases h with
  | null => exact ⟨_, _, rfl, by decide⟩
  | bool value => cases value <;> exact ⟨_, _, rfl, by decide⟩
  | number n =>
    obtain ⟨c, cs, hcs, hc⟩ := exists_chars_eq_cons n
    have hfront := front_ne_of_number hc
    refine ⟨c, cs ++ rest, by rw [write_number, hcs, List.cons_append], ?_⟩
    simp only [List.mem_cons, List.not_mem_nil, or_false, not_or] at hfront
    simp [isBlank, hfront]
  | string s => exact ⟨_, _, rfl, by decide⟩
  | list h => exact ⟨_, _, rfl, by decide⟩
  | record h => exact ⟨_, _, rfl, by decide⟩

theorem Whole.exists_writeItems_eq_cons {j : Json} (h : j.Whole) (js : List Json)
    (rest : List Char) :
    ∃ c cs, writeItems (j :: js) rest = c :: cs ∧ isBlank c = false ∧ c ≠ ']' := by
  cases js with
  | nil => exact h.exists_write_eq_cons _
  | cons k js =>
    rw [writeItems_cons]
    exact h.exists_write_eq_cons _

theorem skipBlanks_cons {c : Char} (h : isBlank c = false) (cs : List Char) :
    skipBlanks (c :: cs) = c :: cs := by
  simp [skipBlanks, h]

/-- Reading takes the text of the value off the front, given as many steps as the text is long. -/
def Rereads (j : Json) : Prop := ∀ n rest, EndsNumeral rest → (write j []).length ≤ n →
  readValue n (write j rest) = (j, some rest)

theorem readValue_of_readNumeral {c : Char} {cs rest : List Char} {n : Numeral}
    (hc : c = '-' ∨ c.isDigit) (hread : readNumeral (c :: cs) = some (n, rest)) (steps : Nat) :
    readValue (steps + 1) (c :: cs) = (.number n, some rest) := by
  have hfront := front_ne_of_number hc
  simp only [List.mem_cons, List.not_mem_nil, or_false, not_or] at hfront
  obtain ⟨hspace, htab, hnewline, hreturn, -, hn, ht, hf, hquote, harray, hobject⟩ := hfront
  have hblank : isBlank c = false := by simp [isBlank, hspace, htab, hnewline, hreturn]
  rw [readValue, skipBlanks_cons hblank]
  split
  · exact absurd (List.cons.inj ‹_›).1 hn
  · exact absurd (List.cons.inj ‹_›).1 ht
  · exact absurd (List.cons.inj ‹_›).1 hf
  · exact absurd (List.cons.inj ‹_›).1 hquote
  · exact absurd (List.cons.inj ‹_›).1 harray
  · exact absurd (List.cons.inj ‹_›).1 hobject
  · rw [hread]

theorem readValue_number (n : Numeral) (steps : Nat) {rest : List Char} (h : EndsNumeral rest) :
    readValue (steps + 1) (n.chars ++ rest) = (.number n, some rest) := by
  have hread := readNumeral_chars h n
  obtain ⟨c, cs, hcs, hc⟩ := exists_chars_eq_cons n
  rw [hcs, List.cons_append] at hread ⊢
  exact readValue_of_readNumeral hc hread steps

theorem endsNumeral_cons {c : Char} (h : digit? c = none ∧ c ≠ '.' ∧ c ≠ 'e' ∧ c ≠ 'E')
    (cs : List Char) : EndsNumeral (c :: cs) := by
  intro c' hc'
  cases hc'
  exact h

theorem readItems_write {items : List Json} (hne : items ≠ []) (h : ∀ j ∈ items, j.Rereads)
    (n : Nat) (rest : List Char) (hn : (writeItems items []).length < n) :
    readItems n (writeItems items (']' :: rest)) = (items, .closed, some rest) := by
  induction items generalizing n with
  | nil => exact absurd rfl hne
  | cons j js ih =>
    obtain ⟨m, rfl⟩ := Nat.exists_eq_succ_of_ne_zero (Nat.ne_zero_of_lt hn)
    have hj := h j List.mem_cons_self
    cases js with
    | nil =>
      have hread := hj m (']' :: rest) (endsNumeral_cons (by decide) _) (Nat.le_of_lt_succ hn)
      simp [readItems, writeItems, hread, skipBlanks, isBlank]
    | cons k js =>
      rw [writeItems_cons, write_append, List.length_append, List.length_cons] at hn
      have hread := hj m (',' :: writeItems (k :: js) (']' :: rest))
        (endsNumeral_cons (by decide) _) (by omega)
      have hrest := ih (by simp) (fun i hi => h i (List.mem_cons_of_mem _ hi)) m (by omega)
      rw [writeItems_cons, readItems, hread]
      simp [hrest, skipBlanks, isBlank]

theorem readMembers_write {members : List (String × Json)} (hne : members ≠ [])
    (h : ∀ m ∈ members, m.2.Rereads) (n : Nat) (rest : List Char)
    (hn : (writeMembers (members.map fun m => (some m.1, m.2)) []).length < n) :
    readMembers n (writeMembers (members.map fun m => (some m.1, m.2)) ('\x7d' :: rest)) =
      (members.map fun m => (some m.1, m.2), .closed, some rest) := by
  induction members generalizing n with
  | nil => exact absurd rfl hne
  | cons m ms ih =>
    obtain ⟨steps, rfl⟩ := Nat.exists_eq_succ_of_ne_zero (Nat.ne_zero_of_lt hn)
    obtain ⟨key, j⟩ := m
    have hj : j.Rereads := h (key, j) List.mem_cons_self
    cases ms with
    | nil =>
      simp only [List.map_cons, List.map_nil, writeMembers, writeString, Option.getD_some,
        List.length_cons, List.length_append] at hn
      have hread := hj steps ('\x7d' :: rest) (endsNumeral_cons (by decide) _) (by omega)
      simp [readMembers, writeMembers, writeString, readString_escaped, hread, skipBlanks, isBlank]
    | cons m ms =>
      rw [List.map_cons, List.map_cons, writeMembers_cons, write_append] at hn
      simp only [writeString, Option.getD_some, List.length_cons, List.length_append] at hn
      have hread := hj steps
        (',' :: writeMembers ((m :: ms).map fun m => (some m.1, m.2)) ('\x7d' :: rest))
        (endsNumeral_cons (by decide) _) (by omega)
      have hrest := ih (by simp) (fun m hm => h m (List.mem_cons_of_mem _ hm)) steps
        (by rw [List.map_cons]; omega)
      rw [List.map_cons] at hread hrest ⊢
      rw [List.map_cons, writeMembers_cons]
      simp [readMembers, writeString, readString_escaped, hread, hrest, skipBlanks, isBlank]

theorem rereads_list {items : List Json} (hwhole : ∀ j ∈ items, j.Whole)
    (h : ∀ j ∈ items, j.Rereads) : Rereads (list items) := by
  intro n rest _ hn
  simp only [list, write_array, List.length_cons] at hn
  rw [writeItems_append, List.length_append] at hn
  obtain ⟨steps, rfl⟩ := Nat.exists_eq_succ_of_ne_zero (show n ≠ 0 by omega)
  cases items with
  | nil => simp [list, write_array, writeItems, writeEnd, readValue, skipBlanks, isBlank]
  | cons j js =>
    have hread := readItems_write (List.cons_ne_nil j js) h steps rest
      (by simp only [writeEnd, List.length_cons] at hn; omega)
    obtain ⟨c, cs, hcs, hblank, hc⟩ :=
      (hwhole j List.mem_cons_self).exists_writeItems_eq_cons js (']' :: rest)
    rw [list, write_array, writeEnd, readValue, skipBlanks_cons (by decide)]
    rw [hcs] at hread ⊢
    simp [skipBlanks_cons hblank, hread, hc]

theorem rereads_record {members : List (String × Json)} (h : ∀ m ∈ members, m.2.Rereads) :
    Rereads (record members) := by
  intro n rest _ hn
  simp only [record, write_object, List.length_cons] at hn
  rw [writeMembers_append, List.length_append] at hn
  obtain ⟨steps, rfl⟩ := Nat.exists_eq_succ_of_ne_zero (show n ≠ 0 by omega)
  cases members with
  | nil => simp [record, write_object, writeMembers, writeEnd, readValue, skipBlanks, isBlank]
  | cons m ms =>
    have hread := readMembers_write (List.cons_ne_nil m ms) h steps rest
      (by simp only [writeEnd, List.length_cons] at hn; omega)
    obtain ⟨cs, hcs⟩ : ∃ cs, writeMembers ((m :: ms).map fun m => (some m.1, m.2))
        ('\x7d' :: rest) = '"' :: cs := by
      cases ms with
      | nil => exact ⟨_, rfl⟩
      | cons m' ms => exact ⟨_, writeMembers_cons ..⟩
    rw [record, write_object, writeEnd, readValue, skipBlanks_cons (by decide)]
    rw [hcs] at hread ⊢
    simp [skipBlanks_cons (show isBlank '"' = false from rfl), hread]

theorem expect_append (word rest : List Char) : expect word (word ++ rest) = some rest := by
  induction word with
  | nil => rfl
  | cons c cs ih => simp [expect, ih]

theorem rereads_word {j : Json} (c : Char) (word : List Char)
    (hwrite : ∀ rest, write j rest = c :: (word ++ rest))
    (hread : ∀ steps rest, readValue (steps + 1) (c :: rest) = readWord word j rest) :
    j.Rereads := by
  intro n rest _ hn
  rw [hwrite, List.length_cons] at hn
  obtain ⟨steps, rfl⟩ := Nat.exists_eq_succ_of_ne_zero (show n ≠ 0 by omega)
  rw [hwrite, hread, readWord, expect_append]

/-- A whole value is read back from the text written for it, whatever text follows. -/
theorem Whole.rereads {j : Json} (h : j.Whole) : j.Rereads := by
  induction h with
  | null =>
    exact rereads_word 'n' ['u', 'l', 'l'] (fun _ => rfl) fun _ _ => by
      simp [readValue, skipBlanks, isBlank]
  | bool value =>
    cases value with
    | true =>
      exact rereads_word 't' ['r', 'u', 'e'] (fun _ => rfl) fun _ _ => by
        simp [readValue, skipBlanks, isBlank]
    | false =>
      exact rereads_word 'f' ['a', 'l', 's', 'e'] (fun _ => rfl) fun _ _ => by
        simp [readValue, skipBlanks, isBlank]
  | number n =>
    intro steps rest hrest hn
    cases steps with
    | zero =>
      obtain ⟨c, cs, hcs, -⟩ := exists_chars_eq_cons n
      simp [write_number, hcs] at hn
    | succ steps => exact readValue_number n steps hrest
  | string s =>
    intro steps rest _ hn
    cases steps with
    | zero => simp [write_text, writeString] at hn
    | succ steps =>
      rw [write_text]
      simp [writeString, readValue, readString_escaped, skipBlanks, isBlank, text]
  | list h ih => exact rereads_list h ih
  | record h ih => exact rereads_record ih

/-- The text of a whole value is a whole document. -/
theorem Document.read_toText {j : Json} (h : j.Whole) : Document.read j.toText = ⟨j, true⟩ := by
  have hread := h.rereads (2 * (write j []).length + 2) [] (by intro c hc; cases hc) (by omega)
  simp only [Document.read, toText, String.toList_ofList, hread]
  rfl

end ServiceCheck.Json
