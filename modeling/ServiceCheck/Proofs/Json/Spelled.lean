import ServiceCheck.Proofs.Json.Grammar

/-!
The reader accepts the texts that the grammar derives and no others. It has two steps for each
character of a text, so the lengths of what the rules leave behind come first.
-/

set_option autoImplicit false

namespace ServiceCheck.Json

namespace Grammar

section Lengths

variable {cs rest : List Char}

theorem Minus.length_le {negative : Bool} (h : Minus cs negative rest) :
    rest.length ≤ cs.length := by
  cases h with
  | absent => exact Nat.le_refl _
  | minus => exact Nat.le_succ _

theorem length_le_digits (ds : List Digit) (rest : List Char) :
    rest.length ≤ (ds.map Digit.char ++ rest).length := by
  rw [List.length_append]
  exact Nat.le_add_left _ _

theorem Whole.length_lt {n : Nat} (h : Whole cs n rest) : rest.length < cs.length := by
  cases h with
  | zero => exact Nat.lt_succ_self _
  | @digits _ _ ds => exact Nat.lt_succ_of_le (length_le_digits ds rest)

theorem Fraction.length_le {ds : List Digit} (h : Fraction cs ds rest) :
    rest.length ≤ cs.length := by
  cases h with
  | absent => exact Nat.le_refl _
  | point => exact Nat.le_succ_of_le (length_le_digits ds rest)

theorem Signed.length_le {e : Int} (h : Signed cs e rest) : rest.length ≤ cs.length := by
  cases h with
  | @bare ds => exact length_le_digits ds rest
  | @plus ds => exact Nat.le_succ_of_le (length_le_digits ds rest)
  | @minus ds => exact Nat.le_succ_of_le (length_le_digits ds rest)

theorem Exponent.length_le {e : Option Int} (h : Exponent cs e rest) :
    rest.length ≤ cs.length := by
  cases h with
  | absent => exact Nat.le_refl _
  | small h => exact Nat.le_succ_of_le h.length_le
  | capital h => exact Nat.le_succ_of_le h.length_le

theorem Number.length_lt {n : Numeral} (h : Number cs n rest) : rest.length < cs.length := by
  obtain ⟨sign, whole, fraction, exponent⟩ := h
  have := sign.length_le
  have := whole.length_lt
  have := fraction.length_le
  have := exponent.length_le
  omega

theorem Codes.length_lt {codes : List Nat} (h : Codes cs codes rest) :
    rest.length < cs.length := by
  induction h <;> simp only [List.length_cons] <;> omega

theorem Text.length_lt {s : Option String} (h : Text cs s rest) : rest.length < cs.length := by
  obtain ⟨codes, hcodes, -⟩ := h
  exact hcodes.length_lt

end Lengths

mutual

theorem Value.length_lt : ∀ {cs rest : List Char} {j : Json}, Value cs j rest →
    rest.length < cs.length
  | _, _, _, .null _ | _, _, _, .yes _ | _, _, _, .no _ => by
    rw [List.length_append]
    exact Nat.lt_add_of_pos_left (by decide)
  | _, _, _, .number h => h.length_lt
  | _, _, _, .string h => Nat.lt_succ_of_lt h.length_lt
  | _, _, _, .noItems h | _, _, _, .noMembers h => Nat.lt_succ_of_lt h.length_lt
  | _, _, _, .array h => Nat.lt_succ_of_lt h.length_lt
  | _, _, _, .object h => Nat.lt_succ_of_lt h.length_lt

theorem Items.length_lt : ∀ {cs rest : List Char} {items : List Json}, Items cs items rest →
    rest.length < cs.length
  | _, _, _, .last before value behind => by
    have := before.length_le
    have := value.length_lt
    have := behind.length_lt
    omega
  | _, _, _, .more before value behind others => by
    have := before.length_le
    have := value.length_lt
    have := behind.length_lt
    have := others.length_lt
    omega

theorem Member.length_lt : ∀ {cs rest : List Char} {m : Option String × Json},
    Member cs m rest → rest.length < cs.length
  | _, _, _, .mk before text between ahead content => by
    have := before.length_lt
    have := text.length_lt
    have := between.length_lt
    have := ahead.length_le
    have := content.length_lt
    omega

theorem Members.length_lt : ∀ {cs rest : List Char} {members : List (Option String × Json)},
    Members cs members rest → rest.length < cs.length
  | _, _, _, .last member behind => Nat.lt_trans behind.length_lt member.length_lt
  | _, _, _, .more member behind others =>
    Nat.lt_trans (Nat.lt_trans others.length_lt behind.length_lt) member.length_lt

end

theorem Blanks.endsNumeral {cs rest : List Char} (h : Blanks cs rest) (hend : EndsNumeral rest) :
    EndsNumeral cs := by
  cases h with
  | absent => exact hend
  | cons hc =>
    refine endsNumeral_cons ?_ _
    simp only [isBlank, Bool.or_eq_true, beq_iff_eq] at hc
    rcases hc with ((rfl | rfl) | rfl) | rfl <;> decide

theorem Blanks.readValue {cs rest : List Char} (h : Blanks cs rest) (n : Nat) :
    readValue n cs = readValue n rest := by
  cases n with
  | zero => rfl
  | succ n => rw [Json.readValue, Json.readValue, h.skip]

theorem Number.exists_cons {cs rest : List Char} {n : Numeral} (h : Number cs n rest) :
    ∃ c tail, cs = c :: tail ∧ (c = '-' ∨ c.isDigit) := by
  obtain ⟨sign, whole, fraction, exponent⟩ := h
  generalize n.negative = negative at sign
  cases sign with
  | minus => exact ⟨_, _, rfl, .inl rfl⟩
  | absent =>
    obtain ⟨c, tail, rfl, hc⟩ := whole.exists_cons
    exact ⟨c, tail, rfl, .inr hc⟩

theorem Value.exists_cons {cs rest : List Char} {j : Json} (h : Value cs j rest) :
    ∃ c tail, cs = c :: tail ∧ isBlank c = false ∧ c ≠ ']' := by
  cases h with
  | number h =>
    obtain ⟨c, tail, rfl, hc⟩ := h.exists_cons
    have hfront := front_ne_of_number hc
    simp only [List.mem_cons, List.not_mem_nil, or_false, not_or] at hfront
    exact ⟨c, tail, rfl, by simp [isBlank, hfront], by simp [hfront]⟩
  | _ => exact ⟨_, _, rfl, by decide, by decide⟩

theorem Items.skip {cs rest : List Char} {items : List Json} (h : Items cs items rest) :
    ∃ c tail, skipBlanks cs = c :: tail ∧ c ≠ ']' := by
  cases h with
  | last before value =>
    obtain ⟨c, tail, rfl, hblank, hc⟩ := value.exists_cons
    exact ⟨c, tail, before.skip_cons hblank, hc⟩
  | more before value =>
    obtain ⟨c, tail, rfl, hblank, hc⟩ := value.exists_cons
    exact ⟨c, tail, before.skip_cons hblank, hc⟩

theorem Members.skip {cs rest : List Char} {members : List (Option String × Json)}
    (h : Members cs members rest) : ∃ tail, skipBlanks cs = '"' :: tail := by
  cases h with
  | last member =>
    obtain ⟨before⟩ := member
    exact ⟨_, before.skip_cons rfl⟩
  | more member =>
    obtain ⟨before⟩ := member
    exact ⟨_, before.skip_cons rfl⟩

mutual

/-- What the grammar derives is read, given two steps for each character of the text. -/
theorem Value.read : ∀ {cs rest : List Char} {j : Json} {n : Nat}, Value cs j rest →
    EndsNumeral rest → 2 * cs.length ≤ n → readValue n cs = (j, some rest) := by
  intro cs rest j n h hend hn
  have hlength := h.length_lt
  obtain ⟨n, rfl⟩ := Nat.exists_eq_succ_of_ne_zero (show n ≠ 0 by omega)
  match h with
  | .null rest =>
    show readValue (n + 1) ('n' :: (['u', 'l', 'l'] ++ rest)) = _
    rw [readValue, skipBlanks_cons rfl]
    simp only [readWord, expect_append]
  | .yes rest =>
    show readValue (n + 1) ('t' :: (['r', 'u', 'e'] ++ rest)) = _
    rw [readValue, skipBlanks_cons rfl]
    simp only [readWord, expect_append]
  | .no rest =>
    show readValue (n + 1) ('f' :: (['a', 'l', 's', 'e'] ++ rest)) = _
    rw [readValue, skipBlanks_cons rfl]
    simp only [readWord, expect_append]
  | .number h =>
    obtain ⟨c, tail, rfl, hc⟩ := h.exists_cons
    exact readValue_of_readNumeral hc (h.read hend) n
  | .string h =>
    rw [readValue, skipBlanks_cons rfl]
    simp only [text_iff_read.mp h]
  | .noItems h =>
    rw [readValue, skipBlanks_cons rfl]
    simp only [h.skip_cons rfl]
  | .noMembers h =>
    rw [readValue, skipBlanks_cons rfl]
    simp only [h.skip_cons rfl]
  | .array h =>
    rw [List.length_cons] at hn
    have hread := h.read (n := n) (by omega)
    obtain ⟨c, tail, hskip, hc⟩ := h.skip
    rw [readValue, skipBlanks_cons rfl]
    simp [hskip, hread, hc]
  | .object h =>
    rw [List.length_cons] at hn
    have hread := h.read (n := n) (by omega)
    obtain ⟨tail, hskip⟩ := h.skip
    rw [readValue, skipBlanks_cons rfl]
    simp only [hskip, hread]

theorem Items.read : ∀ {cs rest : List Char} {items : List Json} {n : Nat}, Items cs items rest →
    2 * cs.length < n → readItems n cs = (items, .closed, some rest) := by
  intro cs rest items n h hn
  obtain ⟨n, rfl⟩ := Nat.exists_eq_succ_of_ne_zero (show n ≠ 0 by omega)
  match h with
  | .last before value behind =>
    have hbefore := before.length_le
    have hend := behind.endsNumeral (endsNumeral_cons (by decide) _)
    have hread := value.read (n := n) hend (by omega)
    rw [readItems, before.readValue, hread]
    simp only [behind.skip_cons rfl]
  | .more before value behind others =>
    have hbefore := before.length_le
    have hvalue := value.length_lt
    have hbehind := behind.length_lt
    have hend := behind.endsNumeral (endsNumeral_cons (by decide) _)
    have hread := value.read (n := n) hend (by omega)
    have hothers := others.read (n := n) (by omega)
    rw [readItems, before.readValue, hread]
    simp only [behind.skip_cons rfl, hothers]

theorem Members.read : ∀ {cs rest : List Char} {members : List (Option String × Json)} {n : Nat},
    Members cs members rest → 2 * cs.length < n →
      readMembers n cs = (members, .closed, some rest) := by
  intro cs rest members n h hn
  obtain ⟨n, rfl⟩ := Nat.exists_eq_succ_of_ne_zero (show n ≠ 0 by omega)
  match h with
  | .last (.mk before text between ahead content) behind =>
    have hbefore := before.length_lt
    have htext := text.length_lt
    have hbetween := between.length_lt
    have hahead := ahead.length_le
    have hend := behind.endsNumeral (endsNumeral_cons (by decide) _)
    have hread := content.read (n := n) hend (by omega)
    rw [readMembers, before.skip_cons rfl]
    simp only [text_iff_read.mp text, between.skip_cons rfl, ahead.readValue, hread,
      behind.skip_cons rfl]
  | .more (.mk before text between ahead content) behind others =>
    have hbefore := before.length_lt
    have htext := text.length_lt
    have hbetween := between.length_lt
    have hahead := ahead.length_le
    have hcontent := content.length_lt
    have hbehind := behind.length_lt
    have hend := behind.endsNumeral (endsNumeral_cons (by decide) _)
    have hread := content.read (n := n) hend (by omega)
    have hothers := others.read (n := n) (by omega)
    rw [readMembers, before.skip_cons rfl]
    simp only [text_iff_read.mp text, between.skip_cons rfl, ahead.readValue, hread,
      behind.skip_cons rfl, hothers]

end

theorem expect_eq {word cs rest : List Char} (h : expect word cs = some rest) :
    cs = word ++ rest := by
  induction word generalizing cs with
  | nil =>
    cases h
    rfl
  | cons c word ih =>
    cases cs with
    | nil => cases h
    | cons c' cs =>
      rw [expect] at h
      split at h
      · rename_i heq
        rw [heq, ih h, List.cons_append]
      · cases h

theorem word_of_read {word cs rest : List Char} {value j : Json}
    (h : readWord word value cs = (j, some rest)) : cs = word ++ rest ∧ j = value := by
  unfold readWord at h
  split at h
  · rename_i hexpect
    cases h
    exact ⟨expect_eq hexpect, rfl⟩
  · cases h

structure Sound (n : Nat) : Prop where
  value : ∀ {cs j rest}, readValue n cs = (j, some rest) → ∃ front, Blanks cs front ∧
    Value front j rest
  items : ∀ {cs items ending rest}, readItems n cs = (items, ending, some rest) →
    ending = .closed ∧ Items cs items rest
  members : ∀ {cs members ending rest}, readMembers n cs = (members, ending, some rest) →
    ending = .closed ∧ Members cs members rest

theorem Sound.value_succ {n : Nat} (hn : Sound n) {cs rest : List Char} {j : Json}
    (h : readValue (n + 1) cs = (j, some rest)) : ∃ front, Blanks cs front ∧
      Value front j rest := by
  refine ⟨skipBlanks cs, blanks_skipBlanks cs, ?_⟩
  rw [readValue] at h
  split at h
  · rename_i hskip
    obtain ⟨rfl, rfl⟩ := word_of_read h
    exact hskip ▸ .null rest
  · rename_i hskip
    obtain ⟨rfl, rfl⟩ := word_of_read h
    exact hskip ▸ .yes rest
  · rename_i hskip
    obtain ⟨rfl, rfl⟩ := word_of_read h
    exact hskip ▸ .no rest
  · rename_i hskip
    split at h
    · rename_i htext
      cases h
      exact hskip ▸ .string (text_iff_read.mpr htext)
    · cases h
  · rename_i hskip
    split at h
    · rename_i hclose
      cases h
      exact hskip ▸ .noItems (blanks_of_skip hclose)
    · cases h
    · split at h
      rename_i hread
      cases h
      obtain ⟨rfl, hitems⟩ := hn.items hread
      exact hskip ▸ .array hitems
  · rename_i hskip
    split at h
    · rename_i hclose
      cases h
      exact hskip ▸ .noMembers (blanks_of_skip hclose)
    · split at h
      rename_i hread
      cases h
      obtain ⟨rfl, hmembers⟩ := hn.members hread
      exact hskip ▸ .object hmembers
    · cases h
  · split at h
    · rename_i hnumber
      cases h
      exact .number (number_of_read hnumber)
    · cases h

theorem Sound.items_succ {n : Nat} (hn : Sound n) {cs rest : List Char} {items : List Json}
    {ending : Ending} (h : readItems (n + 1) cs = (items, ending, some rest)) :
    ending = .closed ∧ Items cs items rest := by
  rw [readItems] at h
  split at h
  · cases h
  · rename_i hvalue
    obtain ⟨front, hblanks, hvalue⟩ := hn.value hvalue
    split at h
    · rename_i hskip
      split at h
      rename_i hread
      cases h
      obtain ⟨rfl, hothers⟩ := hn.items hread
      exact ⟨rfl, .more hblanks hvalue (blanks_of_skip hskip) hothers⟩
    · rename_i hskip
      cases h
      exact ⟨rfl, .last hblanks hvalue (blanks_of_skip hskip)⟩
    · cases h

theorem Sound.members_succ {n : Nat} (hn : Sound n) {cs rest : List Char}
    {members : List (Option String × Json)} {ending : Ending}
    (h : readMembers (n + 1) cs = (members, ending, some rest)) :
    ending = .closed ∧ Members cs members rest := by
  rw [readMembers] at h
  split at h
  · rename_i hquote
    split at h
    · cases h
    · rename_i htext
      split at h
      · rename_i hcolon
        split at h
        · cases h
        · rename_i hvalue
          obtain ⟨front, hblanks, hvalue⟩ := hn.value hvalue
          have hmember := Member.mk (blanks_of_skip hquote) (text_iff_read.mpr htext)
            (blanks_of_skip hcolon) hblanks hvalue
          split at h
          · rename_i hskip
            split at h
            rename_i hread
            cases h
            obtain ⟨rfl, hothers⟩ := hn.members hread
            exact ⟨rfl, .more hmember (blanks_of_skip hskip) hothers⟩
          · rename_i hskip
            cases h
            exact ⟨rfl, .last hmember (blanks_of_skip hskip)⟩
          · cases h
      · cases h
  · cases h

theorem sound (n : Nat) : Sound n := by
  induction n with
  | zero => exact ⟨nofun, nofun, nofun⟩
  | succ n ih => exact ⟨ih.value_succ, ih.items_succ, ih.members_succ⟩

end Grammar

/-- The reader accepts the texts of the grammar and no others, and gives the value that is
spelled. -/
theorem Document.read_eq_iff {text : String} {j : Json} :
    Document.read text = ⟨j, true⟩ ↔ Spelled text j := by
  dsimp only [Document.read]
  constructor
  · intro h
    split at h
    · rename_i root rest hread
      obtain ⟨rfl, hclean⟩ := Document.mk.inj h
      obtain ⟨front, hblanks, hvalue⟩ := (Grammar.sound _).value hread
      exact ⟨front, rest, hblanks, hvalue, Grammar.blanks_of_skip (List.isEmpty_iff.mp hclean)⟩
    · cases h
  · rintro ⟨front, rest, hblanks, hvalue, hbehind⟩
    have hlength := hblanks.length_le
    have hend : EndsNumeral rest := hbehind.endsNumeral nofun
    have hread := hvalue.read (n := 2 * text.toList.length + 2) hend (by omega)
    simp only [hblanks.readValue, hread, hbehind.skip]
    rfl

theorem Whole.spelled {j : Json} (h : j.Whole) : Spelled j.toText j :=
  Document.read_eq_iff.mp (Document.read_toText h)

theorem Spelled.unique {text : String} {j k : Json} (hj : Spelled text j) (hk : Spelled text k) :
    j = k := by
  have hread := (Document.read_eq_iff.mpr hj).symm.trans (Document.read_eq_iff.mpr hk)
  exact (Document.mk.inj hread).1

end ServiceCheck.Json
