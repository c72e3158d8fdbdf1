import ServiceCheck.Json.Reader
import ServiceCheck.Json.Writer
import Mathlib.Tactic.SplitIfs

set_option autoImplicit false

namespace ServiceCheck

namespace Double

theorem digitsOf_of_lt {n : Nat} (h : n < 10) : digitsOf n = [⟨n, h⟩] := by
  rw [digitsOf, Nat.toDigits_of_lt_base h]
  decide +revert

theorem digitsOf_of_le {n : Nat} (h : 10 ≤ n) :
    digitsOf n = digitsOf (n / 10) ++ [⟨n % 10, Nat.mod_lt n (by decide)⟩] := by
  have hlast : digitsOf (n % 10) = [⟨n % 10, _⟩] := digitsOf_of_lt (Nat.mod_lt n (by decide))
  rw [digitsOf, Nat.toDigits_of_lt_base (Nat.mod_lt n (by decide))] at hlast
  rw [digitsOf, Nat.toDigits_of_base_le (by decide) h, List.map_append, hlast, digitsOf]

theorem map_char_digitsOf (n : Nat) : (digitsOf n).map Digit.char = Nat.toDigits 10 n := by
  have hchar : ∀ d : Digit, d.char = d.val.digitChar := by decide
  induction n using Nat.strongRecOn with
  | ind n ih =>
    by_cases h : n < 10
    · rw [digitsOf_of_lt h, Nat.toDigits_of_lt_base h, List.map_singleton, hchar]
    · have hle : 10 ≤ n := by omega
      rw [digitsOf_of_le hle, List.map_append, ih (n / 10) (by omega), List.map_singleton, hchar,
        ← Nat.toDigits_of_base_le (by decide) hle]

theorem wholeOf_append (ds : List Digit) (d : Digit) :
    wholeOf (ds ++ [d]) = wholeOf ds * 10 + d.val := by
  simp [wholeOf]

theorem wholeOf_digitsOf (n : Nat) : wholeOf (digitsOf n) = n := by
  induction n using Nat.strongRecOn with
  | ind n ih =>
    by_cases h : n < 10
    · simp [digitsOf_of_lt h, wholeOf]
    · rw [digitsOf_of_le (by omega), wholeOf_append, ih (n / 10) (by omega)]
      show n / 10 * 10 + n % 10 = n
      omega

theorem head_digitsOf_ne_zero {n : Nat} (hn : 0 < n) :
    ∃ d ds, digitsOf n = d :: ds ∧ d.val ≠ 0 := by
  induction n using Nat.strongRecOn with
  | ind n ih =>
    by_cases h : n < 10
    · exact ⟨_, _, digitsOf_of_lt h, Nat.ne_of_gt hn⟩
    · obtain ⟨d, ds, hds, hd⟩ := ih (n / 10) (by omega) (by omega)
      exact ⟨d, _, by rw [digitsOf_of_le (by omega), hds, List.cons_append], hd⟩

end Double

namespace Json

open Double (digitsOf)

theorem digit?_char (d : Digit) : digit? d.char = some d := by decide +revert

/-- No digit can be read at the front. -/
def EndsDigits (rest : List Char) : Prop := ∀ c ∈ rest.head?, digit? c = none

def EndsNumeral (rest : List Char) : Prop :=
  ∀ c ∈ rest.head?, digit? c = none ∧ c ≠ '.' ∧ c ≠ 'e' ∧ c ≠ 'E'

theorem EndsNumeral.digits {rest : List Char} (h : EndsNumeral rest) : EndsDigits rest :=
  fun c hc => (h c hc).1

theorem takeDigits_map_char (ds : List Digit) {rest : List Char} (h : EndsDigits rest) :
    takeDigits (ds.map Digit.char ++ rest) = (ds, rest) := by
  induction ds with
  | nil =>
    cases rest with
    | nil => rfl
    | cons c cs => simp [takeDigits, h c rfl]
  | cons d ds ih => simp [takeDigits, digit?_char, ih]

theorem takeDigits_toDigits (n : Nat) {rest : List Char} (h : EndsDigits rest) :
    takeDigits (Nat.toDigits 10 n ++ rest) = (digitsOf n, rest) := by
  rw [← Double.map_char_digitsOf, takeDigits_map_char _ h]

theorem readWhole_toDigits (n : Nat) {rest : List Char} (h : EndsDigits rest) :
    readWhole (Nat.toDigits 10 n ++ rest) = some (n, rest) := by
  rw [readWhole, takeDigits_toDigits n h]
  by_cases hn : n < 10
  · rw [Double.digitsOf_of_lt hn]
  · obtain ⟨d, ds, hds, hd⟩ := Double.head_digitsOf_ne_zero (show 0 < n by omega)
    have hwhole := Double.wholeOf_digitsOf n
    rw [hds] at hwhole ⊢
    cases ds with
    | nil =>
      have : d.val = n := by simpa [Double.wholeOf] using hwhole
      omega
    | cons e es => simp [hd, hwhole]

def fractionChars (ds : List Digit) : List Char :=
  if ds.isEmpty then [] else '.' :: ds.map Digit.char

def exponentChars (e : Option Int) : List Char := (e.map Numeral.exponentText).getD []

theorem chars_append (n : Numeral) (rest : List Char) : n.chars ++ rest =
    (if n.negative then ['-'] else []) ++ (Nat.toDigits 10 n.whole ++
      (fractionChars n.fraction ++ (exponentChars n.exponent ++ rest))) := by
  simp only [Numeral.chars, fractionChars, exponentChars, List.append_assoc]

theorem readExponent_exponentText (e : Int) {rest : List Char} (h : EndsDigits rest) :
    readExponent (Numeral.exponentText e ++ rest) = some (some e, rest) := by
  have hdigits := takeDigits_toDigits e.natAbs h
  have hwhole := Double.wholeOf_digitsOf e.natAbs
  obtain ⟨d, ds, hds⟩ : ∃ d ds, digitsOf e.natAbs = d :: ds := by
    cases hds : digitsOf e.natAbs with
    | nil => simp [digitsOf, Nat.toDigits_ne_nil] at hds
    | cons d ds => exact ⟨d, ds, rfl⟩
  rw [hds] at hdigits hwhole
  by_cases he : e < 0
  · have hback : -(e.natAbs : Int) = e := by omega
    simp only [Numeral.exponentText, he, if_true, List.cons_append, List.nil_append, readExponent,
      readSigned, hdigits, hwhole, hback, Option.map_some]
  · have hback : (e.natAbs : Int) = e := by omega
    simp only [Numeral.exponentText, he, if_false, List.cons_append, List.nil_append, readExponent,
      readSigned, hdigits, hwhole, hback, Option.map_some, Bool.false_eq_true]

theorem exponentText_eq_cons (e : Int) : ∃ cs, Numeral.exponentText e = 'e' :: cs := by
  by_cases h : e < 0
  · exact ⟨'-' :: Nat.toDigits 10 e.natAbs, by rw [Numeral.exponentText, if_pos h]; rfl⟩
  · exact ⟨'+' :: Nat.toDigits 10 e.natAbs, by rw [Numeral.exponentText, if_neg h]; rfl⟩

theorem exists_toDigits_eq_cons (n : Nat) :
    ∃ c cs, Nat.toDigits 10 n = c :: cs ∧ c.isDigit := by
  cases h : Nat.toDigits 10 n with
  | nil => exact absurd h Nat.toDigits_ne_nil
  | cons c cs =>
    have hmem : c ∈ Nat.toDigits 10 n := h ▸ List.mem_cons_self
    exact ⟨c, cs, rfl, Nat.isDigit_of_mem_toDigits (by decide) (by decide) hmem⟩

section Numeral

variable {rest : List Char} (h : EndsNumeral rest)

include h

theorem readExponent_exponentChars (e : Option Int) :
    readExponent (exponentChars e ++ rest) = some (e, rest) := by
  cases e with
  | none =>
    show readExponent rest = _
    unfold readExponent
    split
    · exact absurd rfl (h _ rfl).2.2.1
    · exact absurd rfl (h _ rfl).2.2.2
    · rfl
  | some e => exact readExponent_exponentText e h.digits

theorem front_exponentChars (e : Option Int) :
    ∀ c ∈ (exponentChars e ++ rest).head?, digit? c = none ∧ c ≠ '.' := by
  cases e with
  | none => exact fun c hc => ⟨(h c hc).1, (h c hc).2.1⟩
  | some e =>
    obtain ⟨cs, hcs⟩ := exponentText_eq_cons e
    have heq : exponentChars (some e) ++ rest = 'e' :: (cs ++ rest) := by
      rw [exponentChars, Option.map_some, Option.getD_some, hcs, List.cons_append]
    rw [heq]
    intro c hc
    cases hc
    decide

theorem readFraction_fractionChars (ds : List Digit) (e : Option Int) :
    readFraction (fractionChars ds ++ (exponentChars e ++ rest)) =
      some (ds, exponentChars e ++ rest) := by
  have hfront := front_exponentChars h e
  generalize exponentChars e ++ rest = after at hfront ⊢
  cases ds with
  | nil =>
    show readFraction after = _
    unfold readFraction
    split
    · exact absurd rfl (hfront _ rfl).2
    · rfl
  | cons d ds =>
    show readFraction ('.' :: ((d :: ds).map Digit.char ++ after)) = _
    rw [readFraction, takeDigits_map_char _ fun c hc => (hfront c hc).1]

theorem endsDigits_fractionChars (ds : List Digit) (e : Option Int) :
    EndsDigits (fractionChars ds ++ (exponentChars e ++ rest)) := by
  cases ds with
  | nil => exact fun c hc => (front_exponentChars h e c hc).1
  | cons d ds =>
    intro c hc
    cases hc
    decide

theorem readNumeral_chars (n : Numeral) : readNumeral (n.chars ++ rest) = some (n, rest) := by
  rw [chars_append]
  obtain ⟨negative, whole, fraction, exponent⟩ := n
  have hwhole := readWhole_toDigits whole (endsDigits_fractionChars h fraction exponent)
  have hfraction := readFraction_fractionChars h fraction exponent
  have hexponent := readExponent_exponentChars h exponent
  cases negative with
  | true => simp [readNumeral, hwhole, hfraction, hexponent]
  | false =>
    obtain ⟨c, cs, hcs, hc⟩ := exists_toDigits_eq_cons whole
    have hminus : c ≠ '-' := by
      rintro rfl
      cases hc
    rw [hcs, List.cons_append] at hwhole
    rw [hcs, List.cons_append]
    simp [readNumeral, hminus, hwhole, hfraction, hexponent]

end Numeral

theorem exists_chars_eq_cons (n : Numeral) :
    ∃ c cs, n.chars = c :: cs ∧ (c = '-' ∨ c.isDigit) := by
  obtain ⟨negative, whole, fraction, exponent⟩ := n
  obtain ⟨c, cs, hdigits, hc⟩ := exists_toDigits_eq_cons whole
  cases negative with
  | true => exact ⟨'-', _, rfl, .inl rfl⟩
  | false => exact ⟨c, _, by simp only [Numeral.chars, hdigits]; rfl, .inr hc⟩

theorem readCodes_short {e : Char} {n : Nat} (he : e ≠ 'u') (h : shortEscape? e = some n)
    (rest : List Char) : readCodes ('\\' :: e :: rest) =
      (readCodes rest).map fun (codes, rest) => (n :: codes, rest) := by
  rw [readCodes, h]
  · cases readCodes rest <;> rfl
  · exact fun _ _ _ _ _ heq _ => he heq

theorem readCodes_plain {c : Char} (hquote : c ≠ '"') (hslash : c ≠ '\\') (h : ¬c.toNat < 32)
    (rest : List Char) : readCodes (c :: rest) =
      (readCodes rest).map fun (codes, rest) => (c.toNat :: codes, rest) := by
  rw [readCodes, if_neg h]
  · cases readCodes rest <;> rfl
  · exact hquote
  · exact fun _ _ _ _ _ heq _ => hslash heq
  · exact fun _ _ heq _ => hslash heq

theorem readCodes_escape (c : Char) (rest : List Char) :
    readCodes (escape c ++ rest) =
      (readCodes rest).map fun (codes, rest) => (c.toNat :: codes, rest) := by
  have hhex : ∀ n < 16, hexValue? (hexDigit n) = some n := by decide
  unfold escape
  split_ifs with hquote hslash hnewline hreturn htab hback hfeed hcontrol
  case pos => subst hquote; exact readCodes_short (by decide) rfl rest
  case pos => subst hslash; exact readCodes_short (by decide) rfl rest
  case pos => subst hnewline; exact readCodes_short (by decide) rfl rest
  case pos => subst hreturn; exact readCodes_short (by decide) rfl rest
  case pos => subst htab; exact readCodes_short (by decide) rfl rest
  case pos => subst hback; exact readCodes_short (by decide) rfl rest
  case pos => subst hfeed; exact readCodes_short (by decide) rfl rest
  case pos =>
    have hhigh := hhex (c.toNat / 16) (by omega)
    have hlow := hhex (c.toNat % 16) (by omega)
    have hzero : hexValue? '0' = some 0 := rfl
    have hcode : c.toNat / 16 * 16 + c.toNat % 16 = c.toNat := by omega
    simp only [List.cons_append, List.nil_append, readCodes, hex4?, hzero, hhigh, hlow]
    cases readCodes rest <;> simp [hcode]
  case neg => exact readCodes_plain hquote hslash hcontrol rest

theorem readCodes_flatMap_escape (cs : List Char) (rest : List Char) :
    readCodes (cs.flatMap escape ++ '"' :: rest) = some (cs.map Char.toNat, rest) := by
  induction cs with
  | nil => simp [readCodes]
  | cons c cs ih => simp [readCodes_escape, ih]

theorem not_surrogate (c : Char) :
    isHighSurrogate c.toNat = false ∧ isLowSurrogate c.toNat = false := by
  have hvalid : c.toNat < 0xD800 ∨ 0xDFFF < c.toNat ∧ c.toNat < 0x110000 := c.valid
  simp [isHighSurrogate, isLowSurrogate]
  omega

theorem joinPairs_map_toNat (cs : List Char) : joinPairs (cs.map Char.toNat) = some cs := by
  induction cs with
  | nil => rfl
  | cons c cs ih =>
    obtain ⟨hhigh, hlow⟩ := not_surrogate c
    cases cs with
    | nil => simp [joinPairs, hhigh, hlow]
    | cons d ds =>
      rw [List.map_cons, List.map_cons, joinPairs, ← List.map_cons, ih]
      simp [hhigh, hlow]

theorem readString_escaped (s : String) (rest : List Char) :
    readString (s.toList.flatMap escape ++ '"' :: rest) = some (some s, rest) := by
  simp [readString, readCodes_flatMap_escape, joinPairs_map_toNat]

end Json

end ServiceCheck
