import ServiceCheck.Proofs.Json.Reread

/-!
JSON texts by the rules of their grammar, and the reader against these rules. Every rule says what
stands at the front of a text and which text is left behind it.
-/

set_option autoImplicit false

namespace ServiceCheck.Json

open Double (wholeOf)

namespace Grammar

/-- Only blanks stand between the front of the text and the rest. -/
inductive Blanks : List Char → List Char → Prop where
  | absent (rest : List Char) : Blanks rest rest
  | cons {c : Char} {cs rest : List Char} (hc : isBlank c = true) (h : Blanks cs rest) :
    Blanks (c :: cs) rest

inductive Minus : List Char → Bool → List Char → Prop where
  | absent (rest : List Char) : Minus rest false rest
  | minus (rest : List Char) : Minus ('-' :: rest) true rest

inductive Whole : List Char → Nat → List Char → Prop where
  | zero (rest : List Char) : Whole ('0' :: rest) 0 rest
  | digits {d : Digit} (hd : d.val ≠ 0) (ds : List Digit) (rest : List Char) :
    Whole ((d :: ds).map Digit.char ++ rest) (wholeOf (d :: ds)) rest

inductive Fraction : List Char → List Digit → List Char → Prop where
  | absent (rest : List Char) : Fraction rest [] rest
  | point {ds : List Digit} (hds : ds ≠ []) (rest : List Char) :
    Fraction ('.' :: (ds.map Digit.char ++ rest)) ds rest

inductive Signed : List Char → Int → List Char → Prop where
  | bare {ds : List Digit} (hds : ds ≠ []) (rest : List Char) :
    Signed (ds.map Digit.char ++ rest) (wholeOf ds) rest
  | plus {ds : List Digit} (hds : ds ≠ []) (rest : List Char) :
    Signed ('+' :: (ds.map Digit.char ++ rest)) (wholeOf ds) rest
  | minus {ds : List Digit} (hds : ds ≠ []) (rest : List Char) :
    Signed ('-' :: (ds.map Digit.char ++ rest)) (-wholeOf ds) rest

inductive Exponent : List Char → Option Int → List Char → Prop where
  | absent (rest : List Char) : Exponent rest none rest
  | small {cs rest : List Char} {e : Int} (h : Signed cs e rest) :
    Exponent ('e' :: cs) (some e) rest
  | capital {cs rest : List Char} {e : Int} (h : Signed cs e rest) :
    Exponent ('E' :: cs) (some e) rest

inductive Number : List Char → Numeral → List Char → Prop where
  | mk {cs afterSign afterWhole afterFraction rest : List Char} {n : Numeral}
    (sign : Minus cs n.negative afterSign) (whole : Whole afterSign n.whole afterWhole)
    (fraction : Fraction afterWhole n.fraction afterFraction)
    (exponent : Exponent afterFraction n.exponent rest) : Number cs n rest

/-- The characters of a string up to its closing quote, as codes. -/
inductive Codes : List Char → List Nat → List Char → Prop where
  | quote (rest : List Char) : Codes ('"' :: rest) [] rest
  | plain {c : Char} {cs rest : List Char} {codes : List Nat} (hquote : c ≠ '"')
    (hslash : c ≠ '\\') (hcontrol : ¬c.toNat < 32) (h : Codes cs codes rest) :
    Codes (c :: cs) (c.toNat :: codes) rest
  | short {e : Char} {n : Nat} {cs rest : List Char} {codes : List Nat}
    (he : shortEscape? e = some n) (h : Codes cs codes rest) :
    Codes ('\\' :: e :: cs) (n :: codes) rest
  | hex {a b c d : Char} {n : Nat} {cs rest : List Char} {codes : List Nat}
    (hn : hex4? a b c d = some n) (h : Codes cs codes rest) :
    Codes ('\\' :: 'u' :: a :: b :: c :: d :: cs) (n :: codes) rest

def Text (cs : List Char) (s : Option String) (rest : List Char) : Prop :=
  ∃ codes, Codes cs codes rest ∧ s = (joinPairs codes).map String.ofList

mutual

inductive Value : List Char → Json → List Char → Prop where
  | null (rest : List Char) : Value ("null".toList ++ rest) .null rest
  | yes (rest : List Char) : Value ("true".toList ++ rest) (.bool true) rest
  | no (rest : List Char) : Value ("false".toList ++ rest) (.bool false) rest
  | number {cs rest : List Char} {n : Numeral} (h : Number cs n rest) : Value cs (.number n) rest
  | string {cs rest : List Char} {s : Option String} (h : Text cs s rest) :
    Value ('"' :: cs) (.string s) rest
  | noItems {cs rest : List Char} (h : Blanks cs (']' :: rest)) :
    Value ('[' :: cs) (.array [] .closed) rest
  | array {cs rest : List Char} {items : List Json} (h : Items cs items rest) :
    Value ('[' :: cs) (.array items .closed) rest
  | noMembers {cs rest : List Char} (h : Blanks cs ('\x7d' :: rest)) :
    Value ('\x7b' :: cs) (.object [] .closed) rest
  | object {cs rest : List Char} {members : List (Option String × Json)}
    (h : Members cs members rest) : Value ('\x7b' :: cs) (.object members .closed) rest

/-- The items of an array, its closing bracket included. -/
inductive Items : List Char → List Json → List Char → Prop where
  | last {cs front after rest : List Char} {j : Json} (before : Blanks cs front)
    (value : Value front j after) (behind : Blanks after (']' :: rest)) : Items cs [j] rest
  | more {cs front after next rest : List Char} {j : Json} {items : List Json}
    (before : Blanks cs front) (value : Value front j after) (behind : Blanks after (',' :: next))
    (others : Items next items rest) : Items cs (j :: items) rest

inductive Member : List Char → Option String × Json → List Char → Prop where
  | mk {cs name colon value front rest : List Char} {key : Option String} {j : Json}
    (before : Blanks cs ('"' :: name)) (text : Text name key colon)
    (between : Blanks colon (':' :: value)) (ahead : Blanks value front)
    (content : Value front j rest) : Member cs (key, j) rest

inductive Members : List Char → List (Option String × Json) → List Char → Prop where
  | last {cs after rest : List Char} {m : Option String × Json} (member : Member cs m after)
    (behind : Blanks after ('\x7d' :: rest)) : Members cs [m] rest
  | more {cs after next rest : List Char} {m : Option String × Json}
    {members : List (Option String × Json)} (member : Member cs m after)
    (behind : Blanks after (',' :: next)) (others : Members next members rest) :
    Members cs (m :: members) rest

end

theorem Blanks.length_le {cs rest : List Char} (h : Blanks cs rest) : rest.length ≤ cs.length := by
  induction h with
  | absent => exact Nat.le_refl _
  | cons _ _ ih => exact Nat.le_succ_of_le ih

theorem Blanks.length_lt {cs rest : List Char} {c : Char} (h : Blanks cs (c :: rest)) :
    rest.length < cs.length := h.length_le

theorem Blanks.skip {cs rest : List Char} (h : Blanks cs rest) :
    skipBlanks cs = skipBlanks rest := by
  induction h with
  | absent => rfl
  | cons hc _ ih => rw [← ih]; exact List.dropWhile_cons_of_pos hc

/-- Blanks in front of another character are skipped, and no more. -/
theorem Blanks.skip_cons {cs rest : List Char} {c : Char} (h : Blanks cs (c :: rest))
    (hc : isBlank c = false) : skipBlanks cs = c :: rest := by
  rw [h.skip, skipBlanks_cons hc]

theorem blanks_skipBlanks (cs : List Char) : Blanks cs (skipBlanks cs) := by
  induction cs with
  | nil => exact .absent []
  | cons c cs ih =>
    by_cases hc : isBlank c = true
    · rw [skipBlanks, List.dropWhile_cons_of_pos hc]
      exact .cons hc ih
    · rw [skipBlanks_cons (by simpa using hc)]
      exact .absent _

theorem blanks_of_skip {cs rest : List Char} (h : skipBlanks cs = rest) : Blanks cs rest :=
  h ▸ blanks_skipBlanks cs

section Numbers

theorem isDigit_char (d : Digit) : d.char.isDigit = true := by decide +revert

theorem char_ne_sign (d : Digit) : d.char ≠ '-' ∧ d.char ≠ '+' := by decide +revert

theorem char_eq_of_digit? {c : Char} {d : Digit} (h : digit? c = some d) : c = d.char := by
  unfold digit? at h
  split at h
  case isFalse => cases h
  case isTrue hrange =>
    have hlow : 48 ≤ c.toNat := hrange.1
    have hhigh : c.toNat ≤ 57 := hrange.2
    have hcode : 48 + (c.toNat - 48) % 10 = c.toNat := by omega
    obtain rfl := Option.some.inj h
    rw [Digit.char, Digit.ofChar, hcode, Char.ofNat_toNat]

theorem takeDigits_eq {cs rest : List Char} {ds : List Digit} (h : takeDigits cs = (ds, rest)) :
    cs = ds.map Digit.char ++ rest := by
  induction cs generalizing ds with
  | nil =>
    cases h
    rfl
  | cons c cs ih =>
    unfold takeDigits at h
    split at h
    · rename_i d hd
      obtain ⟨rfl, rfl⟩ := Prod.mk.inj h
      rw [char_eq_of_digit? hd, List.map_cons, List.cons_append, ← ih rfl]
    · cases h
      rfl

theorem Whole.read {cs rest : List Char} {n : Nat} (h : Whole cs n rest) (hend : EndsDigits rest) :
    readWhole cs = some (n, rest) := by
  cases h with
  | zero =>
    have htake := takeDigits_map_char [Digit.zero] hend
    rw [readWhole, show '0' :: rest = [Digit.zero].map Digit.char ++ rest from rfl, htake]
    rfl
  | digits hd ds =>
    rw [readWhole, takeDigits_map_char _ hend]
    cases ds with
    | nil => simp [wholeOf]
    | cons e es => simp [hd]

theorem whole_of_read {cs rest : List Char} {n : Nat} (h : readWhole cs = some (n, rest)) :
    Whole cs n rest := by
  unfold readWhole at h
  split at h
  · cases h
  · rename_i d _ htake
    cases h
    rw [takeDigits_eq htake]
    by_cases hd : d.val = 0
    · obtain rfl : d = Digit.zero := Fin.ext hd
      exact .zero rest
    · have hwhole : wholeOf [d] = d.val := by simp [wholeOf]
      exact hwhole ▸ .digits hd [] rest
  · rename_i d ds _ _ htake
    split at h
    · cases h
    · rename_i hd
      cases h
      exact takeDigits_eq htake ▸ .digits hd ds rest

theorem Fraction.read {cs rest : List Char} {ds : List Digit} (h : Fraction cs ds rest)
    (hend : ∀ c ∈ rest.head?, digit? c = none ∧ c ≠ '.') : readFraction cs = some (ds, rest) := by
  cases h with
  | absent =>
    unfold readFraction
    split
    · exact absurd rfl (hend _ rfl).2
    · rfl
  | point hds =>
    obtain ⟨d, ds, rfl⟩ := List.exists_cons_of_ne_nil hds
    rw [readFraction, takeDigits_map_char _ fun c hc => (hend c hc).1]

theorem fraction_of_read {cs rest : List Char} {ds : List Digit}
    (h : readFraction cs = some (ds, rest)) : Fraction cs ds rest := by
  unfold readFraction at h
  split at h
  · split at h
    · cases h
    · rename_i hne htake
      cases h
      exact takeDigits_eq htake ▸ .point (fun hnil => hne hnil) rest
  · cases h
    exact .absent _

theorem Signed.read {cs rest : List Char} {e : Int} (h : Signed cs e rest)
    (hend : EndsDigits rest) : readSigned cs = some (e, rest) := by
  cases h with
  | bare hds =>
    obtain ⟨d, ds, rfl⟩ := List.exists_cons_of_ne_nil hds
    have htake := takeDigits_map_char (d :: ds) hend
    rw [List.map_cons, List.cons_append] at htake ⊢
    simp [readSigned, char_ne_sign, htake]
  | plus hds =>
    obtain ⟨d, ds, rfl⟩ := List.exists_cons_of_ne_nil hds
    simp only [readSigned, takeDigits_map_char _ hend]
    rfl
  | minus hds =>
    obtain ⟨d, ds, rfl⟩ := List.exists_cons_of_ne_nil hds
    simp only [readSigned, takeDigits_map_char _ hend]
    rfl

theorem signed_of_read {cs rest : List Char} {e : Int} (h : readSigned cs = some (e, rest)) :
    Signed cs e rest := by
  unfold readSigned at h
  split at h
  rename_i negative cs' hsign
  split at h
  · cases h
  · rename_i ds _ hne htake
    have hds : ds ≠ [] := fun hnil => hne hnil
    cases h
    split at hsign <;> cases hsign
    · exact takeDigits_eq htake ▸ .minus hds rest
    · exact takeDigits_eq htake ▸ .plus hds rest
    · exact takeDigits_eq htake ▸ .bare hds rest

theorem Exponent.read {cs rest : List Char} {e : Option Int} (h : Exponent cs e rest)
    (hend : EndsNumeral rest) : readExponent cs = some (e, rest) := by
  cases h with
  | absent => exact readExponent_exponentChars hend none
  | small h => rw [readExponent, h.read hend.digits]; rfl
  | capital h => rw [readExponent, h.read hend.digits]; rfl

theorem exponent_of_read {cs rest : List Char} {e : Option Int}
    (h : readExponent cs = some (e, rest)) : Exponent cs e rest := by
  unfold readExponent at h
  split at h
  · obtain ⟨⟨e, _⟩, hread, heq⟩ := Option.map_eq_some_iff.mp h
    cases heq
    exact .small (signed_of_read hread)
  · obtain ⟨⟨e, _⟩, hread, heq⟩ := Option.map_eq_some_iff.mp h
    cases heq
    exact .capital (signed_of_read hread)
  · cases h
    exact .absent _

/-- An exponent, or what follows a number without one, is mistaken for no other part of it. -/
theorem Exponent.front {cs rest : List Char} {e : Option Int} (h : Exponent cs e rest)
    (hend : EndsNumeral rest) : ∀ c ∈ cs.head?, digit? c = none ∧ c ≠ '.' := by
  intro c hc
  cases h with
  | absent => exact ⟨(hend c hc).1, (hend c hc).2.1⟩
  | small h =>
    cases hc
    decide
  | capital h =>
    cases hc
    decide

theorem Fraction.endsDigits {cs rest : List Char} {ds : List Digit} (h : Fraction cs ds rest)
    (hend : ∀ c ∈ rest.head?, digit? c = none ∧ c ≠ '.') : EndsDigits cs := by
  intro c hc
  cases h with
  | absent => exact (hend c hc).1
  | point hds =>
    cases hc
    decide

theorem Whole.exists_cons {cs rest : List Char} {n : Nat} (h : Whole cs n rest) :
    ∃ c tail, cs = c :: tail ∧ c.isDigit := by
  cases h with
  | zero => exact ⟨'0', _, rfl, rfl⟩
  | @digits d => exact ⟨d.char, _, rfl, isDigit_char d⟩

theorem Number.read {cs rest : List Char} {n : Numeral} (h : Number cs n rest)
    (hend : EndsNumeral rest) : readNumeral cs = some (n, rest) := by
  obtain ⟨sign, whole, fraction, exponent⟩ := h
  have hfront := exponent.front hend
  have hwhole := whole.read (fraction.endsDigits hfront)
  have hfraction := fraction.read hfront
  have hexponent := exponent.read hend
  obtain ⟨negative, whole', fraction', exponent'⟩ := n
  cases sign with
  | minus => simp [readNumeral, hwhole, hfraction, hexponent]
  | absent =>
    obtain ⟨c, tail, rfl, hc⟩ := whole.exists_cons
    have hminus : c ≠ '-' := by
      rintro rfl
      cases hc
    simp [readNumeral, hminus, hwhole, hfraction, hexponent]

theorem number_of_read {cs rest : List Char} {n : Numeral} (h : readNumeral cs = some (n, rest)) :
    Number cs n rest := by
  unfold readNumeral at h
  split at h
  rename_i negative afterSign hsign
  obtain ⟨⟨whole, _⟩, hwhole, h⟩ := Option.bind_eq_some_iff.mp h
  obtain ⟨⟨fraction, _⟩, hfraction, h⟩ := Option.bind_eq_some_iff.mp h
  obtain ⟨⟨exponent, _⟩, hexponent, h⟩ := Option.bind_eq_some_iff.mp h
  cases h
  have hminus : Minus cs negative afterSign := by
    split at hsign <;> cases hsign
    · exact .minus _
    · exact .absent _
  exact .mk hminus (whole_of_read hwhole) (fraction_of_read hfraction)
    (exponent_of_read hexponent)

end Numbers

section Strings

theorem Codes.read {cs rest : List Char} {codes : List Nat} (h : Codes cs codes rest) :
    readCodes cs = some (codes, rest) := by
  induction h with
  | quote => rw [readCodes]
  | plain hquote hslash hcontrol _ ih =>
    rw [readCodes_plain hquote hslash hcontrol, ih]
    rfl
  | short he _ ih =>
    have hletter : ∀ {e n}, shortEscape? e = some n → e ≠ 'u' := by
      rintro e n he rfl
      cases he
    rw [readCodes_short (hletter he) he, ih]
    rfl
  | hex hn _ ih => simp [readCodes, hn, ih]

theorem codes_of_read {cs rest : List Char} {codes : List Nat}
    (h : readCodes cs = some (codes, rest)) : Codes cs codes rest := by
  fun_induction readCodes cs generalizing codes rest with
  | case1 => cases h
  | case2 =>
    cases h
    exact .quote _
  | case3 a b c d cs ih =>
    obtain ⟨n, hn, h⟩ := Option.bind_eq_some_iff.mp h
    obtain ⟨⟨codes, _⟩, hcodes, h⟩ := Option.bind_eq_some_iff.mp h
    cases h
    exact .hex hn (ih hcodes)
  | case4 e cs _ ih =>
    obtain ⟨n, hn, h⟩ := Option.bind_eq_some_iff.mp h
    obtain ⟨⟨codes, _⟩, hcodes, h⟩ := Option.bind_eq_some_iff.mp h
    cases h
    exact .short hn (ih hcodes)
  | case5 => cases h
  | case6 c cs hquote _ hslash hcontrol ih =>
    obtain ⟨⟨codes, _⟩, hcodes, h⟩ := Option.bind_eq_some_iff.mp h
    cases h
    have hne : c ≠ '\\' := by
      intro hc
      cases cs with
      | nil => cases hcodes
      | cons e cs => exact hslash e cs hc rfl
    exact .plain hquote hne hcontrol (ih hcodes)

theorem text_iff_read {cs rest : List Char} {s : Option String} :
    Text cs s rest ↔ readString cs = some (s, rest) := by
  rw [readString, Option.map_eq_some_iff]
  constructor
  · rintro ⟨codes, hcodes, rfl⟩
    exact ⟨(codes, rest), hcodes.read, rfl⟩
  · rintro ⟨⟨codes, _⟩, hcodes, heq⟩
    cases heq
    exact ⟨codes, codes_of_read hcodes, rfl⟩

end Strings

end Grammar

/-- The text is one value, with nothing but blanks around it. -/
def Spelled (text : String) (j : Json) : Prop :=
  ∃ front rest, Grammar.Blanks text.toList front ∧ Grammar.Value front j rest ∧
    Grammar.Blanks rest []

end ServiceCheck.Json
