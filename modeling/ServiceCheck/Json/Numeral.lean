set_option autoImplicit false

namespace ServiceCheck

/-- Digits are kept one by one where their number counts. -/
abbrev Digit := Fin 10

namespace Digit

def zero : Digit := ⟨0, by decide⟩

def ofChar (c : Char) : Digit := ⟨(c.toNat - 48) % 10, Nat.mod_lt _ (by decide)⟩

def char (d : Digit) : Char := Char.ofNat (48 + d.val)

end Digit

/-- `fraction` holds the digits after the point and is empty where no point is written. -/
structure Numeral where
  negative : Bool
  whole : Nat
  fraction : List Digit
  exponent : Option Int
deriving DecidableEq, Repr

namespace Numeral

def ofInt (i : Int) : Numeral := ⟨i < 0, i.natAbs, [], none⟩

/-- Significands have at most 64 bits. -/
def significandLimit : Nat := 0x10000000000000000

/-- Whole-number literals are exact from `-2 ^ 63` to `2 ^ 64 - 1`. A point, an exponent, a minus
sign before zero or a larger size makes a literal approximate. -/
def toInt? (n : Numeral) : Option Int :=
  match n.fraction, n.exponent with
  | [], none =>
    if n.negative then
      if 0 < n.whole && n.whole ≤ significandLimit / 2 then some (-(n.whole : Int)) else none
    else if n.whole < significandLimit then some n.whole else none
  | _, _ => none

theorem toInt?_ofInt {i : Int} (low : -0x8000000000000000 ≤ i)
    (high : i < 0x10000000000000000) : (ofInt i).toInt? = some i := by
  simp only [ofInt, toInt?, significandLimit]
  by_cases h : i < 0
  · have : 0 < i.natAbs ∧ i.natAbs ≤ 0x10000000000000000 / 2 := by omega
    simp only [h, decide_true, ↓reduceIte, this, Bool.and_self]
    congr 1
    omega
  · have : i.natAbs < 0x10000000000000000 := by omega
    simp only [h, decide_false, Bool.false_eq_true, ↓reduceIte, this]
    congr 1
    omega

/-- Cuts whole digits off the end until the rest fits 64 bits; counts the cut ones. -/
def cutWhole (whole : Nat) : Nat × Nat :=
  if whole < significandLimit then (whole, 0)
  else
    let (kept, cut) := cutWhole (whole / 10)
    (kept, cut + 1)
termination_by whole
decreasing_by simp only [significandLimit] at *; omega

/-- Appends digits to a significand up to the first that no longer fits 64 bits. -/
def extend : Nat → List Digit → Nat × Nat
  | significand, [] => (significand, 0)
  | significand, d :: rest =>
    if significand * 10 + d.val < significandLimit then
      let (kept, used) := extend (significand * 10 + d.val) rest
      (kept, used + 1)
    else (significand, 0)

/-- The significand of at most 64 bits that stands for the literal, and its power of ten. -/
def leading (n : Numeral) : Nat × Int :=
  let (kept, cut) := cutWhole n.whole
  let (significand, used) := extend kept n.fraction
  (significand, n.exponent.getD 0 + cut - used)

def exponentText (e : Int) : List Char :=
  (if e < 0 then ['e', '-'] else ['e', '+']) ++ Nat.toDigits 10 e.natAbs

def chars (n : Numeral) : List Char :=
  (if n.negative then ['-'] else []) ++ Nat.toDigits 10 n.whole ++
    (if n.fraction.isEmpty then [] else '.' :: n.fraction.map Digit.char) ++
    (n.exponent.map exponentText).getD []

end Numeral

end ServiceCheck
