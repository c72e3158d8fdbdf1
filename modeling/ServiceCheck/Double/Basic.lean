/-!
Finite binary numbers of double precision. A magnitude is held as the number of its place among all
finite magnitudes in increasing order, which is also its bit pattern; its value is a whole number
of units of `2 ^ -1074`. All arithmetic is exact up to one rounding at the end.
-/

set_option autoImplicit false

namespace ServiceCheck

/-- How many magnitudes lie from one power of two to the next. -/
def Double.binade : Nat := 0x10000000000000

structure Double where
  negative : Bool
  magnitude : Nat
  finite : magnitude < 2047 * Double.binade
deriving DecidableEq, Repr

namespace Double

def zero : Double := ⟨false, 0, by decide⟩

/-- Both zeros are one number. -/
def agrees (x y : Double) : Bool :=
  x.magnitude == y.magnitude && (x.negative == y.negative || x.magnitude == 0)

def unit : Nat := 1 <<< 1074

/-- The value of a magnitude in units of `2 ^ -1074`. -/
def units (magnitude : Nat) : Nat :=
  if magnitude < binade then magnitude
  else (binade + magnitude % binade) <<< (magnitude / binade - 1)

/-- The whole number nearest to a quotient; a half goes to the even neighbour. -/
def divideToEven (n d : Nat) : Nat :=
  let q := n / d
  let r := n % d
  if d < 2 * r || (2 * r = d && q % 2 = 1) then q + 1 else q

/-- The magnitude nearest to `num / den`. At `2047 * binade` and above it is out of range. -/
def nearest (num den : Nat) : Nat :=
  let scaled := num * unit
  let shift := (scaled / den).log2 - 52
  shift * binade + divideToEven scaled (den <<< shift)

def product (x y : Nat) : Nat := nearest (units x * units y) (unit * unit)

def quotient (x y : Nat) : Nat := nearest (units x) (units y)

def tenPower (k : Nat) : Nat := nearest (Nat.pow 10 k) 1

/-- The largest power of ten in range has this exponent. -/
def largestPower : Nat := 308

def ofMagnitude? (negative : Bool) (magnitude : Nat) : Option Double :=
  if h : magnitude < 2047 * binade then some ⟨negative, magnitude, h⟩ else none

/-- Divides by a power of ten, in several steps where that power is itself out of range. -/
def scaleDown (magnitude k : Nat) : Nat :=
  if k ≤ largestPower then quotient magnitude (tenPower k)
  else if magnitude = 0 then 0
  else scaleDown (quotient magnitude (tenPower largestPower)) (k - largestPower)
termination_by k
decreasing_by simp only [largestPower] at *; omega

/-- The significand is rounded first and then scaled by a rounded power of ten, so that a literal
of many digits may come out one place beside the nearest double. Out of range is `none`. -/
def ofScientific? (negative : Bool) (significand : Nat) (exponent : Int) : Option Double :=
  let whole := nearest significand 1
  match exponent with
  | .ofNat k =>
    if k ≤ largestPower then ofMagnitude? negative (product whole (tenPower k))
    else if whole = 0 then ofMagnitude? negative 0
    else none
  | .negSucc k => ofMagnitude? negative (scaleDown whole (k + 1))

end Double

end ServiceCheck
