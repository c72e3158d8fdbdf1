import ServiceCheck.Double.Basic
import ServiceCheck.Json.Numeral

set_option autoImplicit false

namespace ServiceCheck.Double

structure Decimal where
  coefficient : Nat
  exponent : Int
deriving DecidableEq, Repr

/-- Decimal places below which no double reaches. -/
def gridPlaces : Nat := 400

def grid : Nat := Nat.pow 10 gridPlaces

/-- The number of decimal digits of a magnitude's value, counted from the lowest grid place. -/
def gridDigits (magnitude : Nat) : Nat :=
  (Nat.toDigits 10 (units magnitude * grid / unit)).length

/-- The better of the two neighbours on the grid that starts at a place, counted from the lowest
grid place, if one rounds to the magnitude. -/
def onGrid? (magnitude place : Nat) : Option Decimal :=
  let num := units magnitude * grid
  let den := unit * Nat.pow 10 place
  let below := num / den
  let rounds (c : Nat) : Bool := nearest (c * Nat.pow 10 place) grid == magnitude
  let nearer := divideToEven num den
  let farther := if nearer = below then below + 1 else below
  let exponent : Int := (place : Int) - gridPlaces
  if rounds nearer then some ⟨nearer, exponent⟩
  else if rounds farther then some ⟨farther, exponent⟩
  else none

def exactDecimal (magnitude : Nat) : Decimal := ⟨units magnitude * Nat.pow 5 1074, -1074⟩

def shortest (magnitude : Nat) : Decimal :=
  let all := gridDigits magnitude
  ((List.range' 1 17).findSome? fun digits => onGrid? magnitude (all - digits)).getD
    (exactDecimal magnitude)

def digitsOf (n : Nat) : List Digit := (Nat.toDigits 10 n).map Digit.ofChar

def wholeOf (digits : List Digit) : Nat := digits.foldl (fun n d => n * 10 + d.val) 0

def trimZeros (digits : List Digit) : List Digit :=
  (digits.reverse.dropWhile (·.val == 0)).reverse

/-- Positional with at least one place after the point from `10 ^ -5` up to `10 ^ 16`; outside
that, one digit before the point and an exponent. -/
def numeral (x : Double) : Numeral :=
  if x.magnitude = 0 then ⟨x.negative, 0, [.zero], none⟩
  else
    let d := shortest x.magnitude
    let all := digitsOf d.coefficient
    let point : Int := d.exponent + all.length
    let digits := trimZeros all
    if -4 ≤ point && point ≤ 0 then
      ⟨x.negative, 0, List.replicate point.natAbs .zero ++ digits, none⟩
    else if 0 < point && point ≤ 16 then
      let whole := digits.take point.toNat
      let filled := whole ++ List.replicate (point.toNat - whole.length) .zero
      let rest := digits.drop point.toNat
      ⟨x.negative, wholeOf filled, if rest.isEmpty then [.zero] else rest, none⟩
    else
      ⟨x.negative, wholeOf (digits.take 1), digits.drop 1, some (point - 1)⟩

def ofNumeral? (n : Numeral) : Option Double :=
  let (significand, exponent) := n.leading
  ofScientific? n.negative significand exponent

end ServiceCheck.Double
