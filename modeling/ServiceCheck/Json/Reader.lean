import ServiceCheck.Json.Basic

/-!
Reading JSON text. Each function gives what it read and the text behind it, or `none` for that text
when the reading broke off. A broken value stands at the end of all that was read.
-/

set_option autoImplicit false

namespace ServiceCheck.Json

def isBlank (c : Char) : Bool := c == ' ' || c == '\t' || c == '\n' || c == '\r'

def skipBlanks : List Char → List Char := List.dropWhile isBlank

def expect : List Char → List Char → Option (List Char)
  | [], rest => some rest
  | _ :: _, [] => none
  | e :: es, c :: cs => if e = c then expect es cs else none

def digit? (c : Char) : Option Digit :=
  if '0' ≤ c ∧ c ≤ '9' then some (Digit.ofChar c) else none

def takeDigits : List Char → List Digit × List Char
  | [] => ([], [])
  | c :: cs =>
    match digit? c with
    | some d => let (ds, rest) := takeDigits cs; (d :: ds, rest)
    | none => ([], c :: cs)

/-- A lone zero, or digits that do not start with one. -/
def readWhole (cs : List Char) : Option (Nat × List Char) :=
  match takeDigits cs with
  | ([], _) => none
  | ([d], rest) => some (d.val, rest)
  | (d :: ds, rest) => if d.val = 0 then none else some (Double.wholeOf (d :: ds), rest)

def readFraction : List Char → Option (List Digit × List Char)
  | '.' :: cs =>
    match takeDigits cs with
    | ([], _) => none
    | (ds, rest) => some (ds, rest)
  | cs => some ([], cs)

def readSigned (cs : List Char) : Option (Int × List Char) :=
  let (negative, cs) : Bool × List Char :=
    match cs with
    | '-' :: rest => (true, rest)
    | '+' :: rest => (false, rest)
    | _ => (false, cs)
  match takeDigits cs with
  | ([], _) => none
  | (ds, rest) =>
    let n := Double.wholeOf ds
    some (if negative then -n else n, rest)

def readExponent : List Char → Option (Option Int × List Char)
  | 'e' :: cs | 'E' :: cs => (readSigned cs).map fun (e, rest) => (some e, rest)
  | cs => some (none, cs)

def readNumeral (cs : List Char) : Option (Numeral × List Char) := do
  let (negative, cs) : Bool × List Char :=
    match cs with
    | '-' :: rest => (true, rest)
    | _ => (false, cs)
  let (whole, cs) ← readWhole cs
  let (fraction, cs) ← readFraction cs
  let (exponent, cs) ← readExponent cs
  some (⟨negative, whole, fraction, exponent⟩, cs)

def hexValue? (c : Char) : Option Nat :=
  if '0' ≤ c ∧ c ≤ '9' then some (c.toNat - 48)
  else if 'a' ≤ c ∧ c ≤ 'f' then some (c.toNat - 87)
  else if 'A' ≤ c ∧ c ≤ 'F' then some (c.toNat - 55)
  else none

def hex4? (a b c d : Char) : Option Nat := do
  return (((← hexValue? a) * 16 + (← hexValue? b)) * 16 + (← hexValue? c)) * 16 + (← hexValue? d)

def shortEscape? (c : Char) : Option Nat :=
  if c = '"' || c = '\\' || c = '/' then some c.toNat
  else if c = 'b' then some 8
  else if c = 'f' then some 12
  else if c = 'n' then some 10
  else if c = 'r' then some 13
  else if c = 't' then some 9
  else none

/-- The character codes up to the closing quote; an escaped surrogate counts as a code. -/
def readCodes : List Char → Option (List Nat × List Char)
  | [] => none
  | '"' :: rest => some ([], rest)
  | '\\' :: 'u' :: a :: b :: c :: d :: rest => do
    let n ← hex4? a b c d
    let (codes, rest) ← readCodes rest
    some (n :: codes, rest)
  | '\\' :: e :: rest => do
    let n ← shortEscape? e
    let (codes, rest) ← readCodes rest
    some (n :: codes, rest)
  | c :: rest =>
    if c.toNat < 32 then none
    else do
      let (codes, rest) ← readCodes rest
      some (c.toNat :: codes, rest)

def isHighSurrogate (n : Nat) : Bool := 0xD800 ≤ n && n < 0xDC00

def isLowSurrogate (n : Nat) : Bool := 0xDC00 ≤ n && n < 0xE000

/-- Joins surrogate pairs; `none` where a half stands alone. -/
def joinPairs : List Nat → Option (List Char)
  | [] => some []
  | [n] => if isHighSurrogate n || isLowSurrogate n then none else some [Char.ofNat n]
  | n :: m :: rest =>
    if isHighSurrogate n && isLowSurrogate m then
      (joinPairs rest).map (Char.ofNat (0x10000 + (n - 0xD800) * 0x400 + (m - 0xDC00)) :: ·)
    else if isHighSurrogate n || isLowSurrogate n then none
    else (joinPairs (m :: rest)).map (Char.ofNat n :: ·)

def readString (cs : List Char) : Option (Option String × List Char) :=
  (readCodes cs).map fun (codes, rest) => ((joinPairs codes).map String.ofList, rest)

def readWord (word : List Char) (value : Json) (cs : List Char) : Json × Option (List Char) :=
  match expect word cs with
  | some rest => (value, some rest)
  | none => (.broken, none)

mutual

/-- The first argument bounds the number of steps and exceeds them for twice the text's length. -/
def readValue : Nat → List Char → Json × Option (List Char)
  | 0, _ => (.broken, none)
  | n + 1, cs =>
    match skipBlanks cs with
    | 'n' :: rest => readWord ['u', 'l', 'l'] .null rest
    | 't' :: rest => readWord ['r', 'u', 'e'] (.bool true) rest
    | 'f' :: rest => readWord ['a', 'l', 's', 'e'] (.bool false) rest
    | '"' :: rest =>
      match readString rest with
      | some (s, rest) => (.string s, some rest)
      | none => (.broken, none)
    | '[' :: rest =>
      match skipBlanks rest with
      | ']' :: rest => (.array [] .closed, some rest)
      | [] => (.array [] .torn, none)
      | _ =>
        let (items, ending, rest) := readItems n rest
        (.array items ending, rest)
    | '\x7b' :: rest =>
      match skipBlanks rest with
      | '\x7d' :: rest => (.object [] .closed, some rest)
      | '"' :: _ =>
        let (members, ending, rest) := readMembers n rest
        (.object members ending, rest)
      | _ => (.object [] .torn, none)
    | cs =>
      match readNumeral cs with
      | some (numeral, rest) => (.number numeral, some rest)
      | none => (.broken, none)

def readItems : Nat → List Char → List Json × Ending × Option (List Char)
  | 0, _ => ([], .torn, none)
  | n + 1, cs =>
    match readValue n cs with
    | (item, none) => ([item], .torn, none)
    | (item, some rest) =>
      match skipBlanks rest with
      | ',' :: rest =>
        let (items, ending, rest) := readItems n rest
        (item :: items, ending, rest)
      | ']' :: rest => ([item], .closed, some rest)
      | _ => ([item], .torn, none)

def readMembers : Nat → List Char → List (Option String × Json) × Ending × Option (List Char)
  | 0, _ => ([], .torn, none)
  | n + 1, cs =>
    match skipBlanks cs with
    | '"' :: rest =>
      match readString rest with
      | none => ([], .torn, none)
      | some (key, rest) =>
        match skipBlanks rest with
        | ':' :: rest =>
          match readValue n rest with
          | (value, none) => ([(key, value)], .torn, none)
          | (value, some rest) =>
            match skipBlanks rest with
            | ',' :: rest =>
              let (members, ending, rest) := readMembers n rest
              ((key, value) :: members, ending, rest)
            | '\x7d' :: rest => ([(key, value)], .closed, some rest)
            | _ => ([(key, value)], .torn, none)
        | _ => ([(key, .broken)], .torn, none)
    | _ => ([], .torn, none)

end

/-- `clean` says that nothing but blanks stands behind the value. -/
structure Document where
  root : Json
  clean : Bool

def Document.read (text : String) : Document :=
  let cs := text.toList
  match readValue (2 * cs.length + 2) cs with
  | (root, some rest) => ⟨root, (skipBlanks rest).isEmpty⟩
  | (root, none) => ⟨root, false⟩

end ServiceCheck.Json
