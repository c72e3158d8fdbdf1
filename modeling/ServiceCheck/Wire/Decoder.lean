import ServiceCheck.Dictionary
import ServiceCheck.Json.Reader

/-!
Decoding JSON values into program parts. Of several problems the one that a reader of the text
meets first is reported: every problem of a record carries its place, and the earliest wins.
-/

set_option autoImplicit false

namespace ServiceCheck

inductive DecodeError where
  | missingField (name : String)
  | unknownVariant (name : String)
  | duplicateField (name : String)
  | invalidType
  | invalidValue
  | invalidLength
  | malformed
deriving DecidableEq, Repr

def DecodeError.message : DecodeError → String
  | .missingField name => "missing field `" ++ name ++ "`"
  | .unknownVariant name => "unknown variant `" ++ name ++ "`"
  | .duplicateField name => "duplicate field `" ++ name ++ "`"
  | .invalidType => "invalid type"
  | .invalidValue => "invalid value"
  | .invalidLength => "invalid length"
  | .malformed => "malformed"

def Json.mismatch (j : Json) : DecodeError := if j.isSound then .invalidType else .malformed

/-- The number tells how many arrays and objects may still be opened. -/
abbrev Decoder (α : Type) := Nat → Json → Except DecodeError α

namespace Decoder

variable {α β : Type}

/-- Arrays and objects that may be open at once. -/
def deepest : Nat := 127

def bool : Decoder Bool
  | _, .bool b => .ok b
  | _, j => .error j.mismatch

def string : Decoder String
  | _, .string (some s) => .ok s
  | _, j => .error j.mismatch

def double : Decoder Double
  | _, .number n =>
    match Double.ofNumeral? n with
    | some x => .ok x
    | none => .error .malformed
  | _, j => .error j.mismatch

def integer (low high : Int) : Decoder Int
  | _, .number n =>
    match n.toInt? with
    | some i => if low ≤ i ∧ i ≤ high then .ok i else .error .invalidValue
    | none => .error (Json.number n).mismatch
  | _, j => .error j.mismatch

def int32 : Decoder Int32 := fun room j =>
  (integer Int32.minValue.toInt Int32.maxValue.toInt room j).map Int32.ofInt

def int64 : Decoder Int64 := fun room j =>
  (integer Int64.minValue.toInt Int64.maxValue.toInt room j).map Int64.ofInt

def uint32 : Decoder UInt32 := fun room j =>
  (integer 0 (UInt32.size - 1) room j).map fun i => UInt32.ofNat i.toNat

def optional (d : Decoder α) : Decoder (Option α)
  | _, .null => .ok none
  | room, j => (d room j).map some

def list (d : Decoder α) : Decoder (List α)
  | 0, .array _ _ => .error .malformed
  | room + 1, .array items ending => do
    let values ← items.mapM (d room)
    if ending = .closed then .ok values else .error .malformed
  | _, j => .error j.mismatch

def pair (d : Decoder α) (e : Decoder β) : Decoder (α × β)
  | 0, .array _ _ => .error .malformed
  | room + 1, .array items ending => do
    let short : DecodeError := if ending = .closed then .invalidLength else .malformed
    match items with
    | [] => .error short
    | first :: rest =>
      let x ← d room first
      match rest with
      | [] => .error short
      | second :: rest =>
        let y ← e room second
        if rest.isEmpty ∧ ending = .closed then .ok (x, y) else .error .malformed
  | _, j => .error j.mismatch

def entries (d : Decoder α) (room : Nat) :
    List (Option String × Json) → Except DecodeError (List (String × α))
  | [] => .ok []
  | (none, _) :: _ => .error .malformed
  | (some key, j) :: rest => do
    let value ← d room j
    let others ← entries d room rest
    .ok ((key, value) :: others)

def dictionary (d : Decoder α) : Decoder (Dictionary α)
  | 0, .object _ _ => .error .malformed
  | room + 1, .object members ending => do
    let pairs ← entries d room members
    if ending = .closed then .ok (Dictionary.ofList pairs) else .error .malformed
  | _, j => .error j.mismatch

/-- What stands behind the name of a variant: nothing, or a value. -/
inductive Content (α : Type) where
  | unit (result : α)
  | value (decoder : Decoder α)

def Content.decode (room : Nat) (j : Json) : Content α → Except DecodeError α
  | .unit result =>
    match j with
    | .null => .ok result
    | j => .error j.mismatch
  | .value d => d room j

/-- A variant is written as an object with its name as the only key, or as the bare name when
nothing stands behind it. -/
def choice (variants : List (String × Content α)) : Decoder α
  | _, .string (some name) =>
    match variants.lookup name with
    | none => .error (.unknownVariant name)
    | some (.unit result) => .ok result
    | some (.value _) => .error .invalidType
  | room + 1, .object members ending =>
    match members with
    | [] => .error .malformed
    | (none, _) :: _ => .error .malformed
    | (some name, j) :: rest =>
      match variants.lookup name with
      | none => .error (.unknownVariant name)
      | some content => do
        let result ← content.decode room j
        if rest.isEmpty ∧ ending = .closed then .ok result else .error .malformed
  | _, _ => .error .malformed

/-- The written names of an enumeration, one table for both directions. -/
def named (names : List (String × α)) : Decoder α :=
  choice (names.map fun (name, value) => (name, .unit value))

abbrev Placed (α : Type) := Except (Nat × DecodeError) α

/-- Both parts, or the problem with the smaller place; at one place the left problem. -/
def Placed.both (f : Placed (α → β)) (x : Placed α) : Placed β :=
  match f, x with
  | .ok f, .ok x => .ok (f x)
  | .error e, .ok _ => .error e
  | .ok _, .error e => .error e
  | .error e, .error e' => .error (if e'.1 < e.1 then e' else e)

/-- The result, unless the check found a problem at an earlier place. -/
def Placed.checked (check : Placed Unit) (x : Placed α) : Placed α :=
  Placed.both (check.map fun _ => id) x

def Placed.at (place : Nat) (result : Except DecodeError α) : Placed α :=
  result.mapError fun e => (place, e)

/-- How the fields of a record are found. Members of an object are looked up by name; items of an
array stand in the order of the fields, from `start` on. -/
structure Fields (α : Type) where
  names : List String
  ofMembers : Nat → List (Option String × Json) → Placed α
  ofItems : Nat → Nat → List Json → Placed α

def locate (name : String) : List (Option String × Json) → Option (Nat × Json)
  | [] => none
  | (key, j) :: rest =>
    if key = some name then some (0, j)
    else (locate name rest).map fun (place, j) => (place + 1, j)

/-- A field with the outcome for an object and for an array that lack it. -/
def field (name : String) (d : Decoder α) (unnamed short : Except DecodeError α) : Fields α where
  names := [name]
  ofMembers room members :=
    match locate name members with
    | some (place, j) => .at place (d room j)
    | none => .at (members.length + 1) unnamed
  ofItems room start items :=
    match items[start]? with
    | some j => .at start (d room j)
    | none => .at (items.length + 1) short

def required (name : String) (d : Decoder α) : Fields α :=
  field name d (.error (.missingField name)) (.error .invalidLength)

def defaulted (name : String) (value : α) (d : Decoder α) : Fields α :=
  field name d (.ok value) (.ok value)

/-- An object may leave the field out, an array may not. -/
def nullable (name : String) (d : Decoder α) : Fields (Option α) :=
  field name (optional d) (.ok none) (.error .invalidLength)

instance : Applicative Fields where
  pure x := ⟨[], fun _ _ => .ok x, fun _ _ _ => .ok x⟩
  seq f x :=
    { names := f.names ++ (x ()).names
      ofMembers := fun room members =>
        (f.ofMembers room members).both ((x ()).ofMembers room members)
      ofItems := fun room start items =>
        (f.ofItems room start items).both ((x ()).ofItems room (start + f.names.length) items) }

/-- A key that cannot be read, or that repeats a field; then an object that breaks off. -/
def memberFlaw (names : List String) (ending : Ending) :
    List String → Nat → List (Option String × Json) → Placed Unit
  | _, place, [] => if ending = .closed then .ok () else .error (place, .malformed)
  | _, place, (none, _) :: _ => .error (place, .malformed)
  | seen, place, (some key, _) :: rest =>
    if key ∈ seen then .error (place, .duplicateField key)
    else memberFlaw names ending (if key ∈ names then key :: seen else seen) (place + 1) rest

/-- An array that breaks off, or that holds more than the fields. -/
def itemFlaw (fields : Nat) (ending : Ending) (items : List Json) : Placed Unit :=
  if ending ≠ .closed then .error (items.length, .malformed)
  else if fields < items.length then .error (fields, .malformed)
  else .ok ()

def Placed.result (x : Placed α) : Except DecodeError α := x.mapError (·.2)

def record (fields : Fields α) : Decoder α
  | 0, .object _ _ | 0, .array _ _ => .error .malformed
  | room + 1, .object members ending =>
    (Placed.checked (memberFlaw fields.names ending [] 0 members)
      (fields.ofMembers room members)).result
  | room + 1, .array items ending =>
    (Placed.checked (itemFlaw fields.names.length ending items)
      (fields.ofItems room 0 items)).result
  | _, j => .error j.mismatch

/-- A whole text: the value decodes and nothing stands behind it. -/
def ofText (d : Decoder α) (text : String) : Except DecodeError α := do
  let document := Json.Document.read text
  let value ← d deepest document.root
  if document.clean then .ok value else .error .malformed

def ofJson (d : Decoder α) (j : Json) : Except DecodeError α := d deepest j

end Decoder

def nameIn {α : Type} [DecidableEq α] (names : List (String × α)) (value : α) : String :=
  ((names.find? (·.2 = value)).map (·.1)).getD ""

end ServiceCheck
