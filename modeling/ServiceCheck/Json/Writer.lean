import ServiceCheck.Json.Basic

set_option autoImplicit false

namespace ServiceCheck.Json

def hexDigit (n : Nat) : Char :=
  if n < 10 then Char.ofNat (48 + n) else Char.ofNat (87 + n)

/-- Quotes, backslashes and control characters are escaped, and nothing else. -/
def escape (c : Char) : List Char :=
  if c = '"' then ['\\', '"']
  else if c = '\\' then ['\\', '\\']
  else if c = '\n' then ['\\', 'n']
  else if c = '\r' then ['\\', 'r']
  else if c = '\t' then ['\\', 't']
  else if c = '\x08' then ['\\', 'b']
  else if c = '\x0c' then ['\\', 'f']
  else if c.toNat < 32 then
    ['\\', 'u', '0', '0', hexDigit (c.toNat / 16), hexDigit (c.toNat % 16)]
  else [c]

def writeString (s : String) (rest : List Char) : List Char :=
  '"' :: (s.toList.flatMap escape ++ '"' :: rest)

def writeEnd (bracket : Char) : Ending → List Char → List Char
  | .closed, rest => bracket :: rest
  | .torn, rest => rest

mutual

def write : Json → List Char → List Char
  | .null, rest => "null".toList ++ rest
  | .bool true, rest => "true".toList ++ rest
  | .bool false, rest => "false".toList ++ rest
  | .number n, rest => n.chars ++ rest
  | .string s, rest => writeString (s.getD "") rest
  | .broken, rest => rest
  | .array items ending, rest => '[' :: writeItems items (writeEnd ']' ending rest)
  | .object members ending, rest => '\x7b' :: writeMembers members (writeEnd '\x7d' ending rest)

def writeItems : List Json → List Char → List Char
  | [], rest => rest
  | [j], rest => write j rest
  | j :: js, rest => write j (',' :: writeItems js rest)

def writeMembers : List (Option String × Json) → List Char → List Char
  | [], rest => rest
  | [(k, j)], rest => writeString (k.getD "") (':' :: write j rest)
  | (k, j) :: ms, rest =>
    writeString (k.getD "") (':' :: write j (',' :: writeMembers ms rest))

end

def toText (j : Json) : String := String.ofList (write j [])

end ServiceCheck.Json
