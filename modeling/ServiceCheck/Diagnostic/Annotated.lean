import ServiceCheck.Diagnostic.Basic
import ServiceCheck.Text.Line

set_option autoImplicit false

namespace ServiceCheck

/-- Without `source` every diagnostic is one line of text. With `path` only the diagnostics
recorded against that name are shown in the source. -/
structure Presentation where
  source : Option String
  path : Option String
  colored : Bool

namespace Presentation

inductive Style where
  | severity (s : Severity)
  | title
  | frame
  | label

def Style.code : Style → String
  | .severity .error => "\x1b[1m\x1b[91m"
  | .severity .warning => "\x1b[1m\x1b[33m"
  | .title | .label => "\x1b[1m"
  | .frame => "\x1b[1m\x1b[94m"

def paint (p : Presentation) (s : Style) (text : String) : String :=
  if p.colored then s.code ++ text ++ "\x1b[0m" else text

/-- The 1-based number and the text of the source line that the diagnostic points at. -/
def sourceLine? (p : Presentation) (source : String) (d : Diagnostic) :
    Option (Nat × List Char) := do
  let position ← d.position
  if p.path.any (· != position.source) then none
  else
    match position.line.toNat with
    | 0 => none
    | index + 1 => (Text.lines source)[index]?.map fun line => (index + 1, line)

def spaces (n : Nat) : String := String.ofList (List.replicate n ' ')

def columns (part : List Char) : Nat := Text.width (Text.shown part)

/-- The marks cover the columns of the marked text; an empty range still gets one. -/
def marks (m : Text.Marked) : String :=
  String.ofList (List.replicate (max 1 (columns m.marked)) '^')

def annotated (p : Presentation) (d : Diagnostic) (number : Nat) (line : List Char) : String :=
  let m := Text.mark line
  let digits := number.repr
  let margin := spaces (digits.length + 1)
  let bar := p.paint .frame "|"
  let message := String.ofList (Text.shown d.message.toList)
  let title := p.paint (.severity d.severity) d.severity.text ++ p.paint .title (": " ++ message)
  let place := p.path.toList.map fun path =>
    spaces digits.length ++ p.paint .frame "--> " ++ path ++ ":" ++ digits ++ ":" ++
      (m.before.length + 1).repr
  let shown := if line.isEmpty then "" else " " ++ String.ofList (Text.shown line)
  let code := p.paint .frame digits ++ " " ++ bar ++ shown
  let under := margin ++ bar ++ " " ++ spaces (columns m.before) ++
    p.paint (.severity d.severity) (marks m)
  let hints := d.hints.map fun hint =>
    margin ++ p.paint .frame "= " ++ p.paint .label "help" ++ ": " ++ hint
  let gap := if hints.isEmpty then [] else [margin ++ bar]
  "\n".intercalate ([title] ++ place ++ [margin ++ bar, code, under] ++ gap ++ hints)

def diagnostic (p : Presentation) (d : Diagnostic) : String :=
  match p.source.bind fun source => p.sourceLine? source d with
  | some (number, line) => p.annotated d number line
  | none => d.text

def diagnostics (p : Presentation) (ds : Diagnostics) : String :=
  "\n".intercalate (ds.map p.diagnostic)

end Presentation

end ServiceCheck
