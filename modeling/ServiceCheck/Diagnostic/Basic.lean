import ServiceCheck.Diagnostic.Kind
import ServiceCheck.Program.TypeDefinition

set_option autoImplicit false

namespace ServiceCheck

structure Related where
  message : String
  position : Position
deriving DecidableEq, Repr

/-- The position is `none` for a problem of the whole program and where none was recorded. -/
structure Diagnostic where
  kind : DiagnosticKind
  position : Option Position
  message : String
  related : List Related
  hints : List String
deriving DecidableEq, Repr

namespace Diagnostic

def unlocated (kind : DiagnosticKind) : Diagnostic := ⟨kind, none, kind.message none, [], []⟩

def located (kind : DiagnosticKind) (position : Position) : Diagnostic :=
  { unlocated kind with position := if position.isKnown then some position else none }

def detail (text : String) (d : Diagnostic) : Diagnostic :=
  { d with message := d.kind.message (some text) }

def hint (text : String) (d : Diagnostic) : Diagnostic := { d with hints := d.hints ++ [text] }

def relate (message : String) (position : Position) (d : Diagnostic) : Diagnostic :=
  if position.isKnown then { d with related := d.related ++ [⟨message, position⟩] } else d

def report (kind : DiagnosticKind) (position : Position) (text : String) : Diagnostic :=
  (located kind position).detail text

def severity (d : Diagnostic) : Severity := d.kind.severity

def isError (d : Diagnostic) : Bool := d.severity = .error

def isWarning (d : Diagnostic) : Bool := d.severity = .warning

/-- One line: position, severity, message, then notes and hints in parentheses. -/
def text (d : Diagnostic) : String :=
  let place := (d.position.map fun p => p.text ++ ": ").getD ""
  let notes := d.related.map fun r =>
    " (related: " ++ r.message ++ " at " ++ r.position.text ++ ")"
  let hints := d.hints.map fun h => " (hint: " ++ h ++ ")"
  place ++ d.severity.text ++ ": " ++ d.message ++ String.join notes ++ String.join hints

section Kind

variable (kind : DiagnosticKind) (position : Position) (message : String) (d : Diagnostic)

@[simp] theorem kind_unlocated : (unlocated kind).kind = kind := rfl

@[simp] theorem kind_located : (located kind position).kind = kind := rfl

@[simp] theorem kind_report : (report kind position message).kind = kind := rfl

@[simp] theorem kind_hint : (d.hint message).kind = d.kind := rfl

@[simp] theorem kind_relate : (d.relate message position).kind = d.kind := by
  unfold relate
  split <;> rfl

end Kind

end Diagnostic

abbrev Diagnostics := List Diagnostic

namespace Diagnostics

def errorCount (ds : Diagnostics) : Nat := List.countP Diagnostic.isError ds

def warningCount (ds : Diagnostics) : Nat := List.countP Diagnostic.isWarning ds

def hasErrors (ds : Diagnostics) : Bool := List.any ds Diagnostic.isError

def hasWarnings (ds : Diagnostics) : Bool := List.any ds Diagnostic.isWarning

def count (kind : DiagnosticKind) (ds : Diagnostics) : Nat := List.countP (·.kind = kind) ds

def kinds (ds : Diagnostics) : List DiagnosticKind := List.map Diagnostic.kind ds

def text (ds : Diagnostics) : String := "\n".intercalate (List.map Diagnostic.text ds)

def summary (ds : Diagnostics) : String :=
  "program is semantically invalid with " ++ (errorCount ds).repr ++ " errors"

end Diagnostics

inductive LogLevel where
  | debug
  | warn
  | error
deriving DecidableEq, Repr

def LogLevel.name : LogLevel → String
  | .debug => "DEBUG"
  | .warn => "WARN"
  | .error => "ERROR"

structure LogEvent where
  level : LogLevel
  message : String
  fields : List (String × String)
deriving DecidableEq, Repr

end ServiceCheck
