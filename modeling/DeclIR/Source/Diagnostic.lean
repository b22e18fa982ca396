import DeclIR.Source.Span

/-!
# Diagnostics

A diagnostic is a message about a span, with notes in the order they were added and at most one
help text, the one given last.
-/

namespace DeclIR

/-- How grave a diagnostic is. -/
inductive Severity where
  | error
  | warning
deriving DecidableEq, Repr

/-- The heading of a rendered diagnostic. -/
def Severity.heading : Severity → String
  | .error => "Error"
  | .warning => "Warning"

/-- A message about a span of the source. -/
structure Diagnostic where
  severity : Severity
  message : String
  span : Span
  notes : List String := []
  help : Option String := none
deriving DecidableEq, Repr

namespace Diagnostic

/-- An error without notes or help. -/
def error (message : String) (span : Span) : Diagnostic := ⟨.error, message, span, [], none⟩

/-- A warning without notes or help. -/
def warning (message : String) (span : Span) : Diagnostic := ⟨.warning, message, span, [], none⟩

/-- Adds a note behind those already there. -/
def withNote (d : Diagnostic) (note : String) : Diagnostic := { d with notes := d.notes ++ [note] }

/-- Gives the help text, in place of one given before. -/
def withHelp (d : Diagnostic) (help : String) : Diagnostic := { d with help := some help }

end Diagnostic
end DeclIR
