import DeclIR.NodeKind
import DeclIR.Source.Diagnostic

/-!
# Faults

The ways in which an operation on a program can break the rules that its parts rely on.  A fault
ends the pass that meets it; what the pass has changed until then stays changed.
-/

namespace DeclIR

/-- A broken rule. -/
inductive Fault where
  /-- A field was given a flag that excludes one it has. -/
  | illegalState (message field : String) (info : Provenance)
  /-- A visitor was offered a node that it has no rule for. -/
  | unsupportedNode (visitor : String) (kind : NodeKind) (info : Provenance)
  /-- An edit was requested for a node in a place that does not allow it. -/
  | invalidEdit (edit : String) (required : Slot)
  /-- A declaration anchor names a variable that its method cannot reach. -/
  | danglingSlot (slot : VarSlot) (info : Provenance)
  /-- A declared type is inconsistent. -/
  | violation (typeName detail : String) (info : Provenance)
deriving DecidableEq, Repr

namespace Fault

/-- What went wrong. -/
def message : Fault → String
  | illegalState m field _ => m ++ ": field `" ++ field ++ "`"
  | unsupportedNode visitor kind _ => visitor ++ " cannot handle " ++ kind.text ++ " nodes"
  | invalidEdit edit required =>
    "cannot " ++ edit ++ ": the current node is not in a " ++ required.text ++ " slot"
  | danglingSlot slot _ => "declaration of " ++ slot.text ++ " does not resolve in this scope"
  | violation typeName detail _ => "invariant violated in `" ++ typeName ++ "`: " ++ detail

/-- The provenance of the node at fault, if the fault is that of a node. -/
def info? : Fault → Option Provenance
  | illegalState _ _ i => some i
  | unsupportedNode _ _ i => some i
  | invalidEdit _ _ => none
  | danglingSlot _ i => some i
  | violation _ _ i => some i

/-- The note that every fault's diagnostic begins with. -/
def contractNote : String := "internal compiler error: a pass broke the IR contract"

/-- The advice that comes with a fault, if there is any. -/
def help? : Fault → Option String
  | illegalState .. => some "check the pass ordering that escalated this field"
  | _ => none

/-- The fault as an error at its node, with a note for each call site the node was expanded at. -/
def toDiagnostic (f : Fault) : Diagnostic :=
  let info := f.info?.getD Provenance.synthetic
  { severity := .error
    message := f.message
    span := info.span
    notes := contractNote :: info.sites.map fun s => "inlined at " ++ s.text
    help := f.help? }

end Fault
end DeclIR
