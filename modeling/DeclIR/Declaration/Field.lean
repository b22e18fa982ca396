import DeclIR.Declaration.Tag
import DeclIR.Declaration.Variable
import DeclIR.Fault

/-!
# Fields

A field is a variable that belongs to a declared type or to its instances.  Its flags are first set
by its disposition.  Later a field can become final or volatile, but never both: either flag is
refused while the other one is set, and the field is then left as it was.
-/

namespace DeclIR

/-- How a field is declared.  It decides the field's first flags and is not kept. -/
inductive Disposition where
  | constant
  | final
  | plain
  /-- A synthetic field that holds the enclosing instance. -/
  | capture
  | volatile
deriving DecidableEq, Repr

namespace Disposition

/-- Whether a field declared so is final from the start. -/
def isFinal : Disposition → Bool
  | constant | final | capture => true
  | plain | volatile => false

/-- Whether a field declared so holds an enclosing instance. -/
def isCapture (d : Disposition) : Bool := d = capture

end Disposition

/-- A field of a declared type. -/
structure Field extends Variable where
  /-- The type that the field says it belongs to. -/
  owner : TypeId
  isStatic : Bool
  isConstant : Bool
  isCapture : Bool
  isVolatile : Bool
  tags : List Tag := []
deriving DecidableEq

namespace Field

/-- A new field without a declaration statement or annotations. -/
def new (info : Provenance) (name : Name) (owner : TypeId) (type : Ty) (isStatic : Bool)
    (d : Disposition) : Field where
  info
  name
  type
  isFinal := d.isFinal
  owner
  isStatic
  isConstant := d = .constant
  isCapture := d.isCapture
  isVolatile := d = .volatile

/-- The value of an initializer that is a literal. -/
def literal? (f : Field) : Option Literal := f.initializer?.bind Expr.literal?

/-- Attaches a declaration statement in place of any before. -/
def declare (f : Field) (d : Declaration) : Field := { f with toVariable := f.toVariable.declare d }

/-- Makes the field final, unless it is volatile. -/
def setFinal (f : Field) : Except Fault Field :=
  if f.isVolatile then
    .error (.illegalState "Volatile fields cannot be set final" f.name.text f.info)
  else .ok { f with isFinal := true }

/-- Makes the field volatile, unless it is final. -/
def setVolatile (f : Field) : Except Fault Field :=
  if f.isFinal then
    .error (.illegalState "Final fields cannot be set volatile" f.name.text f.info)
  else .ok { f with isVolatile := true }

end Field
end DeclIR
