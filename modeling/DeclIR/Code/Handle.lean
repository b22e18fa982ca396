/-!
# Handles

Declarations refer to one another by position, never by containment: a type by its position in the
program, a field or method by its type and its position there, a local variable or parameter by its
position in its method.
-/

namespace DeclIR

/-- The position of a declared type in its program. -/
abbrev TypeId := Nat

/-- A field: the type that owns it, and its position among the fields there. -/
structure FieldId where
  owner : TypeId
  index : Nat
deriving DecidableEq, Repr

/-- A method: the type that owns it, and its position among the methods there. -/
structure MethodId where
  owner : TypeId
  index : Nat
deriving DecidableEq, Repr

/-- The variable that a declaration anchor stands for. -/
inductive VarSlot where
  | field (id : FieldId)
  | localVar (index : Nat)
deriving DecidableEq, Repr

/-- A slot is described by its numbers, which say enough when it does not resolve. -/
def VarSlot.text : VarSlot → String
  | .field id => "field #" ++ toString id.index ++ " of type #" ++ toString id.owner
  | .localVar i => "local #" ++ toString i

end DeclIR
