import DeclIR.Code.Expr

/-!
# Variables

What fields, local variables and parameters have in common: a name, a type, whether they are final,
and a declaration statement once one is attached.
-/

namespace DeclIR

/-- The name of a variable, which is never empty. -/
structure Name where
  text : String
  text_ne : text ≠ ""
deriving DecidableEq

/-- The name with this text, if there is one. -/
def Name.ofString? (s : String) : Option Name :=
  if h : s = "" then none else some ⟨s, h⟩

/-- The name of one character. -/
def Name.ofChar (c : Char) : Name := ⟨String.singleton c, by simp⟩

/-- The statement that gives a variable its first value. -/
structure Declaration where
  info : Provenance
  initializer : Expr
deriving DecidableEq

/-- A variable: a local variable or parameter of a method, or the part of a field that is like
one. -/
structure Variable where
  info : Provenance
  name : Name
  type : Ty
  isFinal : Bool
  declaration : Option Declaration := none
deriving DecidableEq

namespace Variable

/-- The expression that gives the variable its first value, if one is attached. -/
def initializer? (v : Variable) : Option Expr := v.declaration.map (·.initializer)

/-- Attaches a declaration statement in place of any before. -/
def declare (v : Variable) (d : Declaration) : Variable := { v with declaration := some d }

/-- Makes a local variable or parameter final. -/
def setFinal (v : Variable) : Variable := { v with isFinal := true }

end Variable
end DeclIR
