import DeclIR.Declaration.Tag
import DeclIR.Declaration.Variable
import DeclIR.Code.Stmt

/-!
# Methods

A method has parameters, local variables and, unless it is abstract, a body.  Its local variables
are listed beside the body; anchors in the body say where each is declared.
-/

namespace DeclIR

/-- The name of the method that initializes a type's static fields. -/
def staticInitializerName : String := "$clinit"

/-- The name of the method that initializes an instance's fields. -/
def instanceInitializerName : String := "$init"

/-- A method of a declared type. -/
structure Method where
  info : Provenance
  name : String
  /-- The type that the method says it belongs to. -/
  owner : TypeId
  isStatic : Bool
  returnType : Ty
  parameters : List Variable := []
  locals : List Variable := []
  body : Option Block := none
  tags : List Tag := []

namespace Method

/-- Whether the method initializes fields, which its name decides. -/
def isInitializer (m : Method) : Bool :=
  m.name = staticInitializerName || m.name = instanceInitializerName

/-- Adds a parameter behind the others. -/
def addParameter (m : Method) (v : Variable) : Method :=
  { m with parameters := m.parameters ++ [v] }

/-- Adds a local variable behind the others.  An anchor in the body is not added with it. -/
def addLocal (m : Method) (v : Variable) : Method := { m with locals := m.locals ++ [v] }

/-- Changes the statements of the body, if there is one. -/
def mapStmts? (m : Method) (f : List Stmt → List Stmt) : Option Method :=
  m.body.map fun b => { m with body := some { b with stmts := f b.stmts } }

end Method
end DeclIR
