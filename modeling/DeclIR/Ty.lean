import DeclIR.Code.Handle

/-!
# Types

The types that declarations and expressions refer to.  A declared type is named by its handle; the
name beside the handle is the one it is written with.
-/

namespace DeclIR

/-- The types that are not built from others. -/
inductive Primitive where
  | boolean
  | byte
  | char
  | short
  | int
  | long
  | float
  | double
  | void
deriving DecidableEq, Repr

/-- All primitive types. -/
def Primitive.all : List Primitive :=
  [.boolean, .byte, .char, .short, .int, .long, .float, .double, .void]

/-- The name of a primitive type. -/
def Primitive.text : Primitive → String
  | .boolean => "boolean"
  | .byte => "byte"
  | .char => "char"
  | .short => "short"
  | .int => "int"
  | .long => "long"
  | .float => "float"
  | .double => "double"
  | .void => "void"

/-- A type that a declaration or an expression refers to. -/
inductive Ty where
  | primitive (p : Primitive)
  | string
  /-- The type of the literal `null`. -/
  | null
  | declared (id : TypeId) (name : String)
  | array (element : Ty)
deriving DecidableEq, Repr

namespace Ty

/-- The `n`-fold array type over `t`. -/
def arrays (t : Ty) : Nat → Ty
  | 0 => t
  | n + 1 => .array (t.arrays n)

/-- Whether the type is a primitive one. -/
def isPrimitive : Ty → Bool
  | .primitive _ => true
  | _ => false

/-- The declared type that this is, or that this is an array of. -/
def declaredId? : Ty → Option TypeId
  | .declared id _ => some id
  | .array t => t.declaredId?
  | _ => none

/-- A type is written by its name, an array by its element type and a pair of brackets. -/
def text : Ty → String
  | .primitive p => p.text
  | .string => "String"
  | .null => "null"
  | .declared _ name => name
  | .array t => t.text ++ "[]"

end Ty
end DeclIR
