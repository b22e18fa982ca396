import DeclIR.Decimal.Layout
import DeclIR.Text.Quoted
import DeclIR.Ty

/-!
# Literals

The values that an expression can spell out.  Floating-point values are kept as the words that
represent them, so that two literals are equal exactly when they have the same kind and bits;
`Literal.same` compares the numbers instead.
-/

namespace DeclIR

/-- A value spelled out in the code. -/
inductive Literal where
  | bool (b : Bool)
  | char (c : Char)
  | int (n : Int32)
  | long (n : Int64)
  | float (word : UInt32)
  | double (word : UInt64)
  | string (s : String)
  | null
deriving DecidableEq, Repr

namespace Literal

/-- Floats are written by place value from `1e-4` on and below `1e16`. -/
def floatLayout : Decimal.Layout := ⟨-4, 15, "NaN", "inf"⟩

/-- The type of a literal. -/
def type : Literal → Ty
  | .bool _ => .primitive .boolean
  | .char _ => .primitive .char
  | .int _ => .primitive .int
  | .long _ => .primitive .long
  | .float _ => .primitive .float
  | .double _ => .primitive .double
  | .string _ => .string
  | .null => .null

/-- The spelling of a literal. -/
def text : Literal → String
  | .bool b => if b then "true" else "false"
  | .char c => Text.Quoted.char c
  | .int n => toString n.toInt
  | .long n => toString n.toInt ++ "L"
  | .float w => floatLayout.write .single w.toNat ++ "f"
  | .double w => floatLayout.write .double w.toNat
  | .string s => Text.Quoted.string s
  | .null => "null"

/-- Equality of kind and value, where floating-point values are compared as numbers. -/
def same : Literal → Literal → Bool
  | .float a, .float b => Decimal.BinaryFormat.single.numericallyEqual a.toNat b.toNat
  | .double a, .double b => Decimal.BinaryFormat.double.numericallyEqual a.toNat b.toNat
  | a, b => a = b

end Literal
end DeclIR
