/-!
# Binary floating-point words

A word of a binary interchange format is a sign, an exponent field and a fraction field.  Read as a
number it is an infinity, no number at all, or a whole multiple `significand * 2 ^ exponent` of a
power of two.
-/

namespace DeclIR.Decimal

/-- The widths of the two fields of a binary interchange format. -/
structure BinaryFormat where
  fractionBits : Nat
  exponentBits : Nat
deriving DecidableEq, Repr

namespace BinaryFormat

/-- The format of 32 bits. -/
def single : BinaryFormat := ⟨23, 8⟩

/-- The format of 64 bits. -/
def double : BinaryFormat := ⟨52, 11⟩

/-- The exponent of the least bit of the fraction when the exponent field is at most one. -/
def minExponent (f : BinaryFormat) : Int := 2 - Nat.pow 2 (f.exponentBits - 1) - f.fractionBits

end BinaryFormat

/-- A positive number `significand * 2 ^ exponent` of a format.  `atBinade` says that the number
below it lies only half as far away as the one above. -/
structure Magnitude where
  significand : Nat
  exponent : Int
  atBinade : Bool
deriving DecidableEq, Repr

/-- What a word stands for. -/
inductive Reading where
  | nan
  | infinite (negative : Bool)
  | zero (negative : Bool)
  | finite (negative : Bool) (m : Magnitude)
deriving DecidableEq, Repr

namespace BinaryFormat

/-- Reads the fields of a word. -/
def read (f : BinaryFormat) (word : Nat) : Reading :=
  let fractions := Nat.pow 2 f.fractionBits
  let fields := Nat.pow 2 f.exponentBits
  let fraction := word % fractions
  let field := word / fractions % fields
  let negative := word / fractions / fields % 2 = 1
  if field = fields - 1 then
    if fraction = 0 then .infinite negative else .nan
  else if field = 0 then
    if fraction = 0 then .zero negative else .finite negative ⟨fraction, f.minExponent, false⟩
  else
    .finite negative
      ⟨fractions + fraction, f.minExponent + (field - 1 : Nat), fraction = 0 && field ≠ 1⟩

/-- Whether two words are equal as numbers: no NaN equals anything, and the two zeros are equal. -/
def numericallyEqual (f : BinaryFormat) (a b : Nat) : Bool :=
  match f.read a, f.read b with
  | .nan, _ => false
  | _, .nan => false
  | .zero _, .zero _ => true
  | x, y => x = y

end BinaryFormat
end DeclIR.Decimal
