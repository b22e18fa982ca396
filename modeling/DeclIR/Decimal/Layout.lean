import DeclIR.Decimal.Shortest

/-!
# The text of a floating-point number

A number is written with its shortest digits, by place value or in scientific form, as a `Layout`
says.
-/

namespace DeclIR.Decimal

/-- The choices in writing a number: the range of decimal exponents that are written by place value,
and the names of what is not a finite number. -/
structure Layout where
  leastPlain : Int
  greatestPlain : Int
  nan : String
  infinity : String

/-- The decimal digits of a number. -/
def digitChars (n : Nat) : List Char := Nat.toDigits 10 n

namespace Scaled

/-- The digits by place value, with at least one of them on each side of the point. -/
def plain (s : Scaled) : List Char :=
  let ds := digitChars s.digits
  if 0 ≤ s.exponent then
    ds ++ List.replicate s.exponent.toNat '0' ++ ['.', '0']
  else
    let places := (-s.exponent).toNat
    if places < ds.length then
      ds.take (ds.length - places) ++ '.' :: ds.drop (ds.length - places)
    else
      '0' :: '.' :: List.replicate (places - ds.length) '0' ++ ds

/-- The exponent of the first digit. -/
def leadingExponent (s : Scaled) : Int :=
  s.exponent + (digitChars s.digits).length - 1

/-- The first digit, a point before the others if there are any, and the first digit's exponent. -/
def scientific (s : Scaled) : List Char :=
  let mantissa :=
    match digitChars s.digits with
    | [] => []
    | [d] => [d]
    | d :: rest => d :: '.' :: rest
  mantissa ++ 'e' :: (toString s.leadingExponent).toList

end Scaled

namespace Layout

/-- A minus sign before a negative number. -/
def sign (negative : Bool) : List Char := if negative then ['-'] else []

/-- The text of a word of format `f`. -/
def write (l : Layout) (f : BinaryFormat) (word : Nat) : String :=
  String.ofList <|
    match f.read word with
    | .nan => l.nan.toList
    | .infinite negative => sign negative ++ l.infinity.toList
    | .zero negative => sign negative ++ ['0', '.', '0']
    | .finite negative m =>
      let s := m.shortest
      sign negative ++
        if l.leastPlain ≤ s.leadingExponent && s.leadingExponent ≤ l.greatestPlain then s.plain
        else s.scientific

end Layout
end DeclIR.Decimal
