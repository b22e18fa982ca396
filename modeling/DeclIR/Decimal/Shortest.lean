import DeclIR.Decimal.Binary

/-!
# Shortest decimals

The shortest decimal of a binary number is a multiple `digits * 10 ^ exponent` of the coarsest power
of ten that has a multiple among the reals which round to the number.  Of two such multiples the
nearer one is taken, and of two equally near ones the greater.

The reals that round to `m * 2 ^ q` are an interval around it, with its ends if `m` is even.  All
comparisons are made in whole numbers: the number and the interval's ends are counted in quarters of
the number's last place.
-/

namespace DeclIR.Decimal

/-- A decimal number `digits * 10 ^ exponent`. -/
structure Scaled where
  digits : Nat
  exponent : Int
deriving DecidableEq, Repr

namespace Magnitude

/-- The number, and the ends of the interval of reals that round to it, in quarters of the last
place. -/
def quarters (m : Magnitude) : Nat × Nat × Nat :=
  let n := 4 * m.significand
  (n - if m.atBinade then 1 else 2, n, n + 2)

/-- The factors that turn quarters of the last place into units of `10 ^ k`: a number of `n`
quarters is `n * fst / snd` such units. -/
def unitFactors (m : Magnitude) (k : Int) : Nat × Nat :=
  let q := m.exponent - 2
  (Nat.pow 2 q.toNat * Nat.pow 10 (-k).toNat, Nat.pow 2 (-q).toNat * Nat.pow 10 k.toNat)

/-- The multiple of `10 ^ k` that stands for the number, if there is one. -/
def onGrid? (m : Magnitude) (k : Int) : Option Nat :=
  let (low, value, high) := m.quarters
  let (up, down) := m.unitFactors k
  let inside (d : Nat) : Bool :=
    if m.significand % 2 = 0 then low * up ≤ d * down && d * down ≤ high * up
    else low * up < d * down && d * down < high * up
  let below := value * up / down
  let above := below + 1
  match inside below, inside above with
  | true, true =>
    if value * up - below * down < above * down - value * up then some below else some above
  | true, false => some below
  | false, true => some above
  | false, false => none

/-- Tries the `n` grids from `10 ^ k` downwards. -/
def search (m : Magnitude) : Nat → Int → Scaled
  | 0, k => ⟨0, k⟩
  | n + 1, k =>
    match m.onGrid? k with
    | some d => ⟨d, k⟩
    | none => m.search n (k - 1)

/-- The shortest decimal that rounds to the number.  No power of ten above the number's binary
size has a multiple in the interval, and `10 ^ (exponent - 2)` always has one. -/
def shortest (m : Magnitude) : Scaled :=
  let top : Int := max 0 (m.exponent + Nat.log2 m.significand + 2)
  let bottom : Int := min 0 (m.exponent - 2)
  m.search (top - bottom + 1).toNat top

end Magnitude
end DeclIR.Decimal
