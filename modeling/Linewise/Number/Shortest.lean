import Linewise.Number.Basic

/-!
# Shortest decimals

The decimal of a finite number is the one with the fewest digits that rounds back to the number,
and of those the nearest. It is searched for one count of digits after the other; on the grid of
decimals with a given count only the two neighbours of the number have to be tried. Every answer
reads back as the number it came from, by construction.
-/

namespace Linewise

/-- The decimal `coefficient · 10^exponent`. -/
structure Decimal where
  coefficient : Nat
  exponent : Int
deriving DecidableEq, Repr

namespace Decimal

/-- The number nearest to a decimal. -/
def toNumber (negative : Bool) (d : Decimal) : Number :=
  .ofDecimal negative d.coefficient d.exponent

/-- The decimal digits of the coefficient, first digit first. -/
def digits (d : Decimal) : List Char := Nat.toDigits 10 d.coefficient

/-- The power of ten of the first digit. -/
def magnitude (d : Decimal) : Int := d.exponent + d.digits.length - 1

/-- Moves zeros at the end of a coefficient of at most `fuel` digits into the exponent. -/
def stripZeros : Nat → Decimal → Decimal
  | 0, d => d
  | fuel + 1, d =>
    if d.coefficient ≠ 0 ∧ d.coefficient % 10 = 0 then
      stripZeros fuel ⟨d.coefficient / 10, d.exponent + 1⟩
    else d

end Decimal

namespace Finite

/-- The least `k` up to `fuel` at which `num · 10^k` reaches `den`. -/
def decimalShift (num den : Nat) : Nat → Nat → Nat
  | 0, k => k
  | fuel + 1, k => if den ≤ num * Nat.pow 10 k then k else decimalShift num den fuel (k + 1)

/-- The power of ten of the first decimal digit of a number other than zero. -/
def magnitude (x : Finite) : Int :=
  if unitsPerOne ≤ x.units then (Nat.toDigits 10 (x.units / unitsPerOne)).length - 1
  else -(decimalShift x.units unitsPerOne 400 0)

/-- The decimals next below and next above `x` among those with the given exponent, the nearer
one first; halfway between the two it is the even one. -/
def neighbours (x : Finite) (exponent : Int) : List Decimal :=
  let num := match exponent with
    | .ofNat _ => x.units
    | .negSucc e => x.units * Nat.pow 10 (e + 1)
  let den := match exponent with
    | .ofNat e => unitsPerOne * Nat.pow 10 e
    | .negSucc _ => unitsPerOne
  let below := num / den
  let nearer := roundQuotient num den
  [⟨nearer, exponent⟩, ⟨if nearer = below then below + 1 else below, exponent⟩]

/-- A decimal that reads back as `x`. -/
@[irreducible] def reads (x : Finite) (d : Decimal) : Bool := d.toNumber x.negative = .finite x

/-- The number written out in full. -/
def exact (x : Finite) : Decimal := ⟨x.units * Nat.pow 5 1074, -1074⟩

/-- The first decimal that reads back, with `count` digits, then with one more, and so on. -/
def search (x : Finite) : Nat → Nat → Decimal
  | 0, _ => x.exact
  | fuel + 1, count =>
    match (x.neighbours (x.magnitude + 1 - count)).find? x.reads with
    | some d => d.stripZeros 20
    | none => search x fuel (count + 1)

/-- The decimal with the fewest digits that reads back. -/
def shortest (x : Finite) : Decimal :=
  if x.isZero then ⟨0, 0⟩ else x.search 17 1

end Finite

end Linewise
