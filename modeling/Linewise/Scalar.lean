import Linewise.Number.Arith

/-!
# Scalars

What a tape asks of the values in its cells: arithmetic, comparison, and a floor that can serve as an
address. Tapes of a running program hold binary64 numbers; the rules of a tape are stated for any
scalars, so that they can also be read in exact arithmetic.
-/

namespace Linewise

/-- Values that a tape can hold. -/
class Scalar (α : Type) extends Add α, Sub α, Mul α, Div α where
  zero : α
  one : α
  /-- The remainder of the division toward zero. -/
  rem : α → α → α
  ceil : α → α
  lt : α → α → Bool
  le : α → α → Bool
  isZero : α → Bool
  isNan : α → Bool
  isInfinite : α → Bool
  /-- The floor, brought into the range of addresses. -/
  address : α → Int64

instance : Scalar Number where
  zero := 0
  one := 1
  rem := Number.rem
  ceil := Number.ceil
  lt := Number.lt
  le := Number.le
  isZero := Number.isZero
  isNan := Number.isNan
  isInfinite := Number.isInfinite
  address := Number.address

end Linewise
