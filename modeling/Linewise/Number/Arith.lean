import Linewise.Number.Basic

/-!
# Arithmetic on numbers

Sums, products and quotients are the exact results rounded once. Remainders, floors and ceilings of
finite numbers are exact. Comparison is numeric: the two zeros are equal, and not-a-number is
neither below, above nor equal to anything.
-/

namespace Linewise.Number

/-- The number with the other sign. -/
def neg : Number → Number
  | .nan => .nan
  | .infinite negative => .infinite (!negative)
  | .finite x => .finite x.neg

/-- The number without its sign. -/
def abs : Number → Number
  | .nan => .nan
  | .infinite _ => .infinite false
  | .finite x => .finite { x with negative := false }

/-- A sum that is exactly zero is negative only if both terms are. -/
def add : Number → Number → Number
  | .finite x, .finite y =>
    let sum := x.value + y.value
    if sum = 0 then zeroOf (x.negative && y.negative) else round (sum < 0) sum.natAbs 1
  | .infinite m, .infinite n => if m = n then .infinite m else .nan
  | .infinite m, .finite _ => .infinite m
  | .finite _, .infinite n => .infinite n
  | _, _ => .nan

def sub (x y : Number) : Number := add x (neg y)

def mul : Number → Number → Number
  | .finite x, .finite y => round (x.negative ^^ y.negative) (x.units * y.units) unitsPerOne
  | .infinite m, .infinite n => .infinite (m ^^ n)
  | .infinite m, .finite y => if y.isZero then .nan else .infinite (m ^^ y.negative)
  | .finite x, .infinite n => if x.isZero then .nan else .infinite (x.negative ^^ n)
  | _, _ => .nan

def div : Number → Number → Number
  | .finite x, .finite y =>
    if y.isZero then if x.isZero then .nan else .infinite (x.negative ^^ y.negative)
    else round (x.negative ^^ y.negative) (x.units * unitsPerOne) y.units
  | .infinite m, .finite y => .infinite (m ^^ y.negative)
  | .finite x, .infinite n => zeroOf (x.negative ^^ n)
  | _, _ => .nan

/-- The remainder of the division toward zero; it has the sign of the dividend. -/
def rem : Number → Number → Number
  | .finite x, .finite y =>
    if y.isZero then .nan else round x.negative (x.units % y.units) 1
  | .finite x, .infinite _ => .finite x
  | _, _ => .nan

instance : Add Number := ⟨add⟩
instance : Sub Number := ⟨sub⟩
instance : Mul Number := ⟨mul⟩
instance : Div Number := ⟨div⟩
instance : Neg Number := ⟨neg⟩

/-- The least whole number that is not below; zero keeps the sign of the argument. -/
def ceil : Number → Number
  | .finite x => round x.negative ((-(-x.value).fdiv unitsPerOne).natAbs * unitsPerOne) 1
  | x => x

/-! ## Comparison -/

def lt : Number → Number → Bool
  | .finite x, .finite y => x.value < y.value
  | .finite _, .infinite n => !n
  | .infinite m, .finite _ => m
  | .infinite m, .infinite n => m && !n
  | _, _ => false

/-- Numeric equality: the two zeros are equal, not-a-number equals nothing. -/
def eqv : Number → Number → Bool
  | .finite x, .finite y => x.value = y.value
  | .infinite m, .infinite n => m = n
  | _, _ => false

def le (x y : Number) : Bool := lt x y || eqv x y

/-! ## Conversion to integers -/

/-- The least and the greatest 64-bit address. -/
def leastAddress : Int := -9223372036854775808

def greatestAddress : Int := 9223372036854775807

/-- The floor as a 64-bit address; what lies outside the range of addresses goes to its nearer
end. -/
def address : Number → Int64
  | .finite x =>
    .ofInt (max leastAddress (min greatestAddress (x.value.fdiv unitsPerOne)))
  | .infinite false => .ofInt greatestAddress
  | _ => .ofInt leastAddress

/-- The whole part as a 64-bit index, none if there is none. A whole part outside of the range of
indices gives the least one. -/
def index? : Number → Option Int
  | .finite x =>
    let whole := x.value.tdiv unitsPerOne
    some (if leastAddress ≤ whole ∧ whole ≤ greatestAddress then whole else leastAddress)
  | _ => none

/-! ## Powers -/

/-- `x` raised to the power `y`, as the platform computes it. -/
def pow (x y : Number) : Number :=
  ofBits ((Float.ofBits x.toBits).pow (Float.ofBits y.toBits)).toBits

end Linewise.Number
