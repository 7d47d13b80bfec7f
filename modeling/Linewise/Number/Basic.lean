/-!
# Binary64 numbers

A number is not-a-number, an infinity, or finite. Every finite number is a whole multiple of the
smallest positive one, 2⁻¹⁰⁷⁴, so its magnitude is kept as a count of such *units*: a mantissa of at
most 53 bits times a power of two. The proof fields make the decomposition canonical, so that equal
numbers (zeros told apart by sign) are equal data, and arithmetic can be done exactly on units and
rounded once: `Number.round`.
-/

namespace Linewise

/-- A finite number: `mantissa · 2^scale` units of 2⁻¹⁰⁷⁴, with a sign that zero has too. -/
structure Finite where
  /-- The sign; zero has one too. -/
  negative : Bool
  /-- The significant bits. -/
  mantissa : Nat
  /-- The power of two, counted from 2⁻¹⁰⁷⁴. -/
  scale : Nat
  /-- A mantissa has at most 53 bits. -/
  mantissa_lt : mantissa < 9007199254740992
  scale_le : scale ≤ 2045
  /-- A mantissa has all of its 53 bits unless it is at the smallest scale. -/
  normal : scale = 0 ∨ 4503599627370496 ≤ mantissa
deriving DecidableEq, Repr

/-- A binary64 number; all not-a-numbers are one. -/
inductive Number where
  | nan
  | infinite (negative : Bool)
  | finite (x : Finite)
deriving DecidableEq, Repr

/-- One, counted in units. -/
def unitsPerOne : Nat := Nat.pow 2 1074

namespace Finite

/-- The magnitude, in units. -/
def units (x : Finite) : Nat := x.mantissa * Nat.pow 2 x.scale

/-- The signed value, in units. -/
def value (x : Finite) : Int := if x.negative then -(x.units : Int) else x.units

/-- Zero with a sign. -/
def zero (negative : Bool) : Finite :=
  ⟨negative, 0, 0, by decide, by decide, .inl rfl⟩

/-- The number of the same magnitude and the other sign. -/
def neg (x : Finite) : Finite := { x with negative := !x.negative }

def isZero (x : Finite) : Bool := x.mantissa = 0

end Finite

/-! ## Rounding -/

/-- The whole number nearest to `num / den`; halfway between two it is the even one. -/
def roundQuotient (num den : Nat) : Nat :=
  let q := num / den
  let r := num % den
  if 2 * r < den then q
  else if den < 2 * r then q + 1
  else if q % 2 = 0 then q
  else q + 1

theorem div_le_roundQuotient (num den : Nat) : num / den ≤ roundQuotient num den := by
  unfold roundQuotient
  dsimp only
  split
  · exact Nat.le_refl _
  · split
    · exact Nat.le_succ _
    · split
      · exact Nat.le_refl _
      · exact Nat.le_succ _

theorem roundQuotient_le (num den : Nat) : roundQuotient num den ≤ num / den + 1 := by
  unfold roundQuotient
  dsimp only
  split
  · exact Nat.le_succ _
  · split
    · exact Nat.le_refl _
    · split
      · exact Nat.le_succ _
      · exact Nat.le_refl _

namespace Number

/-- The scale at which `q` units have at most 53 significant bits. -/
def scaleOf (q : Nat) : Nat := q.log2 - 52

theorem div_scaleOf_lt (q : Nat) : q / Nat.pow 2 (scaleOf q) < 9007199254740992 := by
  change q / 2 ^ scaleOf q < 2 ^ 53
  rw [Nat.div_lt_iff_lt_mul (Nat.two_pow_pos _), ← Nat.pow_add]
  exact Nat.lt_of_lt_of_le Nat.lt_log2_self
    (Nat.pow_le_pow_right (by decide) (by unfold scaleOf; omega))

theorem le_div_scaleOf {q : Nat} (h : scaleOf q ≠ 0) :
    4503599627370496 ≤ q / Nat.pow 2 (scaleOf q) := by
  change 2 ^ 52 ≤ q / 2 ^ scaleOf q
  have hq : q ≠ 0 := by
    rintro rfl
    exact h rfl
  rw [Nat.le_div_iff_mul_le (Nat.two_pow_pos _), ← Nat.pow_add]
  have hs : 52 + scaleOf q = q.log2 := by
    unfold scaleOf at h ⊢
    omega
  rw [hs]
  exact Nat.log2_self_le hq

/-- The mantissa of `num / den` units, which may be one too large for its 53 bits. -/
def mantissaOf (num den : Nat) : Nat := roundQuotient num (den * Nat.pow 2 (scaleOf (num / den)))

theorem mantissaOf_le (num den : Nat) : mantissaOf num den ≤ 9007199254740992 := by
  refine Nat.le_trans (roundQuotient_le _ _) ?_
  rw [← Nat.div_div_eq_div_mul]
  exact div_scaleOf_lt _

theorem le_mantissaOf {num den : Nat} (h : scaleOf (num / den) ≠ 0) :
    4503599627370496 ≤ mantissaOf num den := by
  refine Nat.le_trans ?_ (div_le_roundQuotient _ _)
  rw [← Nat.div_div_eq_div_mul]
  exact le_div_scaleOf h

/-- The number nearest to `num / den` units, halfway between two the one with the even mantissa;
what exceeds the finite numbers becomes infinite. -/
def round (negative : Bool) (num den : Nat) : Number :=
  let scale := scaleOf (num / den)
  if hm : mantissaOf num den < 9007199254740992 then
    if hs : scale ≤ 2045 then
      .finite ⟨negative, mantissaOf num den, scale, hm, hs,
        (Nat.eq_zero_or_pos scale).imp_right fun h => le_mantissaOf (Nat.ne_of_gt h)⟩
    else .infinite negative
  else
    if hs : scale + 1 ≤ 2045 then
      .finite ⟨negative, 4503599627370496, scale + 1, by decide, hs, .inr (Nat.le_refl _)⟩
    else .infinite negative

/-! ## Whole numbers -/

/-- Zero with a sign. -/
def zeroOf (negative : Bool) : Number := .finite (.zero negative)

/-- The number nearest to an integer; zero is positive. -/
def ofInt (n : Int) : Number := round (n < 0) (n.natAbs * unitsPerOne) 1

/-- The number nearest to a natural number. -/
def ofNat (n : Nat) : Number := round false (n * unitsPerOne) 1

instance : OfNat Number n := ⟨ofNat n⟩

/-- The number nearest to `coefficient · 10^exponent`. Magnitudes that are out of range by far are
told by their count of digits alone. -/
def ofDecimal (negative : Bool) (coefficient : Nat) (exponent : Int) : Number :=
  if coefficient = 0 then zeroOf negative
  else
    let magnitude : Int := (Nat.toDigits 10 coefficient).length + exponent
    if magnitude > 400 then .infinite negative
    else if magnitude < -400 then zeroOf negative
    else
      match exponent with
      | .ofNat e => round negative (coefficient * Nat.pow 10 e * unitsPerOne) 1
      | .negSucc e => round negative (coefficient * unitsPerOne) (Nat.pow 10 (e + 1))

/-! ## Kinds -/

def isNan : Number → Bool
  | .nan => true
  | _ => false

def isInfinite : Number → Bool
  | .infinite _ => true
  | _ => false

def isFinite : Number → Bool
  | .finite _ => true
  | _ => false

/-- Zero of either sign. -/
def isZero : Number → Bool
  | .finite x => x.isZero
  | _ => false

/-! ## Interchange format -/

/-- The number encoded by 64 bits: sign, eleven bits of exponent, 52 bits of fraction. -/
def ofBits (bits : UInt64) : Number :=
  let negative := bits.toNat / 9223372036854775808 = 1
  let exponent := bits.toNat / 4503599627370496 % 2048
  let fraction := bits.toNat % 4503599627370496
  if exponent = 2047 then if fraction = 0 then .infinite negative else .nan
  else if exponent = 0 then round negative fraction 1
  else round negative ((4503599627370496 + fraction) * Nat.pow 2 (exponent - 1)) 1

/-- The 64 bits that encode a number. -/
def toBits : Number → UInt64
  | .nan => 0x7FF8000000000001
  | .infinite negative => if negative then 0xFFF0000000000000 else 0x7FF0000000000000
  | .finite x =>
    let sign := if x.negative then 9223372036854775808 else 0
    let rest := if x.mantissa < 4503599627370496 then x.mantissa else x.scale * 4503599627370496 + x.mantissa
    (sign + rest).toUInt64

end Number

end Linewise
