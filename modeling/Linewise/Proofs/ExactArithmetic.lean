import Mathlib.Algebra.Order.Floor.Ring
import Mathlib.Data.Rat.Floor
import Mathlib.Tactic.Linarith
import Mathlib.Tactic.Ring
import Linewise.Proofs.Rounding
import Linewise.Scalar

/-!
# Exact arithmetic

Rationals with two infinities and not-a-number (`Exact`) are scalars as numbers are, but nothing is rounded
in their arithmetic. `Faithful` says what scalars need so that a computation on them can be followed on the
rationals they stand for: every operation is exact whose result fits. All rationals fit into exact
arithmetic (`Exact.faithful`), and the whole numbers below 2⁵³ fit into binary64 (`Number.faithful`).
-/

namespace Linewise

/-- The whole number that is next to a rational toward zero. -/
def wholePart (q : ℚ) : ℤ := if 0 ≤ q then ⌊q⌋ else ⌈q⌉

/-- The remainder of the division of `p` by `q` toward zero. -/
def remainder (p q : ℚ) : ℚ := p - wholePart (p / q) * q

section Remainder

variable {p q : ℚ}

theorem abs_sub_wholePart_lt (q : ℚ) : |q - wholePart q| < 1 := by
  unfold wholePart
  split
  · rw [abs_lt]
    constructor <;> linarith [Int.floor_le q, Int.lt_floor_add_one q]
  · rw [abs_lt]
    constructor <;> linarith [Int.le_ceil q, Int.ceil_lt_add_one q]

theorem abs_remainder_lt (hq : 0 < q) : |remainder p q| < q := by
  have hsplit : remainder p q = (p / q - wholePart (p / q)) * q := by
    rw [remainder, sub_mul, div_mul_cancel₀ p hq.ne']
  calc |remainder p q| = |p / q - wholePart (p / q)| * q := by rw [hsplit, abs_mul, abs_of_pos hq]
    _ < 1 * q := mul_lt_mul_of_pos_right (abs_sub_wholePart_lt _) hq
    _ = q := one_mul q

/-- The remainder of whole numbers is that of their magnitudes, with the sign of the dividend. -/
theorem remainder_whole (a : ℤ) {b : ℕ} (hb : 0 < b) : remainder a b = (a.tmod b : ℤ) := by
  have hpart : wholePart ((a : ℚ) / b) = a.tdiv b := by
    rw [wholePart]
    rcases lt_or_ge a 0 with ha | ha
    · rw [if_neg (not_le.mpr (div_neg_of_neg_of_pos (Int.cast_lt_zero.mpr ha) (Nat.cast_pos.mpr hb))),
        Rat.ceil_intCast_div_natCast]
      obtain ⟨n, rfl⟩ := Int.exists_eq_neg_ofNat ha.le
      rw [Int.neg_neg, Int.neg_tdiv, Int.tdiv_eq_ediv_of_nonneg (Int.natCast_nonneg n)]
    · rw [if_pos (div_nonneg (Int.cast_nonneg ha) (Nat.cast_nonneg b)), Rat.floor_intCast_div_natCast,
        Int.tdiv_eq_ediv_of_nonneg ha]
  have hsplit : a.tmod b = a - a.tdiv b * b := by
    rw [Int.mul_comm]
    exact Int.tmod_def a b
  rw [remainder, hpart, hsplit]
  push_cast
  rfl

end Remainder

/-- A rational, an infinity or not-a-number. -/
inductive Exact where
  | nan
  | infinite (negative : Bool)
  | finite (q : ℚ)
deriving DecidableEq, Repr

namespace Exact

def neg : Exact → Exact
  | .nan => .nan
  | .infinite negative => .infinite (!negative)
  | .finite q => .finite (-q)

def add : Exact → Exact → Exact
  | .finite p, .finite q => .finite (p + q)
  | .infinite m, .infinite n => if m = n then .infinite m else .nan
  | .infinite m, .finite _ => .infinite m
  | .finite _, .infinite n => .infinite n
  | _, _ => .nan

def mul : Exact → Exact → Exact
  | .finite p, .finite q => .finite (p * q)
  | .infinite m, .infinite n => .infinite (m ^^ n)
  | .infinite m, .finite q => if q = 0 then .nan else .infinite (m ^^ decide (q < 0))
  | .finite p, .infinite n => if p = 0 then .nan else .infinite (decide (p < 0) ^^ n)
  | _, _ => .nan

/-- Zero has no sign: what is divided by it is divided by a positive zero. -/
def div : Exact → Exact → Exact
  | .finite p, .finite q =>
    if q = 0 then if p = 0 then .nan else .infinite (p < 0) else .finite (p / q)
  | .infinite m, .finite q => .infinite (m ^^ decide (q < 0))
  | .finite _, .infinite _ => .finite 0
  | _, _ => .nan

def rem : Exact → Exact → Exact
  | .finite p, .finite q => if q = 0 then .nan else .finite (remainder p q)
  | .finite p, .infinite _ => .finite p
  | _, _ => .nan

def ceil : Exact → Exact
  | .finite q => .finite ⌈q⌉
  | x => x

def lt : Exact → Exact → Bool
  | .finite p, .finite q => p < q
  | .finite _, .infinite n => !n
  | .infinite m, .finite _ => m
  | .infinite m, .infinite n => m && !n
  | _, _ => false

def eqv : Exact → Exact → Bool
  | .nan, _ => false
  | x, y => x = y

def address : Exact → Int64
  | .finite q => .ofInt (max Number.leastAddress (min Number.greatestAddress ⌊q⌋))
  | .infinite false => .ofInt Number.greatestAddress
  | _ => .ofInt Number.leastAddress

instance : Scalar Exact where
  add := add
  sub x y := add x (neg y)
  mul := mul
  div := div
  zero := .finite 0
  one := .finite 1
  rem := rem
  ceil := ceil
  lt := lt
  le x y := lt x y || eqv x y
  isZero x := x = .finite 0
  isNan x := x = .nan
  isInfinite x := x = .infinite true ∨ x = .infinite false
  address := address

end Exact

/-! ## Scalars that stand for rationals -/

open Scalar in
/-- Arithmetic is exact on scalars that stand for rationals, where the result fits; of a remainder and of
the ceiling of a quotient, where the operands fit. Two more scalars are below and above all of these. -/
structure Faithful {α : Type} [Scalar α] (stands : α → ℚ → Prop) (fits : ℚ → Prop) (least greatest : α) :
    Prop where
  zero : stands zero 0
  one : stands one 1
  isNan {x : α} {p : ℚ} : stands x p → isNan x = false
  isInfinite {x : α} {p : ℚ} : stands x p → isInfinite x = false
  lt {x y : α} {p q : ℚ} : stands x p → stands y q → (lt x y = true ↔ p < q)
  le {x y : α} {p q : ℚ} : stands x p → stands y q → (le x y = true ↔ p ≤ q)
  add {x y : α} {p q : ℚ} : stands x p → stands y q → fits (p + q) → stands (x + y) (p + q)
  sub {x y : α} {p q : ℚ} : stands x p → stands y q → fits (p - q) → stands (x - y) (p - q)
  mul {x y : α} {p q : ℚ} : stands x p → stands y q → fits (p * q) → stands (x * y) (p * q)
  rem {x y : α} {p q : ℚ} : stands x p → stands y q → fits p → fits q → 0 < q →
    stands (rem x y) (remainder p q)
  ceil_div {x y : α} {p q : ℚ} : stands x p → stands y q → fits p → fits q → 0 < p → 0 < q →
    stands (ceil (x / y)) ⌈p / q⌉
  infinite_least : Scalar.isInfinite least = true
  infinite_greatest : Scalar.isInfinite greatest = true
  least_le {x : α} {p : ℚ} : stands x p → Scalar.le least x = true
  le_greatest {x : α} {p : ℚ} : stands x p → Scalar.le x greatest = true
  not_greatest_lt {x : α} {p : ℚ} : stands x p → Scalar.lt greatest x = false

/-- Nothing is ever rounded in exact arithmetic. -/
theorem Exact.faithful :
    Faithful (fun (x : Exact) q => x = .finite q) (fun _ => True) (.infinite true) (.infinite false) where
  zero := rfl
  one := rfl
  isNan := by
    rintro x p rfl
    rfl
  isInfinite := by
    rintro x p rfl
    rfl
  lt := by
    rintro x y p q rfl rfl
    exact decide_eq_true_iff
  le := by
    rintro x y p q rfl rfl
    show (decide (p < q) || decide (Exact.finite p = .finite q)) = true ↔ p ≤ q
    rw [Bool.or_eq_true, decide_eq_true_iff, decide_eq_true_iff, Exact.finite.injEq, le_iff_lt_or_eq]
  add := by
    rintro x y p q rfl rfl -
    rfl
  sub := by
    rintro x y p q rfl rfl -
    show Exact.finite (p + -q) = _
    rw [sub_eq_add_neg]
  mul := by
    rintro x y p q rfl rfl -
    rfl
  rem := by
    rintro x y p q rfl rfl - - hq
    exact if_neg hq.ne'
  ceil_div := by
    rintro x y p q rfl rfl - - - hq
    show Exact.ceil (Exact.div (.finite p) (.finite q)) = _
    rw [Exact.div, if_neg hq.ne', Exact.ceil]
  infinite_least := rfl
  infinite_greatest := rfl
  least_le := by
    rintro x p rfl
    rfl
  le_greatest := by
    rintro x p rfl
    rfl
  not_greatest_lt := by
    rintro x p rfl
    rfl

/-! ## Binary64 numbers in exact arithmetic -/

/-- A sign as a factor. -/
def sign (negative : Bool) : ℤ := if negative then -1 else 1

theorem sign_xor (m n : Bool) : sign (m ^^ n) = sign m * sign n := by cases m <;> cases n <;> rfl

theorem sign_mul_natAbs (n : ℤ) : sign (decide (n < 0)) * n.natAbs = n := by
  by_cases hn : n < 0
  · rw [sign, if_pos (decide_eq_true hn)]
    omega
  · rw [sign, if_neg (by simpa using hn)]
    omega

theorem Finite.value_eq (x : Finite) : x.value = sign x.negative * x.units := by
  unfold Finite.value sign
  split <;> simp

theorem unitsPerOne_cast_pos : (0 : ℚ) < unitsPerOne := Nat.cast_pos.mpr unitsPerOne_pos

namespace Number

/-- A number in exact arithmetic. -/
def exact : Number → Exact
  | .nan => .nan
  | .infinite negative => .infinite negative
  | .finite x => .finite (x.value / unitsPerOne)

/-- A whole number that has no more bits than a mantissa. -/
def Fits (q : ℚ) : Prop := ∃ n : ℤ, q = n ∧ n.natAbs < 9007199254740992

section

variable {x y : Number} {p q : ℚ} {n : ℤ}

theorem exact_eq_finite_iff :
    x.exact = .finite q ↔ ∃ f : Finite, x = .finite f ∧ (f.value : ℚ) = q * unitsPerOne := by
  cases x with
  | nan => exact ⟨nofun, nofun⟩
  | infinite negative => exact ⟨nofun, nofun⟩
  | finite f =>
      rw [exact, Exact.finite.injEq, div_eq_iff unitsPerOne_cast_pos.ne']
      constructor
      · intro hvalue
        exact ⟨f, rfl, hvalue⟩
      · rintro ⟨g, hg, hvalue⟩
        cases hg
        exact hvalue

/-- Sign and magnitude of a whole number of `m`. -/
theorem of_sign_mul_eq {negative : Bool} {u m : ℕ} (hm : 0 < m) (h : sign negative * u = n * m) :
    u = n.natAbs * m ∧ n = sign negative * n.natAbs := by
  have hu : u = n.natAbs * m := by
    have habs := congrArg Int.natAbs h
    have hsign : (sign negative).natAbs = 1 := by cases negative <;> rfl
    rwa [Int.natAbs_mul, Int.natAbs_mul, Int.natAbs_natCast, Int.natAbs_natCast, hsign, Nat.one_mul] at habs
  rw [hu, Nat.cast_mul, ← mul_assoc] at h
  exact ⟨hu, (mul_right_cancel₀ (Nat.cast_ne_zero.mpr hm.ne') h).symm⟩

/-- The magnitude and the sign of a number that is a whole number of ones. -/
theorem units_of_value {f : Finite} (h : (f.value : ℚ) = (n : ℚ) * unitsPerOne) :
    f.units = n.natAbs * unitsPerOne ∧ n = sign f.negative * n.natAbs := by
  have hvalue : f.value = n * unitsPerOne := by exact_mod_cast h
  rw [Finite.value_eq] at hvalue
  exact of_sign_mul_eq unitsPerOne_pos hvalue

theorem not_negative_of_pos {negative : Bool} {k : ℕ} (hk : 0 < k) (h : (k : ℤ) = sign negative * k) :
    negative = false := by
  rw [Bool.eq_false_iff]
  rintro rfl
  rw [sign, if_pos rfl] at h
  omega

theorem not_isZero {f : Finite} (h : 0 < f.units) : f.isZero = false := by
  rw [Finite.isZero, decide_eq_false_iff_not]
  intro hmantissa
  rw [Finite.units, hmantissa, Nat.zero_mul] at h
  exact Nat.lt_irrefl 0 h

/-- A whole number of ones that fits is not rounded. -/
theorem exact_round {negative : Bool} {den : ℕ} (hn : n.natAbs < 9007199254740992) (hden : 0 < den)
    (hsign : n = sign negative * n.natAbs) :
    (round negative (n.natAbs * unitsPerOne * den) den).exact = .finite n := by
  obtain ⟨f, hf, hnegative, hunits⟩ := round_whole negative hn hden
  rw [hf, exact_eq_finite_iff]
  refine ⟨f, rfl, ?_⟩
  have hvalue : f.value = n * unitsPerOne := by
    rw [Finite.value_eq, hnegative, hunits, Nat.cast_mul, ← mul_assoc, ← hsign]
  rw [hvalue]
  push_cast
  rfl

theorem exact_round_one (hn : n.natAbs < 9007199254740992) {negative : Bool}
    (hsign : n = sign negative * n.natAbs) :
    (round negative (n.natAbs * unitsPerOne) 1).exact = .finite n := by
  have hround := exact_round hn Nat.one_pos hsign
  rwa [Nat.mul_one] at hround

theorem exact_ofNat {k : ℕ} (hk : k < 9007199254740992) : (ofNat k).exact = .finite k := by
  have hsign : (k : ℤ) = sign false * (k : ℤ).natAbs := (one_mul (k : ℤ)).symm
  have hround := exact_round_one (n := (k : ℤ)) hk hsign
  rwa [Int.natAbs_natCast, Int.cast_natCast] at hround

theorem exact_zeroOf (negative : Bool) : (zeroOf negative).exact = .finite 0 := by
  rw [exact_eq_finite_iff]
  refine ⟨.zero negative, rfl, ?_⟩
  have hvalue : (Finite.zero negative).value = 0 := by cases negative <;> decide
  rw [hvalue, Int.cast_zero, zero_mul]

theorem exact_neg (h : x.exact = .finite q) : (neg x).exact = .finite (-q) := by
  obtain ⟨f, rfl, hf⟩ := exact_eq_finite_iff.mp h
  refine exact_eq_finite_iff.mpr ⟨f.neg, rfl, ?_⟩
  have hvalue : f.neg.value = -f.value := by
    rw [Finite.value_eq, Finite.value_eq, ← neg_mul]
    congr 1
    show sign (!f.negative) = _
    cases f.negative <;> rfl
  rw [hvalue, Int.cast_neg, hf, neg_mul]

theorem exact_add (hx : x.exact = .finite p) (hy : y.exact = .finite q) (hfits : Fits (p + q)) :
    (add x y).exact = .finite (p + q) := by
  obtain ⟨f, rfl, hf⟩ := exact_eq_finite_iff.mp hx
  obtain ⟨g, rfl, hg⟩ := exact_eq_finite_iff.mp hy
  obtain ⟨n, hn, hsmall⟩ := hfits
  have hunit := unitsPerOne_pos
  have hsum : f.value + g.value = n * unitsPerOne := by
    have hcast : ((f.value + g.value : ℤ) : ℚ) = n * unitsPerOne := by
      rw [Int.cast_add, hf, hg, ← add_mul, hn]
    exact_mod_cast hcast
  have hzero : n * (unitsPerOne : ℤ) = 0 ↔ n = 0 := by
    rw [mul_eq_zero]
    omega
  have hneg : n * (unitsPerOne : ℤ) < 0 ↔ n < 0 := by
    have hpos : (0 : ℤ) < unitsPerOne := by omega
    rw [mul_neg_iff]
    omega
  rw [add, hsum, hn]
  simp only [hzero, hneg, Int.natAbs_mul, Int.natAbs_natCast]
  -- a sum of zero is not rounded: its sign comes from those of the terms
  split
  · rename_i hn0
    rw [hn0, Int.cast_zero]
    exact exact_zeroOf _
  · exact exact_round_one hsmall (sign_mul_natAbs n).symm

theorem exact_sub (hx : x.exact = .finite p) (hy : y.exact = .finite q) (hfits : Fits (p - q)) :
    (sub x y).exact = .finite (p - q) := by
  rw [sub_eq_add_neg] at hfits ⊢
  exact exact_add hx (exact_neg hy) hfits

theorem exact_mul (hx : x.exact = .finite p) (hy : y.exact = .finite q) (hfits : Fits (p * q)) :
    (mul x y).exact = .finite (p * q) := by
  obtain ⟨f, rfl, hf⟩ := exact_eq_finite_iff.mp hx
  obtain ⟨g, rfl, hg⟩ := exact_eq_finite_iff.mp hy
  obtain ⟨n, hn, hsmall⟩ := hfits
  have hproduct : f.value * g.value = n * (unitsPerOne * unitsPerOne : ℕ) := by
    have hcast : ((f.value * g.value : ℤ) : ℚ) = n * (unitsPerOne * unitsPerOne) := by
      rw [Int.cast_mul, hf, hg, mul_mul_mul_comm, hn]
    rw [Nat.cast_mul]
    exact_mod_cast hcast
  rw [Finite.value_eq, Finite.value_eq, mul_mul_mul_comm, ← sign_xor, ← Nat.cast_mul] at hproduct
  obtain ⟨hunits, hsign⟩ := of_sign_mul_eq (Nat.mul_pos unitsPerOne_pos unitsPerOne_pos) hproduct
  rw [mul, hunits, ← Nat.mul_assoc, hn]
  exact exact_round hsmall unitsPerOne_pos hsign

theorem exact_rem (hx : x.exact = .finite p) (hy : y.exact = .finite q) (hp : Fits p) (hq : Fits q)
    (hpos : 0 < q) : (rem x y).exact = .finite (remainder p q) := by
  obtain ⟨f, rfl, hf⟩ := exact_eq_finite_iff.mp hx
  obtain ⟨g, rfl, hg⟩ := exact_eq_finite_iff.mp hy
  obtain ⟨a, rfl, ha⟩ := hp
  obtain ⟨b, rfl, hb⟩ := hq
  have hb0 : 0 < b := Int.cast_pos.mp hpos
  lift b to ℕ using hb0.le
  rw [Int.natCast_pos] at hb0
  obtain ⟨hfunits, hfsign⟩ := units_of_value hf
  obtain ⟨hgunits, -⟩ := units_of_value hg
  rw [Int.natAbs_natCast] at hgunits
  have hg0 := not_isZero (hgunits ▸ Nat.mul_pos hb0 unitsPerOne_pos)
  have hrest : f.units % g.units = (a.tmod b).natAbs * unitsPerOne := by
    rw [hfunits, hgunits, Nat.mul_mod_mul_right, Int.natAbs_tmod, Int.natAbs_natCast]
  have hsign : a.tmod b = sign f.negative * (a.tmod b).natAbs := by
    rw [Int.natAbs_tmod, Int.natAbs_natCast]
    nth_rewrite 1 [hfsign]
    cases f.negative
    · rw [sign, if_neg Bool.false_ne_true, one_mul, one_mul, Int.ofNat_tmod]
    · rw [sign, if_pos rfl, neg_one_mul, neg_one_mul, Int.neg_tmod, Int.ofNat_tmod]
  have hsmall : (a.tmod b).natAbs < 9007199254740992 := by
    rw [Int.natAbs_tmod]
    exact lt_of_le_of_lt (Nat.mod_le _ _) ha
  rw [rem, hg0, if_neg Bool.false_ne_true, hrest, Int.cast_natCast, remainder_whole a hb0]
  exact exact_round_one hsmall hsign

/-- The ceiling of a positive number between two whole numbers of ones is the upper one. -/
theorem exact_ceil {f : Finite} {j : ℕ} (hnegative : f.negative = false) (hlower : j * unitsPerOne < f.units)
    (hupper : f.units ≤ (j + 1) * unitsPerOne) (hj : j + 1 < 9007199254740992) :
    (ceil (.finite f)).exact = .finite (j + 1 : ℕ) := by
  have hvalue : f.value = f.units := by rw [Finite.value_eq, hnegative, sign, if_neg Bool.false_ne_true, one_mul]
  have hceil : -(-f.value).fdiv unitsPerOne = (j + 1 : ℕ) := by
    rw [hvalue, Int.fdiv_eq_ediv_of_nonneg _ (Int.natCast_nonneg _), ← Rat.ceil_intCast_div_natCast,
      Int.ceil_eq_iff, Int.cast_natCast]
    constructor
    · rw [lt_div_iff₀ unitsPerOne_cast_pos]
      push_cast
      rw [add_sub_cancel_right]
      exact_mod_cast hlower
    · rw [div_le_iff₀ unitsPerOne_cast_pos]
      exact_mod_cast hupper
  have hround := exact_round_one (n := (j + 1 : ℕ)) hj (sign_mul_natAbs _).symm
  rw [ceil, hceil, hnegative]
  rwa [decide_eq_false (by omega), Int.cast_natCast] at hround

theorem exact_ceil_div (hx : x.exact = .finite p) (hy : y.exact = .finite q) (hp : Fits p) (hq : Fits q)
    (hp0 : 0 < p) (hq0 : 0 < q) : (ceil (div x y)).exact = .finite ⌈p / q⌉ := by
  obtain ⟨f, rfl, hf⟩ := exact_eq_finite_iff.mp hx
  obtain ⟨g, rfl, hg⟩ := exact_eq_finite_iff.mp hy
  obtain ⟨a, rfl, ha⟩ := hp
  obtain ⟨b, rfl, hb⟩ := hq
  have ha0 : 0 < a := Int.cast_pos.mp hp0
  have hb0 : 0 < b := Int.cast_pos.mp hq0
  lift a to ℕ using ha0.le
  lift b to ℕ using hb0.le
  rw [Int.natCast_pos] at ha0 hb0
  obtain ⟨hfunits, hfsign⟩ := units_of_value hf
  obtain ⟨hgunits, hgsign⟩ := units_of_value hg
  rw [Int.natAbs_natCast] at hfunits hgunits hfsign hgsign ha hb
  have hf0 : f.negative = false := not_negative_of_pos ha0 hfsign
  have hg0 : g.negative = false := not_negative_of_pos hb0 hgsign
  obtain ⟨w, hw, hwnegative, hbetween⟩ := round_quotient ha hb hb0
  have hquotient : div (.finite f) (.finite g) = .finite w := by
    rw [div, not_isZero (hgunits ▸ Nat.mul_pos hb0 unitsPerOne_pos), if_neg Bool.false_ne_true, hf0, hg0,
      hfunits, hgunits, Bool.xor_self]
    exact hw
  -- the ceiling of the quotient is some `j + 1` with `j * b < a ≤ (j + 1) * b`
  have hceil : 0 < ⌈(a : ℚ) / b⌉ := Int.ceil_pos.mpr (div_pos (Nat.cast_pos.mpr ha0) (Nat.cast_pos.mpr hb0))
  obtain ⟨j, hj⟩ : ∃ j : ℕ, ⌈(a : ℚ) / b⌉ = (j + 1 : ℕ) := ⟨(⌈(a : ℚ) / b⌉ - 1).toNat, by omega⟩
  obtain ⟨hlower, hupper⟩ := Int.ceil_eq_iff.mp hj
  have hb0' : (0 : ℚ) < b := Nat.cast_pos.mpr hb0
  rw [lt_div_iff₀ hb0', Int.cast_natCast, Nat.cast_succ, add_sub_cancel_right] at hlower
  rw [div_le_iff₀ hb0'] at hupper
  have hlower : j * b < a := by exact_mod_cast hlower
  have hupper : a ≤ (j + 1) * b := by exact_mod_cast hupper
  have hja : j < a := lt_of_le_of_lt (Nat.le_mul_of_pos_right j hb0) hlower
  rw [hquotient, Int.cast_natCast, Int.cast_natCast, hj, Int.cast_natCast]
  exact exact_ceil hwnegative ((hbetween j).1 hlower) ((hbetween (j + 1)).2 hupper) (by omega)

theorem exact_lt (hx : x.exact = .finite p) (hy : y.exact = .finite q) : lt x y = true ↔ p < q := by
  obtain ⟨f, rfl, hf⟩ := exact_eq_finite_iff.mp hx
  obtain ⟨g, rfl, hg⟩ := exact_eq_finite_iff.mp hy
  rw [lt, decide_eq_true_iff, ← @Int.cast_lt ℚ, hf, hg, mul_lt_mul_iff_left₀ unitsPerOne_cast_pos]

theorem exact_le (hx : x.exact = .finite p) (hy : y.exact = .finite q) : le x y = true ↔ p ≤ q := by
  rw [le, Bool.or_eq_true, exact_lt hx hy, le_iff_lt_or_eq]
  obtain ⟨f, rfl, hf⟩ := exact_eq_finite_iff.mp hx
  obtain ⟨g, rfl, hg⟩ := exact_eq_finite_iff.mp hy
  rw [eqv, decide_eq_true_iff, ← @Int.cast_inj ℚ, hf, hg, mul_left_inj' unitsPerOne_cast_pos.ne']

end

/-- Binary64 arithmetic is exact on whole numbers below 2⁵³. -/
theorem faithful :
    Faithful (fun (x : Number) q => x.exact = .finite q) Fits (.infinite true) (.infinite false) where
  zero := Nat.cast_zero (R := ℚ) ▸ exact_ofNat (by decide)
  one := Nat.cast_one (R := ℚ) ▸ exact_ofNat (by decide)
  isNan h := by
    obtain ⟨f, rfl, -⟩ := exact_eq_finite_iff.mp h
    rfl
  isInfinite h := by
    obtain ⟨f, rfl, -⟩ := exact_eq_finite_iff.mp h
    rfl
  lt := exact_lt
  le := exact_le
  add := exact_add
  sub := exact_sub
  mul := exact_mul
  rem := exact_rem
  ceil_div := exact_ceil_div
  infinite_least := rfl
  infinite_greatest := rfl
  least_le h := by
    obtain ⟨f, rfl, -⟩ := exact_eq_finite_iff.mp h
    rfl
  le_greatest h := by
    obtain ⟨f, rfl, -⟩ := exact_eq_finite_iff.mp h
    rfl
  not_greatest_lt h := by
    obtain ⟨f, rfl, -⟩ := exact_eq_finite_iff.mp h
    rfl

end Number

end Linewise
