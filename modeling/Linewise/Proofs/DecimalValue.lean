import Linewise.Number.Shortest
import Linewise.Proofs.ExactArithmetic
import Linewise.Proofs.Nearest

/-!
# The number nearest to a decimal

A rational is rounded to a nearest finite number, or it is too large for that (`Number.IsRounding`). Decimals
stand for rationals (`Decimal.value`) and are rounded so (`Decimal.toNumber_rounding`): magnitudes that are
told by their count of digits alone are so far out of range that rounding them would give the same
(`Decimal.toNumber_eq_round`). So decimals with the same value give the same number, however they are written
(`Decimal.toNumber_congr`).
-/

namespace Linewise

/-! ## Rationals and the numbers nearest to them -/

/-- A finite number as a rational. -/
def Finite.rational (x : Finite) : ℚ := x.value / unitsPerOne

namespace Number

/-- Halfway between the greatest finite number and the power of two that comes after it. -/
def overflow : ℚ := 2 ^ 1024 - 2 ^ 970

/-- Half of the smallest positive number. -/
def underflow : ℚ := (2 ^ 1075)⁻¹

/-- A finite number is nearest to a rational if no other is nearer; of two that are as near, it is the one
with the even mantissa. -/
def IsNearest (q : ℚ) (x : Number) : Prop :=
  ∃ f : Finite, x = .finite f ∧ ∀ g : Finite,
    |f.rational - q| ≤ |g.rational - q| ∧
      (g.rational ≠ f.rational → |g.rational - q| = |f.rational - q| → f.mantissa % 2 = 0)

/-- What a sign and a magnitude are rounded to. -/
structure IsRounding (negative : Bool) (q : ℚ) (x : Number) : Prop where
  /-- Magnitudes that are too large give infinity. -/
  infinite : overflow ≤ q → x = .infinite negative
  /-- Magnitudes that are too small give zero. -/
  zero : q ≤ underflow → x = zeroOf negative
  /-- All other magnitudes give the nearest number. -/
  nearest : q < overflow → IsNearest (sign negative * q) x

end Number

theorem Finite.rational_eq (x : Finite) : x.rational = sign x.negative * (x.units / unitsPerOne : ℚ) := by
  rw [rational, Finite.value_eq]
  push_cast
  exact mul_div_assoc _ _ _

section

variable {q u v : ℚ} {m n : Bool}

theorem abs_sign_mul (n : Bool) (q : ℚ) : |(sign n : ℚ) * q| = |q| := by
  cases n <;> simp [sign]

/-- Magnitudes are no farther apart than rationals with these magnitudes. -/
theorem abs_sub_le_abs_sign_sub (hu : 0 ≤ u) (hq : 0 ≤ q) (m n : Bool) :
    |u - q| ≤ |(sign m : ℚ) * u - sign n * q| := by
  calc |u - q| = |(|(sign m : ℚ) * u| - |(sign n : ℚ) * q|)| := by
        rw [abs_sign_mul, abs_sign_mul, abs_of_nonneg hu, abs_of_nonneg hq]
    _ ≤ _ := abs_abs_sub_abs_le_abs_sub _ _

theorem abs_sign_sub_self (n : Bool) : |(sign n : ℚ) * u - sign n * q| = |u - q| := by
  rw [← mul_sub, abs_sign_mul]

/-- Where signs make no difference, signed magnitudes are the same or one of them is zero. -/
theorem eq_or_eq_zero_of_abs_sign_sub (hu : 0 ≤ u) (hq : 0 ≤ q)
    (h : |(sign m : ℚ) * u - sign n * q| = |u - q|) : m = n ∨ u = 0 ∨ q = 0 := by
  by_cases hmn : m = n
  · exact .inl hmn
  · have hsign : (sign n : ℚ) = -sign m := by cases m <;> cases n <;> simp_all [sign]
    rw [hsign, neg_mul, sub_neg_eq_add, ← mul_add, abs_sign_mul, abs_of_nonneg (add_nonneg hu hq)] at h
    rcases abs_cases (u - q) with ⟨habs, -⟩ | ⟨habs, -⟩
    · exact .inr (.inr (by linarith))
    · exact .inr (.inl (by linarith))

theorem cast_dist (a b : ℕ) : (Nat.dist a b : ℚ) = |(a : ℚ) - b| := by
  rcases Nat.le_total a b with h | h
  · rw [Nat.dist_eq_sub_of_le h, Nat.cast_sub h, abs_sub_comm, abs_of_nonneg]
    exact sub_nonneg.mpr (Nat.cast_le.mpr h)
  · rw [Nat.dist_eq_sub_of_le_right h, Nat.cast_sub h, abs_of_nonneg]
    exact sub_nonneg.mpr (Nat.cast_le.mpr h)

end

theorem cast_pow_two (n : ℕ) : ((Nat.pow 2 n : ℕ) : ℚ) = 2 ^ n := Nat.cast_pow 2 n

namespace Number

section

variable {negative : Bool} {q : ℚ} {num den : ℕ}

/-- How far the units of a number are from a fraction. -/
theorem cast_dist_units (hden : 0 < den) (hq : (num : ℚ) = q * (den * unitsPerOne)) (g : Finite) :
    (Nat.dist (g.units * den) num : ℚ) = |(g.units / unitsPerOne : ℚ) - q| * (den * unitsPerOne) := by
  have hstep : (0 : ℚ) < den * unitsPerOne := mul_pos (Nat.cast_pos.mpr hden) unitsPerOne_cast_pos
  have hunits : (g.units / unitsPerOne : ℚ) * (den * unitsPerOne) = g.units * den := by
    rw [mul_comm (den : ℚ), ← mul_assoc, div_mul_cancel₀ _ unitsPerOne_cast_pos.ne']
  rw [cast_dist, hq, Nat.cast_mul, ← hunits, ← sub_mul, abs_mul, abs_of_pos hstep]

theorem round_isNearest (hden : 0 < den) (hq0 : 0 ≤ q) (hq : (num : ℚ) = q * (den * unitsPerOne)) {f : Finite}
    (h : round negative num den = .finite f) : IsNearest (sign negative * q) (.finite f) := by
  have hstep : (0 : ℚ) < den * unitsPerOne := mul_pos (Nat.cast_pos.mpr hden) unitsPerOne_cast_pos
  have hnonneg : ∀ g : Finite, (0 : ℚ) ≤ g.units / unitsPerOne := fun g =>
    div_nonneg (Nat.cast_nonneg _) (Nat.cast_nonneg _)
  have hnear : ∀ g : Finite, |(f.units / unitsPerOne : ℚ) - q| ≤ |(g.units / unitsPerOne : ℚ) - q| := by
    intro g
    refine le_of_mul_le_mul_right ?_ hstep
    rw [← cast_dist_units hden hq, ← cast_dist_units hden hq]
    exact Nat.cast_le.mpr (round_nearest hden h g).1
  refine ⟨f, rfl, fun g => ?_⟩
  rw [f.rational_eq, g.rational_eq, (of_round_eq_finite h).1, abs_sign_sub_self]
  have hg := abs_sub_le_abs_sign_sub (hnonneg g) hq0 g.negative negative
  refine ⟨(hnear g).trans hg, fun hne heq => ?_⟩
  by_cases hunits : g.units = f.units
  · -- a number with the other sign is not as near, since zero is nearer
    rw [hunits] at hne heq
    rcases eq_or_eq_zero_of_abs_sign_sub (hnonneg f) hq0 heq with hsign | hzero | rfl
    · exact absurd (by rw [hsign]) hne
    · exact absurd (by rw [hzero, mul_zero, mul_zero]) hne
    · have hle := hnear (.zero false)
      have hzero : ((Finite.zero false).units : ℚ) = 0 := Nat.cast_eq_zero.mpr (Nat.zero_mul _)
      rw [hzero, zero_div, sub_zero, sub_zero, abs_zero, abs_nonpos_iff] at hle
      exact absurd (by rw [hle, mul_zero, mul_zero]) hne
  · refine (round_nearest hden h g).2 hunits ?_
    have hdist := le_antisymm (hg.trans heq.le) (hnear g)
    rw [← @Nat.cast_inj ℚ, cast_dist_units hden hq, cast_dist_units hden hq, hdist]

theorem overflow_units : overflow * unitsPerOne = (18014398509481983 * Nat.pow 2 2044 : ℕ) := by
  -- the exponents are kept out of sight, so that nothing tries to compute the powers
  obtain ⟨m, hm⟩ : ∃ m, m = 970 := ⟨970, rfl⟩
  obtain ⟨k, hk, hunit⟩ := exists_unitsPerOne_eq
  have hoverflow : overflow = 2 ^ (m + 54) - 2 ^ m := by rw [hm, overflow]
  have hpower : (2044 : ℕ) = m + k := by rw [hm, hk]
  rw [hoverflow, hpower, hunit, Nat.cast_mul, cast_pow_two, cast_pow_two, pow_add, pow_add]
  push_cast
  ring

theorem underflow_units : 2 * (underflow * unitsPerOne) = 1 := by
  obtain ⟨k, hk, hunit⟩ := exists_unitsPerOne_eq
  have hunderflow : underflow = (2 ^ (k + 1))⁻¹ := by rw [hk, underflow]
  have hpos : (2 : ℚ) ^ k ≠ 0 := pow_ne_zero k two_ne_zero
  rw [hunderflow, hunit, cast_pow_two, pow_succ]
  field_simp

theorem round_isRounding (hden : 0 < den) (hq0 : 0 ≤ q) (hq : (num : ℚ) = q * (den * unitsPerOne)) :
    IsRounding negative q (round negative num den) := by
  have hden' : (0 : ℚ) < den := Nat.cast_pos.mpr hden
  have hnum : (num : ℚ) = q * unitsPerOne * den := by rw [hq, mul_comm (den : ℚ), mul_assoc]
  have hinfinite : round negative num den = .infinite negative ↔ overflow ≤ q := by
    rw [round_eq_infinite_iff hden, Nat.mul_left_comm, ← @Nat.cast_le ℚ, Nat.cast_mul, ← overflow_units, hnum,
      mul_comm, mul_le_mul_iff_left₀ hden', mul_le_mul_iff_left₀ unitsPerOne_cast_pos]
  refine ⟨hinfinite.mpr, fun hle => round_of_le_half hden ?_, fun hlt => ?_⟩
  · have hhalf : 2 * (q * unitsPerOne) ≤ 1 := by
      rw [← underflow_units]
      exact mul_le_mul_of_nonneg_left (mul_le_mul_of_nonneg_right hle unitsPerOne_cast_pos.le) zero_le_two
    rw [← @Nat.cast_le ℚ, Nat.cast_mul, hnum, ← mul_assoc]
    exact mul_le_of_le_one_left hden'.le hhalf
  · rcases round_cases negative num den with h | ⟨f, h⟩
    · exact absurd (hinfinite.mp h) (not_le_of_gt hlt)
    · rw [h]
      exact round_isNearest hden hq0 hq h

end

end Number

/-! ## Powers of ten -/

theorem pow_ten_pos (n : Nat) : 0 < Nat.pow 10 n := Nat.pow_pos (by decide)

theorem pow_ten_add (m n : Nat) : Nat.pow 10 (m + n) = Nat.pow 10 m * Nat.pow 10 n := Nat.pow_add 10 m n

theorem pow_ten_le {m n : Nat} (h : m ≤ n) : Nat.pow 10 m ≤ Nat.pow 10 n :=
  Nat.pow_le_pow_right (by decide) h

theorem cast_pow_ten (n : ℕ) : ((Nat.pow 10 n : ℕ) : ℚ) = 10 ^ n := Nat.cast_pow 10 n

/-- Ten is more than the third power of two. -/
theorem pow_two_le_pow_ten {m n : Nat} (h : m ≤ 3 * n) : Nat.pow 2 m ≤ Nat.pow 10 n :=
  calc Nat.pow 2 m ≤ Nat.pow 2 (3 * n) := pow_two_le h
    _ = Nat.pow (Nat.pow 2 3) n := Nat.pow_mul 2 3 n
    _ ≤ Nat.pow 10 n := Nat.pow_le_pow_left (by decide) n

namespace Decimal

/-- A decimal as a fraction of units: what is divided. -/
def units (d : Decimal) : Nat := d.coefficient * Nat.pow 10 d.exponent.toNat * unitsPerOne

/-- A decimal as a fraction of units: what divides. -/
def divisor (d : Decimal) : Nat := Nat.pow 10 (-d.exponent).toNat

theorem divisor_pos (d : Decimal) : 0 < d.divisor := pow_ten_pos _

/-- The coefficient has its count of digits. -/
theorem coefficient_lt (d : Decimal) : d.coefficient < Nat.pow 10 d.digits.length :=
  (Nat.length_toDigits_le_iff (by decide) Nat.length_toDigits_pos).mp (Nat.le_refl _)

theorem le_coefficient {d : Decimal} (h : d.coefficient ≠ 0) :
    Nat.pow 10 (d.digits.length - 1) ≤ d.coefficient := by
  rcases Nat.eq_zero_or_pos (d.digits.length - 1) with hone | hmore
  · rw [hone]
    exact Nat.pos_of_ne_zero h
  · refine Nat.le_of_not_lt fun hlt => ?_
    have hle := (Nat.length_toDigits_le_iff (b := 10) (by decide) hmore).mpr hlt
    change d.digits.length ≤ d.digits.length - 1 at hle
    omega

/-- A magnitude that is told too large by its digits is too large. -/
theorem overflows_of_magnitude {d : Decimal} (hc : d.coefficient ≠ 0)
    (h : 400 < (d.digits.length : Int) + d.exponent) :
    18014398509481983 * (d.divisor * Nat.pow 2 2044) ≤ d.units := by
  -- the exponents are kept out of sight, so that nothing tries to compute the powers
  obtain ⟨t, ht⟩ : ∃ t, t = 2044 := ⟨2044, rfl⟩
  obtain ⟨n, hn⟩ : ∃ n, n = 400 := ⟨400, rfl⟩
  obtain ⟨k, hk, hunit⟩ := exists_unitsPerOne_eq
  have hdigits : (-d.exponent).toNat + n ≤ d.digits.length - 1 + d.exponent.toNat := by omega
  have hpower : 18014398509481983 * Nat.pow 2 t ≤ Nat.pow 10 n * Nat.pow 2 k :=
    calc 18014398509481983 * Nat.pow 2 t ≤ Nat.pow 2 54 * Nat.pow 2 t :=
          Nat.mul_le_mul_right _ (by decide)
      _ = Nat.pow 2 (54 + t - k) * Nat.pow 2 k := by
          rw [← pow_two_add, ← pow_two_add, Nat.sub_add_cancel (by omega)]
      _ ≤ Nat.pow 10 n * Nat.pow 2 k := Nat.mul_le_mul_right _ (pow_two_le_pow_ten (by omega))
  rw [← ht]
  calc 18014398509481983 * (d.divisor * Nat.pow 2 t)
      = d.divisor * (18014398509481983 * Nat.pow 2 t) := Nat.mul_left_comm _ _ _
    _ ≤ d.divisor * (Nat.pow 10 n * Nat.pow 2 k) := Nat.mul_le_mul_left _ hpower
    _ = Nat.pow 10 ((-d.exponent).toNat + n) * unitsPerOne := by
        rw [pow_ten_add, hunit, Nat.mul_assoc]
        rfl
    _ ≤ Nat.pow 10 (d.digits.length - 1 + d.exponent.toNat) * unitsPerOne :=
        Nat.mul_le_mul_right _ (pow_ten_le hdigits)
    _ = Nat.pow 10 (d.digits.length - 1) * Nat.pow 10 d.exponent.toNat * unitsPerOne := by
        rw [pow_ten_add]
    _ ≤ d.units := Nat.mul_le_mul_right _ (Nat.mul_le_mul_right _ (le_coefficient hc))

/-- A magnitude that is told too small by its digits is too small. -/
theorem vanishes_of_magnitude {d : Decimal} (h : (d.digits.length : Int) + d.exponent < -400) :
    2 * d.units ≤ d.divisor := by
  obtain ⟨n, hn⟩ : ∃ n, n = 400 := ⟨400, rfl⟩
  obtain ⟨k, hk, hunit⟩ := exists_unitsPerOne_eq
  have hdigits : d.digits.length + d.exponent.toNat + n ≤ (-d.exponent).toNat := by omega
  calc 2 * d.units
      ≤ 2 * (Nat.pow 10 d.digits.length * Nat.pow 10 d.exponent.toNat * unitsPerOne) :=
        Nat.mul_le_mul_left _
          (Nat.mul_le_mul_right _ (Nat.mul_le_mul_right _ (Nat.le_of_lt d.coefficient_lt)))
    _ = Nat.pow 10 (d.digits.length + d.exponent.toNat) * Nat.pow 2 (k + 1) := by
        rw [pow_ten_add, pow_two_succ, hunit, Nat.mul_left_comm]
    _ ≤ Nat.pow 10 (d.digits.length + d.exponent.toNat) * Nat.pow 10 n :=
        Nat.mul_le_mul_left _ (pow_two_le_pow_ten (by omega))
    _ = Nat.pow 10 (d.digits.length + d.exponent.toNat + n) := (pow_ten_add _ _).symm
    _ ≤ d.divisor := pow_ten_le hdigits

theorem toNumber_eq_round (d : Decimal) (negative : Bool) :
    d.toNumber negative = .round negative d.units d.divisor := by
  unfold toNumber Number.ofDecimal
  split
  · rename_i hc
    rw [units, hc, Nat.zero_mul, Nat.zero_mul, Number.round_of_le_half d.divisor_pos (Nat.zero_le _)]
  · rename_i hc
    dsimp only
    split
    · rename_i hlarge
      exact ((Number.round_eq_infinite_iff d.divisor_pos).mpr (overflows_of_magnitude hc hlarge)).symm
    · split
      · rename_i hsmall
        exact (Number.round_of_le_half d.divisor_pos (vanishes_of_magnitude hsmall)).symm
      · rcases d with ⟨c, e | e⟩
        · have hpower : (-Int.ofNat e).toNat = 0 := Int.toNat_eq_zero.mpr (by simp)
          rw [units, divisor, hpower]
          rfl
        · have hfactor : c * Nat.pow 10 (Int.negSucc e).toNat = c := Nat.mul_one c
          rw [units, divisor, hfactor]
          rfl

/-! ### The rational of a decimal -/

/-- A decimal as a rational. -/
def value (d : Decimal) : ℚ := d.coefficient * 10 ^ d.exponent

theorem value_nonneg (d : Decimal) : 0 ≤ d.value :=
  mul_nonneg (Nat.cast_nonneg _) (zpow_nonneg (by norm_num) _)

theorem units_eq (d : Decimal) : (d.units : ℚ) = d.value * (d.divisor * unitsPerOne) := by
  have hpower : (10 : ℚ) ^ d.exponent * 10 ^ (-d.exponent).toNat = 10 ^ d.exponent.toNat := by
    rw [← zpow_natCast, ← zpow_natCast, ← zpow_add₀ (by norm_num)]
    congr 1
    omega
  rw [units, value, divisor, Nat.cast_mul, Nat.cast_mul, cast_pow_ten, cast_pow_ten, ← hpower]
  ring

theorem toNumber_rounding (d : Decimal) (negative : Bool) :
    Number.IsRounding negative d.value (d.toNumber negative) := by
  rw [toNumber_eq_round]
  exact Number.round_isRounding d.divisor_pos d.value_nonneg d.units_eq

/-- The number depends on the value only. -/
theorem toNumber_congr {d d' : Decimal} (h : d.value = d'.value) (negative : Bool) :
    d.toNumber negative = d'.toNumber negative := by
  rw [toNumber_eq_round, toNumber_eq_round]
  refine Number.round_eq_round d.divisor_pos d'.divisor_pos ?_
  rw [← @Nat.cast_inj ℚ, Nat.cast_mul, Nat.cast_mul, units_eq, units_eq, h]
  ring

end Decimal

end Linewise
