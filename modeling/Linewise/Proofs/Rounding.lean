import Linewise.Number.Arith

/-!
# When rounding is exact

Arithmetic rounds the exact result once, to 53 significant bits. A whole number below 2⁵³ has no more than
these, so it comes out as it is (`round_whole`), and so do sums, products and remainders that are whole
numbers of this size. A quotient of two of them may be rounded, but not as far as to the whole number below
or past the one above (`round_quotient`), so that its ceiling is the exact one.
-/

namespace Linewise

/-! ## Rounded quotients -/

section

variable {num den k : Nat}

theorem roundQuotient_mul_right (num den : Nat) (hk : 0 < k) :
    roundQuotient (num * k) (den * k) = roundQuotient num den := by
  have hlt : ∀ a b, 2 * (a * k) < b * k ↔ 2 * a < b := by
    intro a b
    rw [← Nat.mul_assoc, Nat.mul_lt_mul_right hk]
  have hgt : ∀ a b, b * k < 2 * (a * k) ↔ b < 2 * a := by
    intro a b
    rw [← Nat.mul_assoc, Nat.mul_lt_mul_right hk]
  simp only [roundQuotient, Nat.mul_div_mul_right _ _ hk, Nat.mul_mod_mul_right, hlt, hgt]

/-- A quotient without a remainder is not rounded. -/
theorem roundQuotient_mul_self (h : 0 < den) : roundQuotient (k * den) den = k := by
  rw [roundQuotient, Nat.mul_mod_left, Nat.mul_div_cancel _ h]
  exact if_pos h

theorem roundQuotient_le_of_le (h : num ≤ k * den) (hden : 0 < den) : roundQuotient num den ≤ k := by
  rcases Nat.lt_or_eq_of_le h with hlt | rfl
  · have hdiv : num / den < k := (Nat.div_lt_iff_lt_mul hden).mpr hlt
    have hround := roundQuotient_le num den
    omega
  · exact Nat.le_of_eq (roundQuotient_mul_self hden)

/-- A quotient that is more than half above a whole number is not rounded down to it. -/
theorem lt_roundQuotient (h : k * den < num) (hhalf : den < 2 * (num - k * den)) (hden : 0 < den) :
    k < roundQuotient num den := by
  have hle : k ≤ num / den := (Nat.le_div_iff_mul_le hden).mpr (Nat.le_of_lt h)
  rcases Nat.lt_or_eq_of_le hle with hlt | heq
  · exact Nat.lt_of_lt_of_le hlt (div_le_roundQuotient num den)
  · have hmod : num % den = num - k * den := by
      have hsplit := Nat.div_add_mod num den
      rw [← heq, Nat.mul_comm] at hsplit
      omega
    rw [roundQuotient, hmod, ← heq, if_neg (by omega), if_pos hhalf]
    exact Nat.lt_succ_self k

end

/-! ## Powers of two -/

theorem pow_two_pos (s : Nat) : 0 < Nat.pow 2 s := Nat.two_pow_pos s

theorem pow_two_add (s t : Nat) : Nat.pow 2 (s + t) = Nat.pow 2 s * Nat.pow 2 t := Nat.pow_add 2 s t

/-- The exponent is kept out of sight, where nothing can try to compute the power. -/
theorem exists_unitsPerOne_eq : ∃ k, k = 1074 ∧ unitsPerOne = Nat.pow 2 k := by
  unfold unitsPerOne
  exact ⟨1074, rfl, rfl⟩

theorem unitsPerOne_pos : 0 < unitsPerOne := by
  obtain ⟨k, -, hunit⟩ := exists_unitsPerOne_eq
  rw [hunit]
  exact pow_two_pos k

theorem pow_mul_pow_sub {s : Nat} (h : s ≤ 1074) : Nat.pow 2 (1074 - s) * Nat.pow 2 s = unitsPerOne := by
  obtain ⟨k, hk, hunit⟩ := exists_unitsPerOne_eq
  rw [← pow_two_add, Nat.sub_add_cancel h, ← hk]
  exact hunit.symm

theorem lt_unitsPerOne : 9007199254740992 < unitsPerOne := by
  obtain ⟨k, hk, hunit⟩ := exists_unitsPerOne_eq
  have hsplit : Nat.pow 2 k = 18014398509481984 * Nat.pow 2 (k - 54) := by
    have hadd := pow_two_add 54 (k - 54)
    rwa [show 54 + (k - 54) = k by omega] at hadd
  have hpos := pow_two_pos (k - 54)
  omega

namespace Number

/-! ## Rounding to a finite number -/

theorem scaleOf_le {q k : Nat} (h : q < 9007199254740992 * Nat.pow 2 k) : scaleOf q ≤ k := by
  have h : q < 2 ^ (53 + k) := Nat.lt_of_lt_of_eq h (pow_two_add 53 k).symm
  unfold scaleOf
  by_cases hq : q = 0
  · subst hq
    exact Nat.zero_le _
  · have hlog := (Nat.log2_lt hq).mpr h
    omega

/-- What is far enough below the greatest finite number is rounded to the mantissa at its scale. -/
theorem round_finite {negative : Bool} {num den : Nat} (h : scaleOf (num / den) < 2045) :
    ∃ x, round negative num den = .finite x ∧ x.negative = negative ∧
      x.units = mantissaOf num den * Nat.pow 2 (scaleOf (num / den)) := by
  unfold round
  dsimp only
  split
  · rw [dif_pos (Nat.le_of_lt h)]
    exact ⟨_, rfl, rfl, rfl⟩
  · rename_i hfull
    have hmantissa : mantissaOf num den = 9007199254740992 :=
      Nat.le_antisymm (mantissaOf_le num den) (Nat.not_lt.mp hfull)
    rw [dif_pos (show _ + 1 ≤ 2045 from h), hmantissa]
    refine ⟨_, rfl, rfl, ?_⟩
    have hpow : Nat.pow 2 1 = 2 := rfl
    dsimp only [Finite.units]
    rw [pow_two_add, hpow]
    omega

theorem scaleOf_whole_le {n q : Nat} (h : n < 9007199254740992) (hq : q ≤ n * unitsPerOne) :
    scaleOf q ≤ 1074 := by
  obtain ⟨k, hk, hunit⟩ := exists_unitsPerOne_eq
  have hlt := Nat.lt_of_le_of_lt hq ((Nat.mul_lt_mul_right unitsPerOne_pos).mpr h)
  rw [hunit] at hlt
  exact hk ▸ scaleOf_le hlt

/-- A whole number below 2⁵³ is not rounded. -/
theorem round_whole (negative : Bool) {n den : Nat} (hn : n < 9007199254740992) (hden : 0 < den) :
    ∃ x, round negative (n * unitsPerOne * den) den = .finite x ∧ x.negative = negative ∧
      x.units = n * unitsPerOne := by
  have hscale := scaleOf_whole_le hn (Nat.le_refl _)
  have hquotient : n * unitsPerOne * den / den = n * unitsPerOne := Nat.mul_div_cancel _ hden
  obtain ⟨x, hx, hnegative, hunits⟩ :=
    @round_finite negative (n * unitsPerOne * den) den (by rw [hquotient]; omega)
  refine ⟨x, hx, hnegative, hunits.trans ?_⟩
  have hpow := pow_mul_pow_sub hscale
  rw [hquotient, mantissaOf, hquotient]
  generalize scaleOf (n * unitsPerOne) = s at hpow
  have hmultiple : n * unitsPerOne * den = n * Nat.pow 2 (1074 - s) * (den * Nat.pow 2 s) := by
    rw [← hpow]
    ac_rfl
  rw [hmultiple, roundQuotient_mul_self (Nat.mul_pos hden (pow_two_pos s)), Nat.mul_assoc, hpow]

/-- At the scale of a quotient of whole numbers a unit of the mantissa is less than two ones over the
divisor. -/
theorem mul_scaleOf_lt {a b : Nat} (ha : a < 9007199254740992) (hb : b < 9007199254740992) (hpos : 0 < b) :
    b * Nat.pow 2 (scaleOf (a * unitsPerOne / b)) < 2 * unitsPerOne := by
  have hfull := le_div_scaleOf (q := a * unitsPerOne / b)
  generalize scaleOf (a * unitsPerOne / b) = s at hfull
  by_cases hzero : s = 0
  · subst hzero
    have hone := lt_unitsPerOne
    have hpow : Nat.pow 2 0 = 1 := rfl
    rw [hpow]
    omega
  · have hfull := hfull hzero
    rw [Nat.le_div_iff_mul_le (pow_two_pos s), Nat.le_div_iff_mul_le hpos] at hfull
    have hbound : a * unitsPerOne < 9007199254740992 * unitsPerOne :=
      (Nat.mul_lt_mul_right unitsPerOne_pos).mpr ha
    have hswap : 4503599627370496 * Nat.pow 2 s * b = 4503599627370496 * (b * Nat.pow 2 s) := by ac_rfl
    omega

/-- A quotient of whole numbers below 2⁵³ is rounded to a number between the same whole numbers. -/
theorem round_quotient {a b : Nat} (ha : a < 9007199254740992) (hb : b < 9007199254740992)
    (hpos : 0 < b) :
    ∃ x, round false (a * unitsPerOne * unitsPerOne) (b * unitsPerOne) = .finite x ∧ x.negative = false ∧
      ∀ k, (k * b < a → k * unitsPerOne < x.units) ∧ (a ≤ k * b → x.units ≤ k * unitsPerOne) := by
  have hunit := unitsPerOne_pos
  have hquotient : a * unitsPerOne * unitsPerOne / (b * unitsPerOne) = a * unitsPerOne / b :=
    Nat.mul_div_mul_right _ _ hunit
  have hscale : scaleOf (a * unitsPerOne / b) ≤ 1074 := scaleOf_whole_le ha (Nat.div_le_self _ _)
  obtain ⟨x, hx, hnegative, hunits⟩ := @round_finite false (a * unitsPerOne * unitsPerOne) (b * unitsPerOne)
    (by rw [hquotient]; exact Nat.lt_of_le_of_lt hscale (by decide))
  refine ⟨x, hx, hnegative, ?_⟩
  -- the mantissa is the quotient of `a` units and `b` at the scale `s`
  rw [hquotient, mantissaOf, hquotient] at hunits
  have hfine := mul_scaleOf_lt ha hb hpos
  have hpow := pow_mul_pow_sub hscale
  generalize scaleOf (a * unitsPerOne / b) = s at hunits hfine hpow
  rw [Nat.mul_right_comm b, roundQuotient_mul_right _ _ hunit] at hunits
  have hs := pow_two_pos s
  have hden : 0 < b * Nat.pow 2 s := Nat.mul_pos hpos hs
  have hmultiple : ∀ k, k * Nat.pow 2 (1074 - s) * (b * Nat.pow 2 s) = k * b * unitsPerOne := by
    intro k
    rw [← hpow]
    ac_rfl
  have hwhole : ∀ k, k * Nat.pow 2 (1074 - s) * Nat.pow 2 s = k * unitsPerOne := by
    intro k
    rw [Nat.mul_assoc, hpow]
  refine fun k => ⟨fun hk => ?_, fun hk => ?_⟩
  · rw [hunits, ← hwhole k, Nat.mul_lt_mul_right hs]
    have hgap : k * b * unitsPerOne + unitsPerOne ≤ a * unitsPerOne := by
      rw [← Nat.succ_mul]
      exact Nat.mul_le_mul_right _ hk
    exact lt_roundQuotient (by rw [hmultiple]; omega) (by rw [hmultiple]; omega) hden
  · rw [hunits, ← hwhole k]
    refine Nat.mul_le_mul_right _ (roundQuotient_le_of_le ?_ hden)
    rw [hmultiple]
    exact Nat.mul_le_mul_right _ hk

end Number

end Linewise
