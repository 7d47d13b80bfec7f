import Mathlib.Data.Nat.Dist
import Linewise.Proofs.Rounding

/-!
# Rounding gives the nearest number

The rounded quotient is the nearest whole number, and on the grid of the numbers of one scale that is the
nearest number. Numbers of smaller scales are no nearer, since they all lie below the grid
(`Finite.units_on_grid`). So what rounding gives is nearest among all finite numbers, with the even mantissa
if there are two (`Number.round_nearest`), and it is infinite exactly from the point on that lies halfway
between the greatest finite number and the next power of two (`Number.round_eq_infinite_iff`).
-/

namespace Linewise

/-! ## The nearest whole number -/

section

variable {num den k : Nat}

theorem roundQuotient_cases (num den : Nat) :
    (roundQuotient num den = num / den ∧ 2 * (num % den) ≤ den) ∨
      (roundQuotient num den = num / den + 1 ∧ den ≤ 2 * (num % den)) := by
  unfold roundQuotient
  dsimp only
  split
  · exact .inl ⟨rfl, by omega⟩
  · split
    · exact .inr ⟨rfl, by omega⟩
    · split
      · exact .inl ⟨rfl, by omega⟩
      · exact .inr ⟨rfl, by omega⟩

/-- A multiple is at most the one below the quotient, or it is one of the two next to the quotient, or it is
past these. -/
theorem multiple_cases (k q den : Nat) :
    k * den + den ≤ q * den ∨ k = q ∨ k = q + 1 ∨ q * den + 2 * den ≤ k * den := by
  rcases Nat.lt_or_ge k q with hlt | hge
  · have hmul := Nat.mul_le_mul_right den (Nat.succ_le_of_lt hlt)
    rw [Nat.succ_mul] at hmul
    exact .inl hmul
  · rcases Nat.lt_or_ge (q + 1) k with hlt | hle
    · have hmul := Nat.mul_le_mul_right den (Nat.succ_le_of_lt hlt)
      rw [Nat.succ_mul, Nat.succ_mul] at hmul
      omega
    · omega

theorem dist_roundQuotient_le (hden : 0 < den) (num k : Nat) :
    Nat.dist (roundQuotient num den * den) num ≤ Nat.dist (k * den) num := by
  have hsplit := Nat.div_add_mod num den
  have hrest := Nat.mod_lt num hden
  have hk := multiple_cases k (num / den) den
  rw [Nat.mul_comm] at hsplit
  have hnext : (num / den + 1) * den = num / den * den + den := Nat.succ_mul _ _
  unfold Nat.dist
  rcases roundQuotient_cases num den with ⟨hround, hhalf⟩ | ⟨hround, hhalf⟩ <;> rw [hround]
  · rcases hk with hk | rfl | rfl | hk <;> omega
  · rcases hk with hk | rfl | rfl | hk <;> omega

/-- A quotient is rounded up to an even number above it exactly from halfway on. -/
theorem roundQuotient_eq_even_iff (hk : k % 2 = 0) (hden : 0 < den) (hlt : num < k * den) :
    roundQuotient num den = k ↔ (2 * k - 1) * den ≤ 2 * num := by
  obtain ⟨j, rfl⟩ : ∃ j, k = j + 1 := by
    refine Nat.exists_eq_succ_of_ne_zero ?_
    rintro rfl
    omega
  have hsplit := Nat.div_add_mod num den
  have hrest := Nat.mod_lt num hden
  have hround := roundQuotient_le num den
  have hdouble : (2 * (j + 1) - 1) * den = 2 * (j * den) + den := by
    rw [show 2 * (j + 1) - 1 = 2 * j + 1 by omega, Nat.succ_mul, Nat.mul_assoc]
  rw [Nat.mul_comm] at hsplit
  rw [Nat.succ_mul] at hlt
  rw [hdouble]
  rcases Nat.lt_trichotomy (num / den) j with hbelow | heq | habove
  · have hle := Nat.mul_le_mul_right den (Nat.succ_le_of_lt hbelow)
    rw [Nat.succ_mul] at hle
    omega
  · -- halfway up to the even number, since the one below is odd
    rw [heq] at hsplit
    unfold roundQuotient
    dsimp only
    rw [heq]
    split
    · omega
    · split
      · omega
      · rw [if_neg (by omega)]
        omega
  · have hle := Nat.mul_le_mul_right den (Nat.succ_le_of_lt habove)
    rw [Nat.succ_mul] at hle
    omega

/-- If another multiple is as near, the number is halfway between the two, and the even one is taken. -/
theorem even_of_dist_eq (hden : 0 < den) (hk : k ≠ roundQuotient num den)
    (hdist : Nat.dist (k * den) num = Nat.dist (roundQuotient num den * den) num) :
    roundQuotient num den % 2 = 0 := by
  have hsplit := Nat.div_add_mod num den
  have hrest := Nat.mod_lt num hden
  have hcases := multiple_cases k (num / den) den
  rw [Nat.mul_comm] at hsplit
  have hnext : (num / den + 1) * den = num / den * den + den := Nat.succ_mul _ _
  have hhalf : 2 * (num % den) = den := by
    unfold Nat.dist at hdist
    rcases roundQuotient_cases num den with ⟨hround, hle⟩ | ⟨hround, hle⟩ <;> rw [hround] at hk hdist
    · rcases hcases with hk' | rfl | rfl | hk' <;> omega
    · rcases hcases with hk' | rfl | rfl | hk' <;> omega
  rw [roundQuotient, if_neg (by omega), if_neg (by omega)]
  split <;> omega

end

/-! ## Finite numbers on a grid -/

theorem pow_two_le {s t : Nat} (h : s ≤ t) : Nat.pow 2 s ≤ Nat.pow 2 t := Nat.pow_le_pow_right Nat.two_pos h

theorem pow_two_succ (s : Nat) : Nat.pow 2 (s + 1) = 2 * Nat.pow 2 s := by
  rw [pow_two_add, Nat.mul_comm]

namespace Finite

/-- Numbers of smaller scales are less than all numbers that need a scale. -/
theorem units_lt_of_scale_lt {g : Finite} {s : Nat} (h : g.scale < s) :
    g.units < 4503599627370496 * Nat.pow 2 s := by
  obtain ⟨t, rfl⟩ : ∃ t, s = g.scale + (t + 1) := ⟨s - g.scale - 1, by omega⟩
  have hpow : Nat.pow 2 (g.scale + (t + 1)) = 2 * (Nat.pow 2 g.scale * Nat.pow 2 t) := by
    rw [← Nat.add_assoc, pow_two_succ, pow_two_add]
  have hgrow : Nat.pow 2 g.scale ≤ Nat.pow 2 g.scale * Nat.pow 2 t :=
    Nat.le_mul_of_pos_right _ (pow_two_pos t)
  have hunits : g.units < 9007199254740992 * Nat.pow 2 g.scale :=
    (Nat.mul_lt_mul_right (pow_two_pos g.scale)).mpr g.mantissa_lt
  omega

/-- A number lies on the grid of a scale, or it is less than all numbers that need this scale. -/
theorem units_on_grid (g : Finite) (s : Nat) :
    (∃ k, g.units = k * Nat.pow 2 s) ∨ (s ≠ 0 ∧ g.units < 4503599627370496 * Nat.pow 2 s) := by
  rcases Nat.lt_or_ge g.scale s with hlt | hge
  · exact .inr ⟨by omega, units_lt_of_scale_lt hlt⟩
  · refine .inl ⟨g.mantissa * Nat.pow 2 (g.scale - s), ?_⟩
    rw [Nat.mul_assoc, ← pow_two_add, Nat.sub_add_cancel hge]
    rfl

theorem scale_le_of_units {f g : Finite} (h : f.units = g.units) : g.scale ≤ f.scale := by
  refine Nat.le_of_not_lt fun hlt => ?_
  have hunits := units_lt_of_scale_lt hlt
  have hfull : 4503599627370496 ≤ g.mantissa := g.normal.resolve_left (by omega)
  have hmul : 4503599627370496 * Nat.pow 2 g.scale ≤ g.units := Nat.mul_le_mul_right _ hfull
  omega

/-- A finite number is determined by its sign and its units. -/
theorem eq_of_units {f g : Finite} (hnegative : f.negative = g.negative) (h : f.units = g.units) :
    f = g := by
  have hscale : f.scale = g.scale := Nat.le_antisymm (scale_le_of_units h.symm) (scale_le_of_units h)
  have hmantissa : f.mantissa = g.mantissa := by
    refine Nat.eq_of_mul_eq_mul_right (pow_two_pos g.scale) ?_
    rw [Finite.units, Finite.units, hscale] at h
    exact h
  cases f
  cases g
  cases hnegative
  cases hscale
  cases hmantissa
  rfl

/-- All finite numbers are below the point from which on rounding is infinite. -/
theorem units_lt (g : Finite) : g.units < 18014398509481983 * Nat.pow 2 2044 := by
  obtain ⟨t, ht⟩ : ∃ t, t = 2044 := ⟨2044, rfl⟩
  have hscale : g.scale ≤ t + 1 := by
    have hle := g.scale_le
    omega
  have hmul := Nat.mul_le_mul (Nat.le_of_lt_succ g.mantissa_lt) (pow_two_le hscale)
  rw [pow_two_succ] at hmul
  have hpos := pow_two_pos t
  rw [← ht, Finite.units]
  omega

end Finite

namespace Number

section

variable {negative : Bool} {num den : Nat} {f : Finite}

theorem lt_at_scaleOf (num : Nat) (hden : 0 < den) :
    num < 9007199254740992 * (den * Nat.pow 2 (scaleOf (num / den))) := by
  have hlt := div_scaleOf_lt (num / den)
  rw [Nat.div_div_eq_div_mul] at hlt
  exact (Nat.div_lt_iff_lt_mul (Nat.mul_pos hden (pow_two_pos _))).mp hlt

theorem le_at_scaleOf (num : Nat) (hden : 0 < den) (hscale : scaleOf (num / den) ≠ 0) :
    4503599627370496 * (den * Nat.pow 2 (scaleOf (num / den))) ≤ num := by
  have hle := le_div_scaleOf hscale
  rw [Nat.div_div_eq_div_mul] at hle
  exact (Nat.le_div_iff_mul_le (Nat.mul_pos hden (pow_two_pos _))).mp hle

theorem round_cases (negative : Bool) (num den : Nat) :
    round negative num den = .infinite negative ∨ ∃ f, round negative num den = .finite f := by
  unfold round
  dsimp only
  split
  · split
    · exact .inr ⟨_, rfl⟩
    · exact .inl rfl
  · split
    · exact .inr ⟨_, rfl⟩
    · exact .inl rfl

/-- What a finite result of rounding consists of. -/
theorem of_round_eq_finite (h : round negative num den = .finite f) :
    f.negative = negative ∧ f.units = mantissaOf num den * Nat.pow 2 (scaleOf (num / den)) ∧
      (mantissaOf num den % 2 = 0 → f.mantissa % 2 = 0) := by
  unfold round at h
  dsimp only at h
  split at h
  · split at h
    · cases h
      exact ⟨rfl, rfl, id⟩
    · cases h
  · rename_i hfull
    have hmantissa : mantissaOf num den = 9007199254740992 :=
      Nat.le_antisymm (mantissaOf_le num den) (Nat.not_lt.mp hfull)
    split at h
    · cases h
      refine ⟨rfl, ?_, fun _ => show 4503599627370496 % 2 = 0 from rfl⟩
      have hpow : Nat.pow 2 1 = 2 := rfl
      dsimp only [Finite.units]
      rw [hmantissa, pow_two_add, hpow]
      omega
    · cases h

/-- Rounding gives a number that is nearest among all finite numbers, and if another one is as near, the
mantissa is even. -/
theorem round_nearest (hden : 0 < den) (h : round negative num den = .finite f) (g : Finite) :
    Nat.dist (f.units * den) num ≤ Nat.dist (g.units * den) num ∧
      (g.units ≠ f.units → Nat.dist (g.units * den) num = Nat.dist (f.units * den) num →
        f.mantissa % 2 = 0) := by
  obtain ⟨-, hunits, heven⟩ := of_round_eq_finite h
  have hfull := le_at_scaleOf num hden
  rw [mantissaOf] at hunits heven
  generalize scaleOf (num / den) = s at hunits heven hfull
  have hstep : 0 < den * Nat.pow 2 s := Nat.mul_pos hden (pow_two_pos s)
  have hgrid : ∀ k, k * Nat.pow 2 s * den = k * (den * Nat.pow 2 s) := by
    intro k
    rw [Nat.mul_assoc, Nat.mul_comm (Nat.pow 2 s)]
  rw [hunits, hgrid]
  rcases g.units_on_grid s with ⟨k, hk⟩ | ⟨hs, hlt⟩
  · rw [hk, hgrid]
    refine ⟨dist_roundQuotient_le hstep num k, fun hne hdist => heven (even_of_dist_eq hstep ?_ hdist)⟩
    rintro rfl
    exact hne rfl
  · -- all numbers of smaller scales are below 2⁵² steps, which is not past the rounded value
    have hbelow := Nat.mul_lt_mul_of_pos_right hlt hden
    rw [hgrid] at hbelow
    have hbound := dist_roundQuotient_le hstep num 4503599627370496
    have hfull := hfull hs
    unfold Nat.dist at hbound ⊢
    refine ⟨by omega, fun _ hdist => ?_⟩
    omega

/-- Rounding is infinite if the result has no scale, be it because of the last step of rounding only. -/
theorem round_eq_infinite_iff_scale : round negative num den = .infinite negative ↔
    2045 < scaleOf (num / den) ∨
      (scaleOf (num / den) = 2045 ∧ mantissaOf num den = 9007199254740992) := by
  have hmantissa := mantissaOf_le num den
  unfold round
  dsimp only
  split
  · split <;> simp <;> omega
  · split <;> simp <;> omega

/-- Rounding is infinite from halfway between the greatest finite number and the power of two that comes
after it. -/
theorem round_eq_infinite_iff (hden : 0 < den) :
    round negative num den = .infinite negative ↔ 18014398509481983 * (den * Nat.pow 2 2044) ≤ num := by
  -- the exponent is kept out of sight, so that nothing tries to compute the power
  obtain ⟨t, ht⟩ : ∃ t, t = 2044 := ⟨2044, rfl⟩
  rw [round_eq_infinite_iff_scale, ← ht, mantissaOf]
  have hlt := lt_at_scaleOf num hden
  have hfull := le_at_scaleOf num hden
  generalize scaleOf (num / den) = s at hlt hfull
  have hstep : 0 < den * Nat.pow 2 s := Nat.mul_pos hden (pow_two_pos s)
  rcases Nat.lt_trichotomy s (t + 1) with hs | rfl | hs
  · have hsmall : den * Nat.pow 2 s ≤ den * Nat.pow 2 t :=
      Nat.mul_le_mul_left den (pow_two_le (Nat.le_of_lt_succ hs))
    omega
  · have htop : den * Nat.pow 2 (t + 1) = 2 * (den * Nat.pow 2 t) := by
      rw [pow_two_succ, Nat.mul_left_comm]
    have hround := roundQuotient_eq_even_iff (by decide) hstep hlt
    omega
  · have hlarge : 4 * (den * Nat.pow 2 t) ≤ den * Nat.pow 2 s := by
      have hmul := Nat.mul_le_mul_left den (pow_two_le (Nat.succ_le_of_lt hs))
      rw [pow_two_succ, pow_two_succ, ← Nat.mul_assoc 2 2, Nat.mul_left_comm] at hmul
      exact hmul
    have hfull := hfull (by omega)
    omega

/-- Up to half a unit rounding gives zero. -/
theorem round_of_le_half (hden : 0 < den) (h : 2 * num ≤ den) : round negative num den = zeroOf negative := by
  have hquotient : num / den = 0 := Nat.div_eq_of_lt (by omega)
  have hscale : scaleOf 0 = 0 := rfl
  have hpow : den * Nat.pow 2 0 = den := Nat.mul_one den
  have hmantissa : mantissaOf num den = 0 := by
    rw [mantissaOf, hquotient, hscale, hpow]
    unfold roundQuotient
    dsimp only
    rw [hquotient, Nat.mod_eq_of_lt (by omega)]
    split
    · rfl
    · exact (if_neg (by omega)).trans (if_pos rfl)
  unfold round
  simp only [hquotient, hmantissa]
  rfl

end

/-! ## Exact results -/

/-- A number is not rounded. -/
theorem round_units (x : Finite) {den : Nat} (hden : 0 < den) :
    round x.negative (x.units * den) den = .finite x := by
  rcases round_cases x.negative (x.units * den) den with h | ⟨f, h⟩
  · rw [round_eq_infinite_iff hden, Nat.mul_left_comm, Nat.mul_comm den] at h
    have hle := Nat.le_of_mul_le_mul_right h hden
    have hlt := x.units_lt
    exact absurd hle (Nat.not_le_of_lt hlt)
  · have hnear := (round_nearest hden h x).1
    rw [Nat.dist_self, Nat.le_zero] at hnear
    have hunits := Nat.eq_of_mul_eq_mul_right hden (Nat.eq_of_dist_eq_zero hnear)
    rw [h, Finite.eq_of_units (of_round_eq_finite h).1 hunits]

/-- Rounding depends on the quotient only. -/
theorem round_mul_right (negative : Bool) (num : Nat) {den k : Nat} (hk : 0 < k) :
    round negative (num * k) (den * k) = round negative num den := by
  have hquotient : num * k / (den * k) = num / den := Nat.mul_div_mul_right num den hk
  have hmantissa : mantissaOf (num * k) (den * k) = mantissaOf num den := by
    rw [mantissaOf, mantissaOf, hquotient, Nat.mul_right_comm, roundQuotient_mul_right _ _ hk]
  unfold round
  simp only [hquotient, hmantissa]

theorem round_eq_round {negative : Bool} {num num' den den' : Nat} (hden : 0 < den) (hden' : 0 < den')
    (h : num * den' = num' * den) : round negative num den = round negative num' den' := by
  calc round negative num den = round negative (num * den') (den * den') :=
        (round_mul_right negative num hden').symm
    _ = round negative (num' * den) (den' * den) := by rw [h, Nat.mul_comm den]
    _ = round negative num' den' := round_mul_right negative num' hden

end Number

end Linewise
