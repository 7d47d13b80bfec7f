import Mathlib.Data.Int.ModEq
import Mathlib.Tactic.Linarith
import Mathlib.Tactic.Ring
import Linewise.Proofs.ExactArithmetic
import Linewise.Tape.Basic

/-!
# Wrapping values into bounds

What is written to a tape is wrapped into its bounds. On faithful scalars that is followed in rational
arithmetic, in each configuration of the bounds: between two of them a value is reduced modulo the length of
the range (`Faithful.wrap_between`), above a single upper bound it steps down, below a single lower bound it
saturates. On whole numbers all of these agree with reductions modulo a whole number (`wrapped`,
`Faithful.wrap_stands`), in exact arithmetic and in binary64 alike.
-/

namespace Linewise

/-! ## Reducing a rational -/

/-- The value from `lo` on that differs from `v` by a multiple of the length of the range. -/
def reduced (lo hi v : ℚ) : ℚ := v - ⌊(v - lo) / (hi - lo + 1)⌋ * (hi - lo + 1)

section Reduced

variable {lo hi v : ℚ}

theorem le_reduced (hspan : 0 < hi - lo + 1) : lo ≤ reduced lo hi v := by
  have hfloor := (le_div_iff₀ hspan).mp (Int.floor_le ((v - lo) / (hi - lo + 1)))
  rw [reduced]
  linarith

theorem reduced_lt (hspan : 0 < hi - lo + 1) : reduced lo hi v < hi + 1 := by
  have hfloor := (div_lt_iff₀ hspan).mp (Int.lt_floor_add_one ((v - lo) / (hi - lo + 1)))
  rw [reduced]
  linarith

/-- There is one such value. -/
theorem eq_reduced {k : ℤ} (hlower : lo ≤ v - k * (hi - lo + 1)) (hupper : v - k * (hi - lo + 1) < hi + 1) :
    v - k * (hi - lo + 1) = reduced lo hi v := by
  have hspan : 0 < hi - lo + 1 := by linarith
  have hfloor : ⌊(v - lo) / (hi - lo + 1)⌋ = k := by
    rw [Int.floor_eq_iff, le_div_iff₀ hspan, div_lt_iff₀ hspan]
    constructor <;> linarith
  rw [reduced, hfloor]

theorem reduced_of_inside (hlower : lo ≤ v) (hupper : v < hi + 1) : reduced lo hi v = v := by
  have hzero : v - (0 : ℤ) * (hi - lo + 1) = v := by
    rw [Int.cast_zero, zero_mul, sub_zero]
  rw [← eq_reduced (k := 0) (hzero.symm ▸ hlower) (hzero.symm ▸ hupper), hzero]

/-- A remainder has the sign of the distance to `lo`; a negative one is a length too low. -/
theorem add_remainder (hspan : 0 < hi - lo + 1) :
    lo + (if remainder (v - lo) (hi - lo + 1) < 0 then remainder (v - lo) (hi - lo + 1) + (hi - lo + 1)
      else remainder (v - lo) (hi - lo + 1)) = reduced lo hi v := by
  have hsmall := abs_lt.mp (abs_remainder_lt (p := v - lo) hspan)
  have hrest : remainder (v - lo) (hi - lo + 1)
      = v - lo - wholePart ((v - lo) / (hi - lo + 1)) * (hi - lo + 1) := rfl
  generalize remainder (v - lo) (hi - lo + 1) = r at hsmall hrest
  generalize wholePart ((v - lo) / (hi - lo + 1)) = k at hrest
  split
  · have hmultiple : lo + (r + (hi - lo + 1)) = v - (k - 1 : ℤ) * (hi - lo + 1) := by
      push_cast
      linarith
    rw [hmultiple]
    apply eq_reduced <;> rw [← hmultiple] <;> linarith
  · have hmultiple : lo + r = v - k * (hi - lo + 1) := by linarith
    rw [hmultiple]
    apply eq_reduced <;> rw [← hmultiple] <;> linarith

end Reduced

namespace Tape

/-! ## The cases of wrapping -/

section Cases

variable {α : Type} [Scalar α] {x y z : α}

open Scalar

theorem wrap_of_inside (hlower : le x z = true) (hupper : le z y = true) : wrap x y z = z := by
  rw [wrap, hlower, hupper, Bool.and_self, Bool.or_true, if_pos rfl]

/-- A value that is to be wrapped. -/
def Outside (x y z : α) : Prop := (isNan z || (le x z && le z y)) = false

theorem wrap_of_finite (h : Outside x y z) (hx : isInfinite x = false) (hy : isInfinite y = false) :
    wrap x y z = if le (y - x + one) zero then x
      else x + (if lt (rem (z - x) (y - x + one)) zero then rem (z - x) (y - x + one) + (y - x + one)
        else rem (z - x) (y - x + one)) := by
  rw [wrap, h, hx, hy]
  rfl

theorem wrap_of_upper (h : Outside x y z) (hx : isInfinite x = true) (hy : isInfinite y = false)
    (hlt : lt y z = true) :
    wrap x y z = if lt zero (y + one) then z - ceil ((z - y) / (y + one)) * (y + one) else y := by
  rw [wrap, h, hx, hy, hlt]
  rfl

theorem wrap_of_lower (h : Outside x y z) (hy : isInfinite y = true) (hlt : lt y z = false) :
    wrap x y z = x := by
  rw [wrap, h, hy, hlt]
  cases isInfinite x <;> rfl

end Cases

end Tape

/-- What comes up when a value is wrapped between two bounds fits. -/
structure FitsBetween (fits : ℚ → Prop) (lo hi v : ℚ) : Prop where
  width : fits (hi - lo)
  length : fits (hi - lo + 1)
  distance : fits (v - lo)
  rest : fits (reduced lo hi v - lo)
  result : fits (reduced lo hi v)

/-- A value above a single upper bound, brought down in steps of one more than the bound. -/
def stepped (hi v : ℚ) : ℚ := v - ⌈(v - hi) / (hi + 1)⌉ * (hi + 1)

/-- What comes up when a value is stepped down fits. -/
structure FitsAbove (fits : ℚ → Prop) (hi v : ℚ) : Prop where
  step : fits (hi + 1)
  distance : fits (v - hi)
  multiple : fits (⌈(v - hi) / (hi + 1)⌉ * (hi + 1))
  result : fits (stepped hi v)

namespace Faithful

section Rational

variable {α : Type} [Scalar α] {stands : α → ℚ → Prop} {fits : ℚ → Prop} {least greatest : α}
variable {x y z : α} {lo hi v : ℚ} (hF : Faithful stands fits least greatest)

open Tape

include hF

theorem outside (hx : stands x lo) (hy : stands y hi) (hz : stands z v) (hout : ¬ (lo ≤ v ∧ v ≤ hi)) :
    Outside x y z := by
  rw [Outside, hF.isNan hz, Bool.false_or, ← Bool.not_eq_true, Bool.and_eq_true, hF.le hx hz, hF.le hz hy]
  exact hout

theorem span (hx : stands x lo) (hy : stands y hi) (hwidth : fits (hi - lo)) (hlength : fits (hi - lo + 1)) :
    stands (y - x + Scalar.one) (hi - lo + 1) :=
  hF.add (hF.sub hy hx hwidth) hF.one hlength

/-- Between two bounds a value is reduced modulo the length of the range. -/
theorem wrap_between (hx : stands x lo) (hy : stands y hi) (hz : stands z v) (hspan : 0 < hi - lo + 1)
    (hfits : FitsBetween fits lo hi v) : stands (wrap x y z) (reduced lo hi v) := by
  by_cases hin : lo ≤ v ∧ v ≤ hi
  · obtain ⟨hlower, hupper⟩ := hin
    rw [wrap_of_inside ((hF.le hx hz).mpr hlower) ((hF.le hz hy).mpr hupper),
      reduced_of_inside hlower (by linarith)]
    exact hz
  · have hlength := hF.span hx hy hfits.width hfits.length
    have hrest := hF.rem (hF.sub hz hx hfits.distance) hlength hfits.distance hfits.length hspan
    have hsum := add_remainder (v := v) hspan
    have hpositive : ¬ Scalar.le (y - x + Scalar.one) Scalar.zero = true := by
      rw [hF.le hlength hF.zero]
      exact not_le.mpr hspan
    rw [wrap_of_finite (hF.outside hx hy hz hin) (hF.isInfinite hx) (hF.isInfinite hy), if_neg hpositive]
    -- the correction is made exactly for a negative remainder, as on scalars so on rationals
    by_cases hneg : remainder (v - lo) (hi - lo + 1) < 0
    · rw [if_pos hneg] at hsum
      rw [if_pos ((hF.lt hrest hF.zero).mpr hneg), ← hsum]
      have hlifted : fits (remainder (v - lo) (hi - lo + 1) + (hi - lo + 1)) := by
        have hfit := hfits.rest
        rwa [← hsum, add_sub_cancel_left] at hfit
      exact hF.add hx (hF.add hrest hlength hlifted) (hsum ▸ hfits.result)
    · rw [if_neg hneg] at hsum
      rw [if_neg (mt (hF.lt hrest hF.zero).mp hneg), ← hsum]
      exact hF.add hx hrest (hsum ▸ hfits.result)

/-- Bounds that leave no room make everything the lower one. -/
theorem wrap_reversed (hx : stands x lo) (hy : stands y hi) (hz : stands z v) (hspan : hi - lo + 1 ≤ 0)
    (hwidth : fits (hi - lo)) (hlength : fits (hi - lo + 1)) : wrap x y z = x := by
  have hout : ¬ (lo ≤ v ∧ v ≤ hi) := by
    rintro ⟨hlower, hupper⟩
    linarith
  rw [wrap_of_finite (hF.outside hx hy hz hout) (hF.isInfinite hx) (hF.isInfinite hy),
    if_pos ((hF.le (hF.span hx hy hwidth hlength) hF.zero).mpr hspan)]

theorem outside_least (hy : stands y hi) (hz : stands z v) (hout : hi < v) : Outside least y z := by
  rw [Outside, hF.isNan hz, hF.least_le hz, Bool.false_or, Bool.true_and, ← Bool.not_eq_true, hF.le hz hy]
  exact not_le.mpr hout

/-- Above a single upper bound a value is stepped down. -/
theorem wrap_above (hy : stands y hi) (hz : stands z v) (hout : hi < v) (hpos : 0 < hi + 1)
    (hfits : FitsAbove fits hi v) : stands (wrap least y z) (stepped hi v) := by
  have hstep := hF.add hy hF.one hfits.step
  have hceil := hF.ceil_div (hF.sub hz hy hfits.distance) hstep hfits.distance hfits.step (by linarith) hpos
  rw [wrap_of_upper (hF.outside_least hy hz hout) hF.infinite_least (hF.isInfinite hy)
    ((hF.lt hy hz).mpr hout), if_pos ((hF.lt hF.zero hstep).mpr hpos)]
  exact hF.sub hz (hF.mul hceil hstep hfits.multiple) hfits.result

/-- If there are no steps down, a value above a single upper bound saturates. -/
theorem wrap_above_negative (hy : stands y hi) (hz : stands z v) (hout : hi < v) (hneg : hi + 1 ≤ 0)
    (hstep : fits (hi + 1)) : wrap least y z = y := by
  rw [wrap_of_upper (hF.outside_least hy hz hout) hF.infinite_least (hF.isInfinite hy)
    ((hF.lt hy hz).mpr hout), if_neg (mt (hF.lt hF.zero (hF.add hy hF.one hstep)).mp (not_lt.mpr hneg))]

/-- Below a single lower bound a value saturates. -/
theorem wrap_below (hx : stands x lo) (hz : stands z v) (hout : v < lo) : wrap x greatest z = x := by
  have houtside : Outside x greatest z := by
    rw [Outside, hF.isNan hz, hF.le_greatest hz, Bool.false_or, Bool.and_true, ← Bool.not_eq_true,
      hF.le hx hz]
    exact not_le.mpr hout
  exact wrap_of_lower houtside hF.infinite_greatest (hF.not_greatest_lt hz)

end Rational

end Faithful

/-! ## Whole numbers -/

/-- What wrapping makes of a whole number; a bound may be missing. -/
def wrapped : Option ℤ → Option ℤ → ℤ → ℤ
  | some lo, some hi, v => if hi < lo then lo else lo + (v - lo) % (hi - lo + 1)
  | none, some hi, v => if v ≤ hi then v else if hi < 0 then hi else v % (hi + 1)
  | some lo, none, v => max lo v
  | none, none, v => v

/-- Inside of the bounds there are. -/
def Inside (lo hi : Option ℤ) (v : ℤ) : Prop := (∀ n ∈ lo, n ≤ v) ∧ ∀ n ∈ hi, v ≤ n

/-- Two bounds that leave no room. -/
def Reversed (lo hi : Option ℤ) : Prop := ∃ m n, lo = some m ∧ hi = some n ∧ n < m

section Whole

variable {lo hi : Option ℤ} {v : ℤ}

theorem wrapped_inside (h : ¬ Reversed lo hi) (v : ℤ) : Inside lo hi (wrapped lo hi v) := by
  cases lo with
  | none =>
      cases hi with
      | none => simp [Inside]
      | some hi =>
          refine ⟨by simp, ?_⟩
          rintro n ⟨⟩
          rw [wrapped]
          split
          · assumption
          · split
            · exact le_refl hi
            · have hmod := Int.emod_lt_of_pos v (show 0 < hi + 1 by omega)
              omega
  | some lo =>
      cases hi with
      | none => simp [Inside, wrapped]
      | some hi =>
          have hle : lo ≤ hi := by
            by_contra hlt
            exact h ⟨lo, hi, rfl, rfl, by omega⟩
          have hnonneg := Int.emod_nonneg (v - lo) (show hi - lo + 1 ≠ 0 by omega)
          have hmod := Int.emod_lt_of_pos (v - lo) (show 0 < hi - lo + 1 by omega)
          rw [wrapped, if_neg (not_lt.mpr hle)]
          constructor <;> rintro n ⟨⟩ <;> omega

theorem wrapped_of_inside (h : Inside lo hi v) : wrapped lo hi v = v := by
  cases lo with
  | none =>
      cases hi with
      | none => rfl
      | some hi => exact if_pos (h.2 hi rfl)
  | some lo =>
      have hlower : lo ≤ v := h.1 lo rfl
      cases hi with
      | none => exact max_eq_right hlower
      | some hi =>
          have hupper : v ≤ hi := h.2 hi rfl
          rw [wrapped, if_neg (by omega), Int.emod_eq_of_lt (by omega) (by omega)]
          omega

end Whole

section Cast

variable {lo hi v : ℤ}

theorem reduced_cast (hspan : 0 < hi - lo + 1) :
    reduced lo hi v = (lo + (v - lo) % (hi - lo + 1) : ℤ) := by
  have hmultiple : (v : ℚ) - ((v - lo) / (hi - lo + 1) : ℤ) * (hi - lo + 1)
      = (lo + (v - lo) % (hi - lo + 1) : ℤ) := by
    rw [Int.emod_def]
    push_cast
    ring
  have hnonneg := Int.emod_nonneg (v - lo) hspan.ne'
  have hlt := Int.emod_lt_of_pos (v - lo) hspan
  rw [← hmultiple]
  refine (eq_reduced ?_ ?_).symm <;> rw [hmultiple] <;> norm_cast <;> omega

theorem stepped_cast (hpos : 0 < hi + 1) : stepped hi v = (v % (hi + 1) : ℤ) := by
  have hpos' : (0 : ℚ) < hi + 1 := by exact_mod_cast hpos
  have hsplit := Int.emod_add_mul_ediv v (hi + 1)
  have hnonneg := Int.emod_nonneg v hpos.ne'
  have hlt := Int.emod_lt_of_pos v hpos
  have hceil : ⌈((v : ℚ) - hi) / (hi + 1)⌉ = v / (hi + 1) := by
    rw [Int.ceil_eq_iff, lt_div_iff₀ hpos', div_le_iff₀ hpos']
    constructor <;> norm_cast <;> nlinarith
  rw [stepped, hceil, Int.emod_def]
  push_cast
  ring

end Cast

/-- A scalar that stands for a bound, or for a missing one. -/
def Bound {α : Type} (stands : α → ℚ → Prop) (missing x : α) : Option ℤ → Prop
  | none => x = missing
  | some n => stands x n

/-- Bounds and a value of magnitudes below `M`. -/
structure Below (M : ℕ) (lo hi : Option ℤ) (v : ℤ) : Prop where
  lower : ∀ n ∈ lo, n.natAbs < M
  upper : ∀ n ∈ hi, n.natAbs < M
  value : v.natAbs < M

namespace Faithful

section Whole

variable {α : Type} [Scalar α] {stands : α → ℚ → Prop} {fits : ℚ → Prop} {least greatest : α}
variable {x y z : α} {M : ℕ} (hF : Faithful stands fits least greatest)

open Tape

include hF

/-- Values inside of the bounds are kept. -/
theorem wrap_of_inside_whole {lo hi : Option ℤ} {v : ℤ} (hx : Bound stands least x lo)
    (hy : Bound stands greatest y hi) (hz : stands z v) (hin : Inside lo hi v) : wrap x y z = z := by
  apply wrap_of_inside
  · cases lo with
    | none =>
        obtain rfl : x = least := hx
        exact hF.least_le hz
    | some lo => exact (hF.le hx hz).mpr (by exact_mod_cast hin.1 lo rfl)
  · cases hi with
    | none =>
        obtain rfl : y = greatest := hy
        exact hF.le_greatest hz
    | some hi => exact (hF.le hz hy).mpr (by exact_mod_cast hin.2 hi rfl)

variable (hfits : ∀ n : ℤ, n.natAbs < 2 * M → fits n)

include hfits

section Bounds

variable {lo hi v : ℤ}

theorem wrap_reversed_whole (hx : stands x lo) (hy : stands y hi) (hz : stands z v) (hM : Below M lo hi v)
    (h : hi < lo) : wrap x y z = x := by
  have hlo := hM.lower lo rfl
  have hhi := hM.upper hi rfl
  have hspan : hi - lo + 1 ≤ 0 := by omega
  refine hF.wrap_reversed hx hy hz (by exact_mod_cast hspan) ?_ ?_
  · exact_mod_cast hfits (hi - lo) (by omega)
  · exact_mod_cast hfits (hi - lo + 1) (by omega)

theorem wrap_between_whole (hx : stands x lo) (hy : stands y hi) (hz : stands z v) (hM : Below M lo hi v)
    (h : lo ≤ hi) : stands (wrap x y z) (lo + (v - lo) % (hi - lo + 1) : ℤ) := by
  have hlo := hM.lower lo rfl
  have hhi := hM.upper hi rfl
  have hv := hM.value
  have hspan : 0 < hi - lo + 1 := by omega
  have hnonneg := Int.emod_nonneg (v - lo) hspan.ne'
  have hlt := Int.emod_lt_of_pos (v - lo) hspan
  have hreduced := reduced_cast (v := v) hspan
  -- the modulus is not linear, so what is known of the residue has to do
  generalize (v - lo) % (hi - lo + 1) = r at hnonneg hlt hreduced ⊢
  rw [← hreduced]
  refine hF.wrap_between hx hy hz (by exact_mod_cast hspan) ⟨?_, ?_, ?_, ?_, ?_⟩
  · exact_mod_cast hfits (hi - lo) (by omega)
  · exact_mod_cast hfits (hi - lo + 1) (by omega)
  · exact_mod_cast hfits (v - lo) (by omega)
  · rw [hreduced]
    exact_mod_cast hfits (lo + r - lo) (by omega)
  · rw [hreduced]
    exact hfits (lo + r) (by omega)

theorem wrap_above_whole (hy : stands y hi) (hz : stands z v) (hM : Below M none hi v) (hout : hi < v)
    (hpos : 0 ≤ hi) : stands (wrap least y z) (v % (hi + 1) : ℤ) := by
  have hhi := hM.upper hi rfl
  have hv := hM.value
  have hspan : 0 < hi + 1 := by omega
  have hnonneg := Int.emod_nonneg v hspan.ne'
  have hlt := Int.emod_lt_of_pos v hspan
  have hstepped := stepped_cast (v := v) hspan
  have hmultiple : (⌈((v : ℚ) - hi) / (hi + 1)⌉ : ℚ) * (hi + 1) = (v - v % (hi + 1) : ℤ) := by
    rw [stepped] at hstepped
    push_cast at hstepped ⊢
    linarith
  generalize v % (hi + 1) = r at hnonneg hlt hstepped hmultiple ⊢
  rw [← hstepped]
  refine hF.wrap_above hy hz (by exact_mod_cast hout) (by exact_mod_cast hspan) ⟨?_, ?_, ?_, ?_⟩
  · exact_mod_cast hfits (hi + 1) (by omega)
  · exact_mod_cast hfits (v - hi) (by omega)
  · rw [hmultiple]
    exact hfits (v - r) (by omega)
  · rw [hstepped]
    exact hfits r (by omega)

theorem wrap_above_negative_whole (hy : stands y hi) (hz : stands z v) (hM : Below M none hi v)
    (hout : hi < v) (hneg : hi < 0) : wrap least y z = y := by
  have hhi := hM.upper hi rfl
  have hstep : hi + 1 ≤ 0 := hneg
  refine hF.wrap_above_negative hy hz (by exact_mod_cast hout) (by exact_mod_cast hstep) ?_
  exact_mod_cast hfits (hi + 1) (by omega)

end Bounds

variable {lo hi : Option ℤ} {v : ℤ} (hx : Bound stands least x lo) (hy : Bound stands greatest y hi)

include hx hy

/-- Scalars that stand for whole numbers are wrapped as whole numbers are. -/
theorem wrap_stands (hz : stands z v) (hM : Below M lo hi v) : stands (wrap x y z) (wrapped lo hi v) := by
  by_cases hin : Inside lo hi v
  · rw [hF.wrap_of_inside_whole hx hy hz hin, wrapped_of_inside hin]
    exact hz
  · cases lo with
    | none =>
        obtain rfl : x = least := hx
        cases hi with
        | none => exact absurd ⟨by simp, by simp⟩ hin
        | some hi =>
            have hout : hi < v := by
              by_contra hle
              exact hin ⟨by simp, by simpa using hle⟩
            rw [wrapped, if_neg (not_le.mpr hout)]
            by_cases hneg : hi < 0
            · rw [if_pos hneg, hF.wrap_above_negative_whole hfits hy hz hM hout hneg]
              exact hy
            · rw [if_neg hneg]
              exact hF.wrap_above_whole hfits hy hz hM hout (not_lt.mp hneg)
    | some lo =>
        cases hi with
        | none =>
            obtain rfl : y = greatest := hy
            have hout : v < lo := by
              by_contra hle
              exact hin ⟨by simpa using hle, by simp⟩
            rw [wrapped, hF.wrap_below hx hz (by exact_mod_cast hout), max_eq_left hout.le]
            exact hx
        | some hi =>
            rw [wrapped]
            by_cases hlt : hi < lo
            · rw [if_pos hlt, hF.wrap_reversed_whole hfits hx hy hz hM hlt]
              exact hx
            · rw [if_neg hlt]
              exact hF.wrap_between_whole hfits hx hy hz hM (not_lt.mp hlt)

/-- What was wrapped once is kept. -/
theorem wrap_wrap (hz : stands z v) (hM : Below M lo hi v) :
    wrap x y (wrap x y z) = wrap x y z := by
  -- what comes out is inside of the bounds, unless these leave no room: then it is the lower one again
  by_cases h : Reversed lo hi
  · obtain ⟨lo, hi, rfl, rfl, hlt⟩ := h
    have hM' : Below M lo hi lo := ⟨hM.lower, hM.upper, hM.lower lo rfl⟩
    rw [hF.wrap_reversed_whole hfits hx hy hz hM hlt, hF.wrap_reversed_whole hfits hx hy hx hM' hlt]
  · exact hF.wrap_of_inside_whole hx hy (hF.wrap_stands hfits hx hy hz hM) (wrapped_inside h v)

end Whole

end Faithful

/-! ## Wrapping is reduction -/

/-- A number from `lo` to `hi` that is congruent to `v` modulo the length of this range. -/
def Residue (lo hi v r : ℤ) : Prop := lo ≤ r ∧ r ≤ hi ∧ r ≡ v [ZMOD hi - lo + 1]

/-- The result is the one residue that there is. -/
def OnlyResidue (lo hi v : ℤ) (x : Exact) : Prop :=
  ∃ r : ℤ, x = .finite r ∧ Residue lo hi v r ∧ ∀ s, Residue lo hi v s → s = r

theorem Residue.eq {lo hi v r s : ℤ} (hr : Residue lo hi v r) (hs : Residue lo hi v s) : s = r := by
  obtain ⟨hlower, hupper, hmod⟩ := hr
  obtain ⟨hlower', hupper', hmod'⟩ := hs
  have hdvd := (hmod.trans hmod'.symm).dvd
  have hzero := Int.eq_zero_of_abs_lt_dvd hdvd (by rw [abs_lt]; omega)
  omega

theorem residue_wrapped {lo hi : ℤ} (h : lo ≤ hi) (v : ℤ) :
    Residue lo hi v (wrapped (some lo) (some hi) v) := by
  have hreversed : ¬ Reversed (some lo) (some hi) := by
    rintro ⟨m, n, ⟨⟩, ⟨⟩, hlt⟩
    exact absurd hlt (not_lt.mpr h)
  obtain ⟨hlower, hupper⟩ := wrapped_inside hreversed v
  refine ⟨hlower lo rfl, hupper hi rfl, ?_⟩
  rw [wrapped, if_neg (not_lt.mpr h)]
  have hmod := (Int.mod_modEq (v - lo) (hi - lo + 1)).add_left lo
  rwa [add_sub_cancel] at hmod

theorem residue_wrapped_above {hi v : ℤ} (hpos : 0 ≤ hi) (hout : hi < v) :
    Residue 0 hi v (wrapped none (some hi) v) := by
  rw [wrapped, if_neg (not_le.mpr hout), if_neg (not_lt.mpr hpos)]
  have hlt := Int.emod_lt_of_pos v (show 0 < hi + 1 by omega)
  refine ⟨Int.emod_nonneg v (by omega), by omega, ?_⟩
  rw [sub_zero]
  exact Int.mod_modEq v (hi + 1)

namespace Exact

/-- A lower bound, or none. -/
def lower : Option ℤ → Exact
  | none => .infinite true
  | some n => .finite n

/-- An upper bound, or none. -/
def upper : Option ℤ → Exact
  | none => .infinite false
  | some n => .finite n

theorem bound_lower (lo : Option ℤ) :
    Bound (fun (x : Exact) q => x = .finite q) (.infinite true) (lower lo) lo := by
  cases lo <;> rfl

theorem bound_upper (hi : Option ℤ) :
    Bound (fun (x : Exact) q => x = .finite q) (.infinite false) (upper hi) hi := by
  cases hi <;> rfl

end Exact

theorem exists_below (lo hi : Option ℤ) (v : ℤ) : ∃ M, Below M lo hi v := by
  refine ⟨(lo.getD 0).natAbs + (hi.getD 0).natAbs + v.natAbs + 1, ?_, ?_, by omega⟩
  · rintro n ⟨⟩
    simp only [Option.getD_some]
    omega
  · rintro n ⟨⟩
    simp only [Option.getD_some]
    omega

namespace Number

variable {x : Number} {lo hi : Option ℤ}

theorem eq_infinite {negative : Bool} (h : x.exact = .infinite negative) : x = .infinite negative := by
  cases x with
  | nan => cases h
  | infinite m => rwa [exact, Exact.infinite.injEq, ← Number.infinite.injEq] at h
  | finite f => cases h

theorem bound_lower (h : x.exact = Exact.lower lo) :
    Bound (fun (x : Number) q => x.exact = .finite q) (.infinite true) x lo := by
  cases lo with
  | none => exact eq_infinite h
  | some n => exact h

theorem bound_upper (h : x.exact = Exact.upper hi) :
    Bound (fun (x : Number) q => x.exact = .finite q) (.infinite false) x hi := by
  cases hi with
  | none => exact eq_infinite h
  | some n => exact h

end Number

theorem exact_wrap (lo hi : Option ℤ) (v : ℤ) :
    Tape.wrap (Exact.lower lo) (Exact.upper hi) (.finite v) = .finite (wrapped lo hi v) := by
  obtain ⟨M, hM⟩ := exists_below lo hi v
  exact Exact.faithful.wrap_stands (fun _ _ => trivial) (Exact.bound_lower lo) (Exact.bound_upper hi) rfl hM

/-- Wrapping reduces whole numbers. Between two bounds it gives the one residue there is in the range, and
above a single upper bound the one from zero on; it saturates at a lower bound, at a negative upper bound
and between bounds that leave no room. Values inside of the bounds are kept, so that wrapping twice is
wrapping once. Binary64 numbers below 2⁵² are wrapped exactly so. -/
theorem wrap_reduces (v : ℤ) :
    (∀ lo hi : ℤ, lo ≤ hi → OnlyResidue lo hi v (Tape.wrap (.finite lo) (.finite hi) (.finite v))) ∧
      (∀ hi : ℤ, 0 ≤ hi → hi < v →
        OnlyResidue 0 hi v (Tape.wrap (.infinite true) (.finite hi) (.finite v))) ∧
      (∀ hi : ℤ, hi < 0 → hi < v →
        Tape.wrap (.infinite true) (.finite hi) (.finite v) = Exact.finite hi) ∧
      (∀ lo : ℤ, v < lo → Tape.wrap (.finite lo) (.infinite false) (.finite v) = Exact.finite lo) ∧
      (∀ lo hi : ℤ, hi < lo → Tape.wrap (.finite lo) (.finite hi) (.finite v) = Exact.finite lo) ∧
      (∀ lo hi : Option ℤ, Inside lo hi v →
        Tape.wrap (Exact.lower lo) (Exact.upper hi) (.finite v) = .finite v) ∧
      (∀ lo hi : Option ℤ,
        Tape.wrap (Exact.lower lo) (Exact.upper hi) (Tape.wrap (Exact.lower lo) (Exact.upper hi) (.finite v))
          = Tape.wrap (Exact.lower lo) (Exact.upper hi) (.finite v)) ∧
      ∀ (lo hi : Option ℤ) (x y z : Number), Below 4503599627370496 lo hi v → x.exact = Exact.lower lo →
        y.exact = Exact.upper hi → z.exact = .finite v →
        (Tape.wrap x y z).exact = Tape.wrap x.exact y.exact z.exact ∧
          Tape.wrap x y (Tape.wrap x y z) = Tape.wrap x y z := by
  refine ⟨fun lo hi hle => ?_, fun hi hpos hout => ?_, fun hi hneg hout => ?_, fun lo hout => ?_,
    fun lo hi hlt => ?_, fun lo hi hin => ?_, fun lo hi => ?_, fun lo hi x y z hM hx hy hz => ?_⟩
  · exact ⟨_, exact_wrap (some lo) (some hi) v, residue_wrapped hle v, fun _ => (residue_wrapped hle v).eq⟩
  · have hresidue := residue_wrapped_above hpos hout
    exact ⟨_, exact_wrap none (some hi) v, hresidue, fun _ => hresidue.eq⟩
  · have hwrap := exact_wrap none (some hi) v
    rwa [wrapped, if_neg (not_le.mpr hout), if_pos hneg] at hwrap
  · have hwrap := exact_wrap (some lo) none v
    rwa [wrapped, max_eq_left hout.le] at hwrap
  · have hwrap := exact_wrap (some lo) (some hi) v
    rwa [wrapped, if_pos hlt] at hwrap
  · rw [exact_wrap, wrapped_of_inside hin]
  · obtain ⟨M, hM⟩ := exists_below lo hi v
    exact Exact.faithful.wrap_wrap (fun _ _ => trivial) (Exact.bound_lower lo) (Exact.bound_upper hi) rfl hM
  · have hfits : ∀ n : ℤ, n.natAbs < 2 * 4503599627370496 → Number.Fits n := fun n hn => ⟨n, rfl, hn⟩
    have hlower := Number.bound_lower hx
    have hupper := Number.bound_upper hy
    refine ⟨?_, Number.faithful.wrap_wrap hfits hlower hupper hz hM⟩
    rw [hx, hy, hz, exact_wrap]
    exact Number.faithful.wrap_stands hfits hlower hupper hz hM

/-- A value far below the range goes to the residue at its upper end. -/
theorem farBelow_reduces :
    OnlyResidue 5 9 (-21) (.finite 9) ∧ (Tape.wrap 5 9 (.ofInt (-21)) : Number) = 9 ∧
      Tape.wrap (Number.exact 5) (Number.exact 9) (Number.exact (.ofInt (-21))) = Exact.finite 9 := by
  obtain ⟨hbetween, -, -, -, -, -, -, hnumbers⟩ := wrap_reduces (-21)
  have hresult : Tape.wrap (.finite 5) (.finite 9) (.finite (-21)) = Exact.finite 9 := by decide +kernel
  have hreduces := hbetween 5 9 (by decide)
  have hbelow : Below 4503599627370496 (some 5) (some 9) (-21) := ⟨by simp, by simp, by decide⟩
  have hexact := hnumbers (some 5) (some 9) 5 9 (.ofInt (-21)) hbelow (by decide +kernel) (by decide +kernel)
    (by decide +kernel)
  have hwrapped : (Tape.wrap 5 9 (.ofInt (-21)) : Number) = 9 := by decide +kernel
  have hnine : Number.exact 9 = .finite 9 := by decide +kernel
  refine ⟨?_, hwrapped, ?_⟩
  · rw [← hresult]
    exact_mod_cast hreduces
  · rw [← hexact.1, hwrapped, hnine]

end Linewise
