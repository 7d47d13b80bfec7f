import Mathlib.Data.List.Induction
import Linewise.Proofs.NumeralGrammar
import Linewise.Proofs.Utf8

/-!
# What numerals give

Exactly the numerals are read, and each gives the number that it writes (`read_numerals`): a decimal is rounded
to the nearest number, or it is out of range. For that its exponent is not always taken in full, since digits
after its value has reached ten thousand do not count (`DecimalNumeral.counted`). Exponents below a hundred
thousand count in full (`counted_eq_written`). Beyond these a decimal with as many digits as the exponent takes
away again can be read as another number altogether (`Number.read_vanishing`).
-/

namespace Linewise

namespace Number

/-! ## What numerals give -/

theorem two_pow_lt_overflow : (2 : ℚ) ^ 64 < overflow := by
  obtain ⟨m, hm⟩ : ∃ m, m = 970 := ⟨970, rfl⟩
  have hoverflow : overflow = 2 ^ (m + 54) - 2 ^ m := by rw [hm, overflow]
  have hpower : (2 : ℚ) ^ 64 ≤ 2 ^ m := pow_le_pow_right₀ one_le_two (by omega)
  have hpos : (0 : ℚ) < 2 ^ m := by positivity
  rw [hoverflow, pow_add]
  linarith

theorem ofNat_isNearest {n : Nat} (h : n < 2 ^ 64) : IsNearest n (ofNat n) := by
  have hrounding : IsRounding false (n : ℚ) (ofNat n) := by
    refine round_isRounding Nat.one_pos (Nat.cast_nonneg n) ?_
    rw [Nat.cast_mul, Nat.cast_one, one_mul]
  have hlt : (n : ℚ) < 2 ^ 64 := by exact_mod_cast h
  have hnearest := hrounding.nearest (hlt.trans two_pow_lt_overflow)
  rwa [sign, if_neg Bool.false_ne_true, Int.cast_one, one_mul] at hnearest

theorem digitValue?_ten {b : UInt8} (h : isDigit b = true) : (digitValue? 10 b).getD 0 = b.toNat - 48 := by
  have hle : b.toNat ≤ 57 := (between_iff.mp h).2
  unfold digitValue?
  dsimp only
  rw [if_pos h, if_pos (by omega)]
  rfl

theorem digitsValue_concat (base : Nat) (s : Text) (b : UInt8) :
    digitsValue base (s ++ [b]) = digitsValue base s * base + (digitValue? base b).getD 0 :=
  List.foldl_append

theorem digitsValue_append (base : Nat) (s t : Text) :
    digitsValue base (s ++ t) = digitsValue base s * Nat.pow base t.length + digitsValue base t := by
  induction t using List.reverseRecOn with
  | nil =>
      rw [List.append_nil]
      exact (Nat.mul_one _).symm
  | append_singleton t b ih =>
      have hpow : Nat.pow base (t ++ [b]).length = Nat.pow base t.length * base := by
        rw [List.length_append]
        exact Nat.pow_succ base t.length
      rw [← List.append_assoc, digitsValue_concat, digitsValue_concat, ih, hpow]
      ring

theorem digitsValue_replicate_zero (base n : Nat) (h : 0 < base) : digitsValue base (List.replicate n 48) = 0 := by
  have hzero : (digitValue? base 48).getD 0 = 0 := by
    have hvalue : digitValue? base 48 = some 0 := if_pos h
    rw [hvalue]
    rfl
  induction n with
  | zero => rfl
  | succ n ih => rw [List.replicate_succ', digitsValue_concat, ih, hzero, Nat.zero_mul]

/-- Zeros at the front do not count. -/
theorem digitsValue_zeros_append (n : Nat) (s : Text) :
    digitsValue 10 (List.replicate n 48 ++ s) = digitsValue 10 s := by
  rw [digitsValue_append, digitsValue_replicate_zero 10 n (by decide), Nat.zero_mul, Nat.zero_add]

theorem digitsValue_append_zeros (s : Text) (n : Nat) :
    digitsValue 10 (s ++ List.replicate n 48) = digitsValue 10 s * Nat.pow 10 n := by
  rw [digitsValue_append, digitsValue_replicate_zero 10 n (by decide), List.length_replicate, Nat.add_zero]

/-- An exponent below a hundred thousand counts in full, since its value is below ten thousand before the last
digit. -/
theorem exponentValue_eq (digits : Text) : (∀ b ∈ digits, isDigitOf 10 b = true) →
    digitsValue 10 digits < 100000 → exponentValue digits = digitsValue 10 digits := by
  induction digits using List.reverseRecOn with
  | nil => exact fun _ _ => rfl
  | append_singleton front b ih =>
      intro hdigits hlt
      have hdigit : isDigit b = true := isDigitOf_ten b ▸ hdigits b (by simp)
      have hvalue := digitsValue_concat 10 front b
      rw [digitValue?_ten hdigit] at hvalue
      have hfront := ih (fun c hc => hdigits c (List.mem_append_left _ hc)) (by omega)
      have hcount : exponentValue (front ++ [b]) =
          if exponentValue front < 10000 then exponentValue front * 10 + (b.toNat - 48)
          else exponentValue front := List.foldl_append
      rw [hcount, hfront, if_pos (by omega), hvalue]

theorem counted_eq_written {n : DecimalNumeral} (h : n.power < 100000) : n.counted = n.written := by
  rw [DecimalNumeral.power] at h
  rw [DecimalNumeral.counted, DecimalNumeral.written]
  cases hexponent : n.exponent with
  | none => rfl
  | some e =>
      rw [hexponent] at h
      have hcounted : e.counted = e.written := by
        rw [ExponentPart.counted, ExponentPart.written, exponentValue_eq _ e.digits.all h, Digits.value]
      rw [Option.elim_some, Option.elim_some, hcounted]

theorem readTrimmed_gives (m : Numeral) : readTrimmed m.text ≠ .nan ∧ m.Gives (readTrimmed m.text) := by
  cases m with
  | blank =>
      have hread : readTrimmed [] = 0 := by rw [readTrimmed, if_pos rfl]
      rw [Numeral.text, hread]
      exact ⟨ofNat_ne_nan 0, rfl⟩
  | infinity sign =>
      rw [Numeral.text, readTrimmed_infinity]
      exact ⟨(fun h => by cases h), rfl⟩
  | prefixed p =>
      rw [Numeral.text, readTrimmed_prefixed]
      exact ⟨ofNat_ne_nan _, ofNat_isNearest p.value_lt⟩
  | decimal n =>
      rw [Numeral.text, readTrimmed_decimal]
      have hrounding := n.counted.toNumber_rounding n.sign.negative
      refine ⟨toNumber_ne_nan _ _, hrounding, fun hpower => ?_⟩
      rw [counted_eq_written hpower] at hrounding ⊢
      exact hrounding

/-- Exactly the numerals are read, blanks around them apart, and what is read is what they write. -/
theorem read_numerals (s : Text) :
    (read s ≠ .nan ↔ ∃ m : Numeral, s.trim = m.text) ∧
      ∀ m : Numeral, s.trim = m.text → m.Gives (read s) := by
  rw [read]
  refine ⟨⟨exists_of_readTrimmed, ?_⟩, ?_⟩
  · rintro ⟨m, hm⟩
    rw [hm]
    exact (readTrimmed_gives m).1
  · intro m hm
    rw [hm]
    exact (readTrimmed_gives m).2

theorem read_hexadecimal_and_scientific :
    IsNearest (31 : ℕ) (read (Text.ofString " 0x1F ")) ∧
      IsRounding true (Decimal.value ⟨15, 2⟩) (read (Text.ofString "-1.5e+03")) := by
  refine ⟨?_, ?_⟩
  · exact (read_numerals (Text.ofString " 0x1F ")).2
      (.prefixed ⟨.hexadecimal, false, ⟨Text.ofString "1F", List.all_eq_true.mp rfl⟩, nofun, by decide⟩)
      (by decide)
  · exact ((read_numerals (Text.ofString "-1.5e+03")).2
      (.decimal ⟨.minus, ⟨Text.ofString "1", List.all_eq_true.mp rfl⟩,
        some ⟨Text.ofString "5", List.all_eq_true.mp rfl⟩,
        some ⟨false, .plus, ⟨Text.ofString "03", List.all_eq_true.mp rfl⟩, nofun⟩, nofun⟩)
      (by decide)).2 (by decide)

/-! ## Blanks around numerals -/

/-- Visible bytes are characters of their own, and no blanks. -/
theorem runes_visible (s : Text) : (∀ b ∈ s, 32 < b.toNat ∧ b.toNat < 128) →
    ∀ r ∈ s.runes, r.isBlank = false := by
  induction s with
  | nil => exact fun _ => nofun
  | cons b rest ih =>
      intro hs r hr
      obtain ⟨hlow, hhigh⟩ := hs b List.mem_cons_self
      rw [Text.runes_cons_ascii (UInt8.lt_iff_toNat_lt.mpr hhigh)] at hr
      rcases List.mem_cons.mp hr with rfl | hr
      · have hcode : (Char.ofNat b.toNat).toNat = b.toNat := Rune.toNat_val_ofNat (by
          left
          omega)
        rw [Rune.isBlank, hcode]
        simp only [Bool.or_eq_false_iff, Bool.and_eq_false_iff, decide_eq_false_iff_not]
        omega
      · exact ih (fun c hc => hs c (List.mem_cons_of_mem _ hc)) r hr

theorem dropWhile_isBlank {rs : List Rune} (h : ∀ r ∈ rs, r.isBlank = false) :
    rs.dropWhile Rune.isBlank = rs := by
  cases rs with
  | nil => rfl
  | cons r rest => exact List.dropWhile_cons_of_neg (Bool.eq_false_iff.mp (h r List.mem_cons_self))

theorem trim_visible {s : Text} (hs : ∀ b ∈ s, 32 < b.toNat ∧ b.toNat < 128) : s.trim = s := by
  have hrunes := runes_visible s hs
  rw [Text.trim, dropWhile_isBlank hrunes, dropWhile_isBlank fun r hr => hrunes r (List.mem_reverse.mp hr),
    List.reverse_reverse, Text.flatten_runes]

theorem IsNumeralByte.visible {b : UInt8} (h : IsNumeralByte b) : 32 < b.toNat ∧ b.toNat < 128 := by
  rcases h with hdigit | hmem
  · obtain ⟨hlow, hhigh⟩ := between_iff.mp hdigit
    have hlow : 48 ≤ b.toNat := hlow
    have hhigh : b.toNat ≤ 57 := hhigh
    omega
  · simp only [List.mem_cons, List.not_mem_nil, or_false] at hmem
    rcases hmem with rfl | rfl | rfl | rfl | rfl <;> decide

theorem trim_decimal (n : DecimalNumeral) : n.text.trim = n.text :=
  trim_visible fun _ hb => (n.isNumeralByte hb).visible

theorem read_decimal (n : DecimalNumeral) : read n.text = n.counted.toNumber n.sign.negative := by
  rw [read, trim_decimal, readTrimmed_decimal]

end Number

/-! ## An exponent that does not count in full -/

theorem Decimal.value_power (n : ℕ) (e : ℤ) : value ⟨Nat.pow 10 n, e⟩ = 10 ^ (n + e) := by
  rw [value, cast_pow_ten, ← zpow_natCast, ← zpow_add₀ (by norm_num)]

namespace DecimalNumeral

/-- One with zeros after it, times ten to the power of minus a hundred thousand. -/
def vanishing (zeros : Nat) : DecimalNumeral where
  sign := .unwritten
  whole := ⟨49 :: List.replicate zeros 48, by
    intro b hb
    rcases List.mem_cons.mp hb with rfl | hb
    · rfl
    · rw [List.eq_of_mem_replicate hb]
      rfl⟩
  fraction := none
  exponent := some ⟨false, .minus, ⟨[49, 48, 48, 48, 48, 48], List.all_eq_true.mp rfl⟩, nofun⟩
  nonempty := List.cons_ne_nil _ _

theorem scaled_vanishing (zeros : Nat) (e : ℤ) : (vanishing zeros).scaled e = ⟨Nat.pow 10 zeros, e⟩ := by
  have hone : Number.digitsValue 10 [49] = 1 := rfl
  have hdigits : (vanishing zeros).whole.text ++ (vanishing zeros).places = [49] ++ List.replicate zeros 48 :=
    List.append_nil _
  have hplaces : e - ((vanishing zeros).places.length : ℤ) = e := Int.sub_zero e
  rw [scaled, hdigits, Number.digitsValue_append_zeros, hone, Nat.one_mul, hplaces]

/-- The zeros make up for the exponent as far as it counts, but not for all of it. -/
theorem values_vanishing (zeros : Nat) :
    (vanishing zeros).counted.value = 10 ^ (zeros + (-10000 : ℤ)) ∧
      (vanishing zeros).written.value = 10 ^ (zeros + (-100000 : ℤ)) := by
  rw [counted, written, scaled_vanishing, scaled_vanishing, Decimal.value_power, Decimal.value_power]
  exact ⟨rfl, rfl⟩

end DecimalNumeral

namespace Number

/-- A decimal far below the smallest positive number is read as one. -/
theorem read_vanishing : (DecimalNumeral.vanishing 10000).text.trim = (DecimalNumeral.vanishing 10000).text ∧
    (DecimalNumeral.vanishing 10000).written.value ≤ underflow ∧
      read (DecimalNumeral.vanishing 10000).text = 1 ∧ isZero 1 = false ∧ isInfinite 1 = false := by
  obtain ⟨hcounted, hwritten⟩ := DecimalNumeral.values_vanishing 10000
  refine ⟨trim_decimal _, ?_, ?_, by decide +kernel, by decide +kernel⟩
  · -- the exponents are kept out of sight, so that nothing tries to compute the powers
    obtain ⟨k, hk⟩ : ∃ k, k = 1075 := ⟨1075, rfl⟩
    obtain ⟨n, hn⟩ : ∃ n, n = 90000 := ⟨90000, rfl⟩
    have hexponent : ((10000 : ℕ) : ℤ) + -100000 = -(n : ℤ) := by omega
    have hpower : (2 : ℚ) ^ k ≤ 10 ^ n := by
      rw [← cast_pow_two, ← cast_pow_ten]
      exact Nat.cast_le.mpr (pow_two_le_pow_ten (by omega))
    rw [hwritten, hexponent, zpow_neg, zpow_natCast, underflow, ← hk]
    exact inv_anti₀ (pow_pos two_pos k) hpower
  · have hone : (DecimalNumeral.vanishing 10000).counted.value = Decimal.value ⟨1, 0⟩ := by
      rw [hcounted]
      simp [Decimal.value]
    rw [read_decimal, Decimal.toNumber_congr hone]
    decide +kernel

end Number

end Linewise
