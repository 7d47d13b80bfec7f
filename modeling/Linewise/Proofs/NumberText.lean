import Linewise.Machine.Command
import Linewise.Proofs.NumeralValue

/-!
# Numbers read back from their texts

The shortest decimal of a number is found by trying, so it reads back (`Finite.toNumber_shortest`). Written in
positional form (`Decimal.exists_positional`) or in exponent form (`Decimal.exists_scientific`) it is a numeral
of the same value, which no filter of the reader takes for something else. In exponent form that needs an
exponent other than zero, since zeros at its front are dropped; but a number with the exponent zero is between
one and ten and not written so (`Decimal.magnitude_ne_zero`). Hence every number reads back from its text, but
for negative zero, which is written without its sign (`Number.read_text`).
-/

namespace Linewise

/-! ## The shortest decimal -/

namespace Decimal

/-- Zeros at the end of a coefficient are worth as much in the exponent. -/
theorem value_stripZeros (fuel : Nat) (d : Decimal) : (d.stripZeros fuel).value = d.value := by
  induction fuel generalizing d with
  | zero => rfl
  | succ fuel ih =>
      rw [stripZeros]
      split
      · rename_i hzero
        have hcoefficient : (d.coefficient : ℚ) = (d.coefficient / 10 : ℕ) * 10 := by
          exact_mod_cast (Nat.div_mul_cancel (Nat.dvd_of_mod_eq_zero hzero.2)).symm
        rw [ih, value, value, hcoefficient, zpow_add_one₀ (by norm_num)]
        ring
      · rfl

end Decimal

namespace Finite

theorem toNumber_exact (x : Finite) : x.exact.toNumber x.negative = .finite x := by
  obtain ⟨k, hk, hunit⟩ := exists_unitsPerOne_eq
  have hexact : x.exact = ⟨x.units * Nat.pow 5 k, -(k : ℤ)⟩ := by
    rw [hk]
    rfl
  have hunits : x.exact.units = x.units * x.exact.divisor := by
    have hfactor : Nat.pow 10 (-(k : ℤ)).toNat = 1 := by
      rw [Int.toNat_eq_zero.mpr (by omega)]
    have hdivisor : Nat.pow 10 (- -(k : ℤ)).toNat = Nat.pow 5 k * Nat.pow 2 k := by
      rw [Int.neg_neg, Int.toNat_natCast]
      exact Nat.mul_pow 5 2 k
    rw [hexact, Decimal.units, Decimal.divisor, hfactor, hdivisor, hunit, Nat.mul_one, Nat.mul_assoc]
  rw [Decimal.toNumber_eq_round, hunits, Number.round_units x (Decimal.divisor_pos _)]

/-- Whatever the search finds reads back. -/
theorem toNumber_search (x : Finite) (fuel count : Nat) :
    (x.search fuel count).toNumber x.negative = .finite x := by
  induction fuel generalizing count with
  | zero => exact x.toNumber_exact
  | succ fuel ih =>
      rw [search]
      split
      · rename_i d hfind
        have hreads := List.find?_some hfind
        rw [reads, decide_eq_true_iff] at hreads
        rw [Decimal.toNumber_congr (d.value_stripZeros 20), hreads]
      · exact ih (count + 1)

theorem toNumber_shortest {x : Finite} (hx : x.isZero = false) :
    x.shortest.toNumber x.negative = .finite x := by
  rw [shortest, hx, if_neg Bool.false_ne_true, toNumber_search]

end Finite

namespace Decimal

section

variable {d : Decimal} {x : Finite} (hx : x.isZero = false) (h : d.toNumber x.negative = .finite x)
include hx h

theorem coefficient_ne_zero : d.coefficient ≠ 0 := by
  intro hzero
  unfold toNumber Number.ofDecimal at h
  rw [if_pos hzero] at h
  rw [← Number.finite.inj h] at hx
  exact Bool.false_ne_true hx.symm

/-- The decimal of a finite number other than zero is not out of range. -/
theorem magnitude_lt : d.magnitude.natAbs < 100000 := by
  have hcoefficient := coefficient_ne_zero hx h
  have hdigits : d.digits = Nat.toDigits 10 d.coefficient := rfl
  unfold toNumber Number.ofDecimal at h
  rw [if_neg hcoefficient, ← hdigits] at h
  dsimp only at h
  split at h
  · cases h
  · split at h
    · rw [← Number.finite.inj h] at hx
      exact absurd hx.symm Bool.false_ne_true
    · rw [magnitude]
      omega

end

end Decimal

/-! ## Texts of digits -/

namespace Number

theorem toNat_digit {c : Char} (h : c.isDigit = true) :
    c.toNat.toUInt8.toNat = c.toNat ∧ isDigit c.toNat.toUInt8 = true := by
  have h : 48 ≤ c.toNat ∧ c.toNat ≤ 57 := Char.isDigit_iff_toNat.mp h
  have hnat : c.toNat.toUInt8.toNat = c.toNat := by
    rw [UInt8.toNat_ofNat']
    omega
  refine ⟨hnat, between_iff.mpr ?_⟩
  rw [hnat]
  exact h

theorem isDigitOf_ofNat (n : Nat) : ∀ b ∈ Text.ofNat n, isDigitOf 10 b = true := by
  intro b hb
  obtain ⟨c, hc, rfl⟩ := List.mem_map.mp hb
  rw [isDigitOf_ten]
  exact (toNat_digit (Nat.isDigit_of_mem_toDigits (by decide) (by decide) hc)).2

theorem digitsValue_ofNat (n : Nat) : digitsValue 10 (Text.ofNat n) = n := by
  have hfold : digitsValue 10 (Text.ofNat n) = Nat.ofDigitChars 10 (Nat.toDigits 10 n) 0 := by
    rw [digitsValue, Text.ofNat, List.foldl_map]
    refine List.foldl_ext _ _ 0 fun sofar c hc => ?_
    obtain ⟨hnat, hdigit⟩ := toNat_digit (Nat.isDigit_of_mem_toDigits (by decide) (by decide) hc)
    rw [digitValue?_ten hdigit, hnat, Nat.mul_comm]
    rfl
  rw [hfold, Nat.ofDigitChars_toDigits (by decide) (by decide)]

theorem digitsValue_dropWhile (s : Text) : digitsValue 10 (s.dropWhile (· = 48)) = digitsValue 10 s := by
  induction s with
  | nil => rfl
  | cons b rest ih =>
      rw [List.dropWhile_cons]
      split
      · rename_i hzero
        rw [ih, of_decide_eq_true hzero]
        rfl
      · rfl

end Number

/-! ## Both forms are numerals -/

namespace Digits

/-- The digits of a number. -/
def ofNat (n : Nat) : Digits 10 := ⟨Text.ofNat n, Number.isDigitOf_ofNat n⟩

def zeros (n : Nat) : Digits 10 := ⟨List.replicate n 48, fun _ hb => List.eq_of_mem_replicate hb ▸ rfl⟩

def append (s t : Digits 10) : Digits 10 := ⟨s.text ++ t.text, List.forall_mem_append.mpr ⟨s.all, t.all⟩⟩

def take (s : Digits 10) (n : Nat) : Digits 10 := ⟨s.text.take n, fun b hb => s.all b (List.mem_of_mem_take hb)⟩

def drop (s : Digits 10) (n : Nat) : Digits 10 := ⟨s.text.drop n, fun b hb => s.all b (List.mem_of_mem_drop hb)⟩

def dropZeros (s : Digits 10) : Digits 10 :=
  ⟨s.text.dropWhile (· = 48), fun b hb => s.all b ((List.dropWhile_sublist _).subset hb)⟩

end Digits

theorem Text.ofNat_ne_nil (n : Nat) : Text.ofNat n ≠ [] := by
  rw [Text.ofNat, Ne, List.map_eq_nil_iff]
  exact Nat.toDigits_ne_nil

namespace Decimal

/-- Digits on both sides of a point. -/
theorem exists_pointed (sign : Sign) (whole fraction : Digits 10) {c e : Nat}
    (hvalue : Number.digitsValue 10 (whole.text ++ fraction.text) = c) (hlength : fraction.text.length = e + 1) :
    ∃ n : DecimalNumeral, n.sign = sign ∧ n.magnitude = whole.text ++ 46 :: fraction.text ∧
      n.counted = ⟨c, .negSucc e⟩ := by
  refine ⟨⟨sign, whole, some fraction, none, ?_⟩, rfl, ?_, ?_⟩
  · intro h
    have hfraction : fraction.text = [] := (List.append_eq_nil_iff.mp h).2
    rw [hfraction] at hlength
    exact absurd hlength.symm (Nat.succ_ne_zero e)
  · exact congrArg _ (List.append_nil _)
  · have hexponent : (0 : ℤ) - (e + 1 : ℕ) = Int.negSucc e := by omega
    show Decimal.mk (Number.digitsValue 10 (whole.text ++ fraction.text)) (0 - (fraction.text.length : ℤ)) = _
    rw [hvalue, hlength, hexponent]

/-- The positional form is a numeral for the decimal. -/
theorem exists_positional (d : Decimal) (sign : Sign) :
    ∃ n : DecimalNumeral, n.sign = sign ∧ n.magnitude = d.positional ∧ n.counted.value = d.value := by
  obtain ⟨c, e | e⟩ := d
  · refine ⟨⟨sign, (Digits.ofNat c).append (.zeros e), none, none, ?_⟩, rfl, List.append_nil _, ?_⟩
    · exact fun h => Text.ofNat_ne_nil c (List.append_eq_nil_iff.mp (List.append_eq_nil_iff.mp h).1).1
    · have hvalue : Number.digitsValue 10 ((Text.ofNat c ++ List.replicate e 48) ++ []) = c * Nat.pow 10 e := by
        rw [List.append_nil, Number.digitsValue_append_zeros, Number.digitsValue_ofNat]
      show Decimal.value ⟨Number.digitsValue 10 ((Text.ofNat c ++ List.replicate e 48) ++ []), 0⟩ = _
      rw [hvalue, value, value, Nat.cast_mul, cast_pow_ten]
      simp
  · have htext : digitText ⟨c, Int.negSucc e⟩ = Text.ofNat c := rfl
    have hcoefficient := Number.digitsValue_ofNat c
    unfold positional
    dsimp only
    rw [htext]
    split
    · rename_i hlt
      have hvalue : Number.digitsValue 10 ((Text.ofNat c).take ((Text.ofNat c).length - (e + 1)) ++
          (Text.ofNat c).drop ((Text.ofNat c).length - (e + 1))) = c := by
        rw [List.take_append_drop, hcoefficient]
      have hlength : ((Text.ofNat c).drop ((Text.ofNat c).length - (e + 1))).length = e + 1 := by
        rw [List.length_drop]
        omega
      obtain ⟨n, hsign, hmagnitude, hcounted⟩ :=
        exists_pointed sign ((Digits.ofNat c).take _) ((Digits.ofNat c).drop _) hvalue hlength
      exact ⟨n, hsign, hmagnitude, congrArg value hcounted⟩
    · rename_i hge
      have hvalue : Number.digitsValue 10 (List.replicate 1 48 ++
          (List.replicate (e + 1 - (Text.ofNat c).length) 48 ++ Text.ofNat c)) = c := by
        rw [Number.digitsValue_zeros_append, Number.digitsValue_zeros_append, hcoefficient]
      have hlength : (List.replicate (e + 1 - (Text.ofNat c).length) 48 ++ Text.ofNat c).length = e + 1 := by
        rw [List.length_append, List.length_replicate]
        omega
      obtain ⟨n, hsign, hmagnitude, hcounted⟩ :=
        exists_pointed sign (.zeros 1) ((Digits.zeros _).append (.ofNat c)) hvalue hlength
      exact ⟨n, hsign, hmagnitude, congrArg value hcounted⟩

/-- An exponent other than zero without zeros at its front. -/
theorem exists_exponent {k : ℤ} (hk : k ≠ 0) (count : Nat) :
    ∃ e : ExponentPart, e.written = k ∧ e.digits.value = k.natAbs ∧
      e.text = 101 :: (if k < 0 then 45 else 43) ::
        (List.replicate count 48 ++ Text.ofNat k.natAbs).dropWhile (· = 48) := by
  have hvalue : Number.digitsValue 10 ((List.replicate count 48 ++ Text.ofNat k.natAbs).dropWhile (· = 48)) =
      k.natAbs := by
    rw [Number.digitsValue_dropWhile, Number.digitsValue_zeros_append, Number.digitsValue_ofNat]
  have hnonempty : (List.replicate count 48 ++ Text.ofNat k.natAbs).dropWhile (· = 48) ≠ [] := by
    intro h
    rw [h] at hvalue
    exact hk (Int.natAbs_eq_zero.mp hvalue.symm)
  refine ⟨⟨false, if k < 0 then .minus else .plus,
    ((Digits.zeros count).append (.ofNat k.natAbs)).dropZeros, hnonempty⟩, ?_, hvalue, ?_⟩
  · show Linewise.sign (if k < 0 then Sign.minus else Sign.plus).negative *
      (Number.digitsValue 10 ((List.replicate count 48 ++ Text.ofNat k.natAbs).dropWhile (· = 48)) : ℤ) = k
    rw [hvalue]
    split
    · show -1 * (k.natAbs : ℤ) = k
      omega
    · show 1 * (k.natAbs : ℤ) = k
      omega
  · rw [ExponentPart.text]
    split <;> rfl

/-- What stands in front of an exponent does not have its letter. -/
theorem e_not_mem (sign : Sign) (whole : Digits 10) (fraction : Option (Digits 10)) :
    101 ∉ sign.text ++ (whole.text ++ fraction.elim [] fun f => 46 :: f.text) := by
  have hdigits : ∀ s : Digits 10, 101 ∉ s.text := fun s h => absurd (s.all 101 h) (by decide)
  simp only [List.mem_append, not_or]
  refine ⟨?_, hdigits whole, ?_⟩
  · cases sign <;> decide
  · cases fraction with
    | none => exact List.not_mem_nil
    | some f => exact List.not_mem_cons_of_ne_of_not_mem (by decide) (hdigits f)

/-- The digits in front of an exponent. -/
theorem exists_lead (d : Decimal) : ∃ (whole : Digits 10) (fraction : Option (Digits 10)),
    whole.text ++ fraction.elim [] Digits.text = d.digitText ∧
      (fraction.elim [] Digits.text).length + 1 = d.digits.length ∧
      pointed d.digitText = whole.text ++ fraction.elim [] fun f => 46 :: f.text := by
  have hall : ∀ b ∈ d.digitText, Number.isDigitOf 10 b = true := Number.isDigitOf_ofNat d.coefficient
  have hlength : d.digitText.length = d.digits.length := List.length_map _
  have hnonempty : d.digitText ≠ [] := Text.ofNat_ne_nil d.coefficient
  rw [← hlength]
  generalize d.digitText = digits at hall hnonempty
  rcases digits with - | ⟨digit, - | ⟨second, rest⟩⟩
  · exact absurd rfl hnonempty
  · exact ⟨⟨[digit], hall⟩, none, rfl, rfl, rfl⟩
  · exact ⟨⟨[digit], fun b hb => hall b (List.mem_singleton.mp hb ▸ List.mem_cons_self)⟩,
      some ⟨second :: rest, fun b hb => hall b (List.mem_cons_of_mem _ hb)⟩, rfl, rfl, rfl⟩

end Decimal

theorem Number.shortenExponent_append {front : Text} (hfront : 101 ∉ front) (b : UInt8) (power : Text) :
    shortenExponent (front ++ 101 :: b :: power) = front ++ 101 :: b :: power.dropWhile (· = 48) := by
  have hindex : (front ++ 101 :: b :: power).idxOf 101 = front.length := by
    rw [List.idxOf_append_of_notMem hfront, List.idxOf_cons_self, Nat.add_zero]
  have hsplit : front ++ 101 :: b :: power = (front ++ [101, b]) ++ power :=
    (List.append_assoc front [101, b] power).symm
  have hlength : (front ++ [101, b]).length = front.length + 2 := List.length_append
  rw [shortenExponent, hindex, hsplit, List.take_left' hlength, List.drop_left' hlength, List.append_assoc]
  rfl

namespace Decimal

/-- The exponent form is a numeral for the decimal, also without zeros at the front of the exponent, unless
the exponent is zero. -/
theorem exists_scientific (d : Decimal) (sign : Sign) (hzero : d.magnitude ≠ 0)
    (hlt : d.magnitude.natAbs < 100000) :
    ∃ n : DecimalNumeral, n.sign = sign ∧ n.text = Number.shortenExponent (sign.text ++ d.scientific) ∧
      n.counted = d := by
  obtain ⟨whole, fraction, hdigits, hlength, hlead⟩ := d.exists_lead
  obtain ⟨e, hwritten, hpower, htext⟩ := exists_exponent hzero (2 - (Text.ofNat d.magnitude.natAbs).length)
  have hnonempty : whole.text ++ fraction.elim [] Digits.text ≠ [] := by
    rw [hdigits]
    exact Text.ofNat_ne_nil d.coefficient
  refine ⟨⟨sign, whole, fraction, some e, hnonempty⟩, rfl, ?_, ?_⟩
  · have hfront : 101 ∉ sign.text ++ pointed d.digitText := by
      rw [hlead]
      exact e_not_mem sign whole fraction
    rw [scientific, ← List.append_assoc, Number.shortenExponent_append hfront, ← htext, hlead]
    simp only [DecimalNumeral.text, DecimalNumeral.magnitude, DecimalNumeral.exponentText, Option.elim_some,
      List.append_assoc]
  · rw [Number.counted_eq_written]
    · have hexponent : d.magnitude - ((fraction.elim [] Digits.text).length : ℤ) = d.exponent := by
        rw [magnitude]
        omega
      show Decimal.mk (Number.digitsValue 10 (whole.text ++ fraction.elim [] Digits.text))
        (e.written - (fraction.elim [] Digits.text).length) = d
      rw [hwritten, hexponent, hdigits]
      exact congrArg (Decimal.mk · d.exponent) (Number.digitsValue_ofNat d.coefficient)
    · exact hpower.trans_lt hlt

end Decimal

/-! ## Which form is taken -/

namespace Number

/-- Rounding does not pass a finite number. -/
theorem units_le_of_round {negative : Bool} {num den : Nat} {f : Finite} (hden : 0 < den)
    (h : round negative num den = .finite f) (g : Finite) :
    (g.units * den ≤ num → g.units ≤ f.units) ∧ (num ≤ g.units * den → f.units ≤ g.units) := by
  have hnear := (round_nearest hden h g).1
  unfold Nat.dist at hnear
  constructor
  · intro hle
    refine Nat.le_of_not_lt fun hlt => ?_
    have hmul := Nat.mul_lt_mul_of_pos_right hlt hden
    omega
  · intro hle
    refine Nat.le_of_not_lt fun hlt => ?_
    have hmul := Nat.mul_lt_mul_of_pos_right hlt hden
    omega

theorem value_lt_of_lt_of_le {f g : Finite} {y : Number} (hlt : lt (.finite f) y = true)
    (hle : le y (.finite g) = true) : f.value < g.value := by
  cases y with
  | nan => cases hlt
  | infinite negative =>
      cases negative with
      | false => cases hle
      | true => cases hlt
  | finite m =>
      rw [lt, decide_eq_true_iff] at hlt
      rw [le, Bool.or_eq_true, lt, eqv, decide_eq_true_iff, decide_eq_true_iff] at hle
      omega

theorem exists_ofNat {k : Nat} (hk : k < 9007199254740992) :
    ∃ f : Finite, ofNat k = .finite f ∧ f.value = k * unitsPerOne ∧ f.units = k * unitsPerOne := by
  obtain ⟨f, hf, hnegative, hunits⟩ := round_whole false hk Nat.one_pos
  rw [Nat.mul_one] at hf
  refine ⟨f, hf, ?_, hunits⟩
  rw [Finite.value, hnegative, hunits]
  exact Nat.cast_mul k unitsPerOne

end Number

namespace Decimal

/-- A decimal with its first digit before the point is between one and ten. -/
theorem units_of_magnitude_zero {d : Decimal} (hc : d.coefficient ≠ 0) (h : d.magnitude = 0) :
    1 * unitsPerOne * d.divisor ≤ d.units ∧ d.units ≤ 10 * unitsPerOne * d.divisor := by
  have hlow := le_coefficient hc
  have hhigh := d.coefficient_lt
  obtain ⟨k, hk⟩ : ∃ k, d.digits.length = k + 1 := ⟨d.digits.length - 1, by
    have hpos : 0 < d.digits.length := Nat.length_toDigits_pos
    omega⟩
  have hfactor : Nat.pow 10 d.exponent.toNat = 1 := by
    rw [magnitude] at h
    rw [Int.toNat_eq_zero.mpr (by omega)]
  have hdivisor : d.divisor = Nat.pow 10 k := by
    rw [magnitude] at h
    rw [divisor, show (-d.exponent).toNat = k by omega]
  have hten : Nat.pow 10 (k + 1) = Nat.pow 10 k * 10 := pow_ten_add k 1
  rw [hk, Nat.add_sub_cancel] at hlow
  rw [hk, hten] at hhigh
  rw [units, hfactor, hdivisor, Nat.mul_one, Nat.one_mul]
  constructor
  · rw [Nat.mul_comm]
    exact Nat.mul_le_mul_right _ hlow
  · calc d.coefficient * unitsPerOne ≤ Nat.pow 10 k * 10 * unitsPerOne :=
          Nat.mul_le_mul_right _ (Nat.le_of_lt hhigh)
      _ = 10 * unitsPerOne * Nat.pow 10 k := by ring

/-- A number that is written in exponent form is not between one and ten. -/
theorem magnitude_ne_zero {d : Decimal} {x : Finite} (hx : x.isZero = false)
    (h : d.toNumber x.negative = .finite x)
    (hform : (Number.le .large (Number.abs (.finite x)) || Number.lt (Number.abs (.finite x)) .small) = true) :
    d.magnitude ≠ 0 := by
  intro hzero
  obtain ⟨hone, hten⟩ := units_of_magnitude_zero (coefficient_ne_zero hx h) hzero
  rw [toNumber_eq_round] at h
  obtain ⟨one, hofOne, hvalueOne, hunitsOne⟩ := Number.exists_ofNat (k := 1) (by decide)
  obtain ⟨ten, hofTen, hvalueTen, hunitsTen⟩ := Number.exists_ofNat (k := 10) (by decide)
  rw [← hunitsOne] at hone
  rw [← hunitsTen] at hten
  have hlow := (Number.units_le_of_round d.divisor_pos h one).1 hone
  have hhigh := (Number.units_le_of_round d.divisor_pos h ten).2 hten
  have hvalue : ({ x with negative := false } : Finite).value = x.units := rfl
  rw [Number.abs, Bool.or_eq_true] at hform
  rcases hform with hlarge | hsmall
  · have hbelow : Number.lt (.ofNat 10) .large = true := by decide +kernel
    rw [hofTen] at hbelow
    have hlt := Number.value_lt_of_lt_of_le hbelow hlarge
    omega
  · have habove : Number.le .small (.ofNat 1) = true := by decide +kernel
    rw [hofOne] at habove
    have hlt := Number.value_lt_of_lt_of_le hsmall habove
    omega

end Decimal

/-! ## Reading back -/

namespace Sign

/-- The sign that stands before a magnitude. -/
def ofNegative (negative : Bool) : Sign := if negative then .minus else .unwritten

theorem negative_ofNegative (negative : Bool) : (ofNegative negative).negative = negative := by
  cases negative <;> rfl

end Sign

theorem Finite.signed_eq (x : Finite) (magnitude : Text) :
    x.signed magnitude = (Sign.ofNegative x.negative).text ++ magnitude := by
  rw [signed, Sign.ofNegative]
  split <;> rfl

namespace Number

/-- The text of a number other than zero is a numeral for its shortest decimal. -/
theorem exists_text {x : Finite} (hx : x.isZero = false) : ∃ n : DecimalNumeral,
    n.text = (Number.finite x).text ∧ n.sign.negative = x.negative ∧ n.counted.value = x.shortest.value := by
  have hreads := Finite.toNumber_shortest hx
  rw [text, hx, if_neg Bool.false_ne_true]
  split
  · rename_i hform
    obtain ⟨n, hsign, htext, hcounted⟩ := x.shortest.exists_scientific (.ofNegative x.negative)
      (Decimal.magnitude_ne_zero hx hreads hform) (Decimal.magnitude_lt hx hreads)
    rw [Finite.scientific, Finite.signed_eq]
    exact ⟨n, htext, hsign ▸ Sign.negative_ofNegative _, congrArg Decimal.value hcounted⟩
  · obtain ⟨n, hsign, hmagnitude, hvalue⟩ := x.shortest.exists_positional (.ofNegative x.negative)
    rw [Finite.positional, Finite.signed_eq, ← hmagnitude, ← hsign]
    exact ⟨n, rfl, hsign ▸ Sign.negative_ofNegative _, hvalue⟩

theorem eq_zeroOf {x : Finite} (hx : x.isZero = true) : Number.finite x = zeroOf x.negative := by
  have hmantissa : x.mantissa = 0 := of_decide_eq_true hx
  refine congrArg Number.finite (Finite.eq_of_units rfl ?_)
  rw [Finite.units, Finite.units, hmantissa, Nat.zero_mul, Finite.zero, Nat.zero_mul]

/-- A number reads back from its text. -/
theorem read_text {x : Number} (hnan : x ≠ .nan) (hzero : x ≠ zeroOf true) : read x.text = x := by
  cases x with
  | nan => exact absurd rfl hnan
  | infinite negative =>
      cases negative with
      | false =>
          have htrim : Text.trim (Text.ofString "Infinity") = Text.ofString "Infinity" := by decide
          show readTrimmed (Text.trim (Text.ofString "Infinity")) = _
          rw [htrim]
          exact readTrimmed_infinity .unwritten
      | true =>
          have htrim : Text.trim (Text.ofString "-Infinity") = Text.ofString "-Infinity" := by decide
          show readTrimmed (Text.trim (Text.ofString "-Infinity")) = _
          rw [htrim]
          exact readTrimmed_infinity .minus
  | finite x =>
      cases hx : x.isZero with
      | true =>
          have htext : (Number.finite x).text = [48] := by rw [text, hx, if_pos rfl]
          have hread : read [48] = zeroOf false := by decide +kernel
          have hpositive : x.negative = false := by
            rw [Bool.eq_false_iff]
            intro hnegative
            exact hzero (hnegative ▸ eq_zeroOf hx)
          rw [htext, hread, eq_zeroOf hx, hpositive]
      | false =>
          obtain ⟨n, htext, hsign, hvalue⟩ := exists_text hx
          rw [← htext, read_decimal, hsign, Decimal.toNumber_congr hvalue, Finite.toNumber_shortest hx]

end Number

namespace Machine

/-- A number is not changed by converting it to a text and back, be it alone or the only one of a list. -/
theorem convert_back (x : Number) (hnan : x ≠ .nan) (hzero : x ≠ .zeroOf true) :
    Number.read x.text = x ∧ ∀ (m : Machine) (v : Value), v = .number x ∨ v = .numbers [x] →
      (convert .string v >>= convert .number).run.run m = (.ok (.number x), m) ∧
        (convert .number v).run.run m = (.ok (.number x), m) := by
  have hread := Number.read_text hnan hzero
  refine ⟨hread, ?_⟩
  rintro m v (rfl | rfl)
  · have htext : (convert .string (.number x) >>= convert .number).run.run m =
        (.ok (.number (.read x.text)), m) := rfl
    rw [htext, hread]
    exact ⟨rfl, rfl⟩
  · have htext : (convert .string (.numbers [x]) >>= convert .number).run.run m =
        (.ok (.number (.read x.text)), m) := rfl
    have hlist : (convert .number (.numbers [x])).run.run m = (.ok (.number (.read x.text)), m) := rfl
    rw [htext, hlist, hread]
    exact ⟨rfl, rfl⟩

theorem convert_back_large : (Number.large ≠ .nan ∧ Number.large ≠ .zeroOf true) ∧
    Number.read (Number.text .large) = .large :=
  have hnan : Number.large ≠ .nan := by decide +kernel
  have hzero : Number.large ≠ .zeroOf true := by decide +kernel
  ⟨⟨hnan, hzero⟩, (convert_back .large hnan hzero).1⟩

end Machine

end Linewise
