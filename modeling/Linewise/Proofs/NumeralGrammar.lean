import Linewise.Number.Numeral
import Linewise.Proofs.DecimalValue

/-!
# The grammar of numerals

Which texts are read as numbers. A decimal numeral, a numeral after a prefix and their parts are data that carry
what makes them well-formed, so the grammar is the set of the texts of a `Numeral`.

The platform's reader takes much more than decimal numerals. What it takes beside them has a byte that is
foreign to numerals, so for texts without such bytes it comes down to `readDecimal?` (`readFloat_plain`), and
that accepts the texts of decimal numerals only (`exists_of_readDecimal?`). In turn decimal numerals have no
foreign bytes (`DecimalNumeral.isNumeralByte`), and none of the filters in front of the reader takes one for
something else (`readTrimmed_decimal`).
-/

namespace Linewise

/-! ## Numerals -/

/-- How a sign is written. -/
inductive Sign where
  | unwritten | plus | minus
deriving DecidableEq, Repr

namespace Sign

def text : Sign → Text
  | unwritten => []
  | plus => [43]
  | minus => [45]

def negative : Sign → Bool
  | minus => true
  | _ => false

end Sign

/-- Digits of a base, maybe none. -/
structure Digits (base : Nat) where
  text : Text
  all : ∀ b ∈ text, Number.isDigitOf base b = true

/-- The number that digits write. -/
def Digits.value {base : Nat} (d : Digits base) : Nat := Number.digitsValue base d.text

/-- The exponent of a decimal numeral: a letter of either case, a sign, and one or more digits. -/
structure ExponentPart where
  capital : Bool
  sign : Sign
  digits : Digits 10
  nonempty : digits.text ≠ []

namespace ExponentPart

def text (e : ExponentPart) : Text := (if e.capital then 69 else 101) :: (e.sign.text ++ e.digits.text)

/-- The exponent as it is written. -/
def written (e : ExponentPart) : ℤ := Linewise.sign e.sign.negative * e.digits.value

/-- The exponent without the digits that do not count. -/
def counted (e : ExponentPart) : ℤ := Linewise.sign e.sign.negative * Number.exponentValue e.digits.text

end ExponentPart

/-- A decimal numeral: a sign, digits with an optional point and at least one digit, an optional exponent. -/
structure DecimalNumeral where
  sign : Sign
  whole : Digits 10
  /-- The digits after the point, if there is a point. -/
  fraction : Option (Digits 10)
  exponent : Option ExponentPart
  nonempty : whole.text ++ (fraction.elim [] Digits.text) ≠ []

namespace DecimalNumeral

/-- The digits after the point. -/
def places (n : DecimalNumeral) : Text := n.fraction.elim [] Digits.text

def exponentText (n : DecimalNumeral) : Text := n.exponent.elim [] ExponentPart.text

/-- The text after the sign. -/
def magnitude (n : DecimalNumeral) : Text :=
  n.whole.text ++ ((n.fraction.elim [] fun d => 46 :: d.text) ++ n.exponentText)

def text (n : DecimalNumeral) : Text := n.sign.text ++ n.magnitude

/-- The digits, with an exponent for them. -/
def scaled (n : DecimalNumeral) (exponent : ℤ) : Decimal :=
  ⟨Number.digitsValue 10 (n.whole.text ++ n.places), exponent - n.places.length⟩

/-- The exponent without its sign. -/
def power (n : DecimalNumeral) : Nat := n.exponent.elim 0 fun e => e.digits.value

/-- The decimal that is written, but for the sign. -/
def written (n : DecimalNumeral) : Decimal := n.scaled (n.exponent.elim 0 ExponentPart.written)

/-- The decimal without the digits of the exponent that do not count. -/
def counted (n : DecimalNumeral) : Decimal := n.scaled (n.exponent.elim 0 ExponentPart.counted)

end DecimalNumeral

/-- The bases other than ten in which numerals are written. -/
inductive Radix where
  | binary | octal | hexadecimal
deriving DecidableEq, Repr

namespace Radix

def base : Radix → Nat
  | binary => 2
  | octal => 8
  | hexadecimal => 16

def letter : Radix → (capital : Bool) → UInt8
  | binary, capital => if capital then 66 else 98
  | octal, capital => if capital then 79 else 111
  | hexadecimal, capital => if capital then 88 else 120

end Radix

/-- A numeral after a prefix: one or more digits of the base that the prefix announces, for a number below
2⁶⁴. -/
structure PrefixedNumeral where
  radix : Radix
  capital : Bool
  digits : Digits radix.base
  nonempty : digits.text ≠ []
  value_lt : digits.value < 2 ^ 64

def PrefixedNumeral.text (p : PrefixedNumeral) : Text := 48 :: p.radix.letter p.capital :: p.digits.text

/-- What is taken for a number. -/
inductive Numeral where
  | blank
  | infinity (sign : Sign)
  | prefixed (p : PrefixedNumeral)
  | decimal (n : DecimalNumeral)

namespace Numeral

def text : Numeral → Text
  | blank => []
  | infinity sign => sign.text ++ Text.ofString "Infinity"
  | prefixed p => p.text
  | decimal n => n.text

/-- The number that a numeral has to give. -/
def Gives : Numeral → Number → Prop
  | blank, x => x = 0
  | infinity sign, x => x = .infinite sign.negative
  | prefixed p, x => Number.IsNearest p.digits.value x
  | decimal n, x =>
    Number.IsRounding n.sign.negative n.counted.value x ∧
      (n.power < 100000 → Number.IsRounding n.sign.negative n.written.value x)

end Numeral

namespace Number

/-! ## Bytes of numerals -/

theorem between_iff {m n b : UInt8} :
    (decide (m ≤ b) && decide (b ≤ n)) = true ↔ m.toNat ≤ b.toNat ∧ b.toNat ≤ n.toNat := by
  rw [Bool.and_eq_true, decide_eq_true_iff, decide_eq_true_iff, UInt8.le_iff_toNat_le, UInt8.le_iff_toNat_le]

theorem isDigitOf_ten (b : UInt8) : isDigitOf 10 b = isDigit b := by
  unfold isDigitOf digitValue?
  dsimp only
  by_cases hdigit : isDigit b = true
  · have hle : b.toNat ≤ 57 := (between_iff.mp hdigit).2
    rw [if_pos hdigit, if_pos (by omega), hdigit]
    rfl
  · rw [if_neg hdigit, Bool.eq_false_iff.mpr hdigit]
    split
    · rename_i hletter
      have hle : 97 ≤ b.toNat := (between_iff.mp hletter).1
      rw [if_neg (by omega)]
      rfl
    · split
      · rename_i hletter
        have hle : 65 ≤ b.toNat := (between_iff.mp hletter).1
        rw [if_neg (by omega)]
        rfl
      · rfl

/-- The test for one or more digits. -/
theorem not_malformed {s : Text} {p : UInt8 → Bool} :
    ¬(s.isEmpty || !s.all p) = true ↔ s ≠ [] ∧ ∀ b ∈ s, p b = true := by
  rw [Bool.or_eq_true, not_or, List.isEmpty_iff, Bool.not_eq_true', Bool.not_eq_false, List.all_eq_true]

/-- An underscore and the first letter of infinity are digits of no base. -/
theorem isDigitOf_ne {base : Nat} {b : UInt8} (h : isDigitOf base b = true) : b ≠ 95 ∧ b ≠ 73 := by
  have hnone : (if base < base then some base else none) = none := if_neg (Nat.lt_irrefl base)
  constructor
  · rintro rfl
    exact Option.isSome_iff_ne_none.mp h hnone
  · rintro rfl
    exact Option.isSome_iff_ne_none.mp h hnone

/-- The bytes of decimal numerals. -/
def IsNumeralByte (b : UInt8) : Prop := isDigit b = true ∨ b ∈ [43, 45, 46, 69, 101]

theorem isForeign_iff {b : UInt8} : isForeign b = true ↔ b ∈ [95, 120, 88, 112, 80, 105, 73, 110, 78] := by
  rw [isForeign, List.contains_iff_mem]
  rfl

theorem IsNumeralByte.not_foreign {b : UInt8} (h : IsNumeralByte b) : isForeign b = false := by
  rw [Bool.eq_false_iff, Ne, isForeign_iff]
  intro hforeign
  simp only [List.mem_cons, List.not_mem_nil, or_false] at hforeign
  rcases hforeign with rfl | rfl | rfl | rfl | rfl | rfl | rfl | rfl | rfl <;>
    exact absurd h (by unfold IsNumeralByte; decide)

end Number

open Number

theorem Digits.isNumeralByte (d : Digits 10) {b : UInt8} (h : b ∈ d.text) : IsNumeralByte b := by
  have hdigit := d.all b h
  rw [isDigitOf_ten] at hdigit
  exact .inl hdigit

theorem Sign.isNumeralByte (sign : Sign) {b : UInt8} (h : b ∈ sign.text) : IsNumeralByte b := by
  cases sign with
  | unwritten => cases h
  | plus =>
      rw [List.mem_singleton.mp h]
      exact .inr (by decide)
  | minus =>
      rw [List.mem_singleton.mp h]
      exact .inr (by decide)

theorem ExponentPart.isNumeralByte (e : ExponentPart) {b : UInt8} (h : b ∈ e.text) : IsNumeralByte b := by
  rcases List.mem_cons.mp h with rfl | h
  · cases e.capital <;> exact .inr (by decide)
  · rcases List.mem_append.mp h with h | h
    · exact e.sign.isNumeralByte h
    · exact e.digits.isNumeralByte h

theorem DecimalNumeral.isNumeralByte (n : DecimalNumeral) {b : UInt8} (h : b ∈ n.text) :
    IsNumeralByte b := by
  rcases List.mem_append.mp h with h | h
  · exact n.sign.isNumeralByte h
  rcases List.mem_append.mp h with h | h
  · exact n.whole.isNumeralByte h
  rcases List.mem_append.mp h with h | h
  · cases hfraction : n.fraction with
    | none =>
        rw [hfraction] at h
        cases h
    | some d =>
        rw [hfraction] at h
        rcases List.mem_cons.mp h with rfl | h
        · exact .inr (by decide)
        · exact d.isNumeralByte h
  · rw [exponentText] at h
    cases hexponent : n.exponent with
    | none =>
        rw [hexponent] at h
        cases h
    | some e =>
        rw [hexponent] at h
        exact e.isNumeralByte h

namespace Number

/-! ## Signs and exponents -/

/-- What may follow a sign that is not written. -/
theorem splitSign_append (sign : Sign) {s : Text} (hs : ∀ b ∈ s.head?, b ≠ 43 ∧ b ≠ 45) :
    splitSign (sign.text ++ s) = (sign.negative, s) := by
  cases sign with
  | plus => rfl
  | minus => rfl
  | unwritten =>
      show splitSign s = (false, s)
      cases s with
      | nil => rfl
      | cons b rest =>
          obtain ⟨hplus, hminus⟩ := hs b rfl
          unfold splitSign
          split
          · simp_all
          · simp_all
          · rfl

theorem exists_splitSign (s : Text) :
    ∃ sign : Sign, s = sign.text ++ (splitSign s).2 ∧ (splitSign s).1 = sign.negative := by
  unfold splitSign
  split
  · exact ⟨.plus, rfl, rfl⟩
  · exact ⟨.minus, rfl, rfl⟩
  · exact ⟨.unwritten, rfl, rfl⟩

theorem digit_not_sign {b : UInt8} (h : isDigitOf 10 b = true) : b ≠ 43 ∧ b ≠ 45 := by
  constructor
  · rintro rfl
    exact absurd h (by decide)
  · rintro rfl
    exact absurd h (by decide)

theorem eq_or_eq_of_lower {b c : UInt8} (h : lower b = c) : b = c ∨ b = c - 32 := by
  unfold lower at h
  split at h
  · right
    rw [← h, UInt8.add_sub_cancel]
  · exact .inl h

theorem readExponent?_text (e : ExponentPart) : readExponent? 101 e.text = some e.counted := by
  have hletter : lower (if e.capital then 69 else 101) = 101 := by cases e.capital <;> decide
  have hsign : splitSign (e.sign.text ++ e.digits.text) = (e.sign.negative, e.digits.text) := by
    refine splitSign_append e.sign fun b hb => ?_
    exact digit_not_sign (e.digits.all b (List.mem_of_head? hb))
  have hdigits : ∀ b ∈ e.digits.text, isDigit b = true := by
    intro b hb
    rw [← isDigitOf_ten]
    exact e.digits.all b hb
  rw [ExponentPart.text, readExponent?, if_pos hletter, hsign]
  refine (if_neg (not_malformed.mpr ⟨e.nonempty, hdigits⟩)).trans ?_
  rw [ExponentPart.counted]
  cases e.sign.negative <;> simp [Linewise.sign]

theorem exists_of_readExponent? {s : Text} {v : ℤ} (h : readExponent? 101 s = some v) :
    ∃ e : ExponentPart, e.text = s := by
  cases s with
  | nil => cases h
  | cons b rest =>
      rw [readExponent?] at h
      by_cases hletter : lower b = 101
      · obtain ⟨sign, hrest, -⟩ := exists_splitSign rest
        rw [if_pos hletter] at h
        dsimp only at h
        split at h
        · cases h
        · rename_i hwellFormed
          obtain ⟨hnonempty, hdigits⟩ := not_malformed.mp hwellFormed
          have hall : ∀ c ∈ (splitSign rest).2, isDigitOf 10 c = true := by
            intro c hc
            rw [isDigitOf_ten]
            exact hdigits c hc
          refine ⟨⟨b = 69, sign, ⟨(splitSign rest).2, hall⟩, hnonempty⟩, ?_⟩
          rw [ExponentPart.text, ← hrest]
          rcases eq_or_eq_of_lower hletter with rfl | rfl <;> rfl
      · rw [if_neg hletter] at h
        cases h

/-! ## Decimals -/

section

variable {p : UInt8 → Bool} {front rest : Text}

theorem takeWhile_append (hfront : ∀ b ∈ front, p b = true) (hrest : ∀ b ∈ rest.head?, p b = false) :
    (front ++ rest).takeWhile p = front := by
  rw [List.takeWhile_append_of_pos hfront]
  cases rest with
  | nil => exact List.append_nil front
  | cons b rest => rw [List.takeWhile_cons_of_neg (Bool.eq_false_iff.mp (hrest b rfl)), List.append_nil]

theorem dropWhile_append (hfront : ∀ b ∈ front, p b = true) (hrest : ∀ b ∈ rest.head?, p b = false) :
    (front ++ rest).dropWhile p = rest := by
  rw [List.dropWhile_append_of_pos hfront]
  cases rest with
  | nil => rfl
  | cons b rest => exact List.dropWhile_cons_of_neg (Bool.eq_false_iff.mp (hrest b rfl))

end

/-- What begins an exponent continues no digits. -/
theorem head_exponentText (n : DecimalNumeral) :
    ∀ b ∈ n.exponentText.head?, b ≠ 46 ∧ isDigitOf 10 b = false := by
  intro b hb
  rw [DecimalNumeral.exponentText] at hb
  cases hexponent : n.exponent with
  | none =>
      rw [hexponent] at hb
      cases hb
  | some e =>
      rw [hexponent] at hb
      cases hb
      cases e.capital <;> decide

theorem splitPlaces_magnitude (n : DecimalNumeral) :
    splitPlaces 10 ((n.fraction.elim [] fun d => 46 :: d.text) ++ n.exponentText) =
      (n.places, n.exponentText) := by
  have hexponent := head_exponentText n
  rw [DecimalNumeral.places]
  cases n.fraction with
  | none =>
      show splitPlaces 10 n.exponentText = ([], n.exponentText)
      unfold splitPlaces
      split
      · rename_i hpoint
        rw [hpoint] at hexponent
        exact absurd rfl (hexponent 46 rfl).1
      · rfl
  | some d =>
      have hstop : ∀ b ∈ n.exponentText.head?, isDigitOf 10 b = false := fun b hb => (hexponent b hb).2
      show ((d.text ++ n.exponentText).takeWhile _, (d.text ++ n.exponentText).dropWhile _) = _
      rw [takeWhile_append d.all hstop, dropWhile_append d.all hstop]
      rfl

theorem readMantissa?_magnitude (n : DecimalNumeral) :
    readMantissa? 10 n.magnitude =
      some (digitsValue 10 (n.whole.text ++ n.places), n.places.length, n.exponentText) := by
  have hnonempty : ¬(n.whole.text.isEmpty && n.places.isEmpty) = true := by
    rw [Bool.and_eq_true, List.isEmpty_iff, List.isEmpty_iff, ← List.append_eq_nil_iff]
    exact n.nonempty
  have hhead : ∀ b ∈ ((n.fraction.elim [] fun d => 46 :: d.text) ++ n.exponentText).head?,
      isDigitOf 10 b = false := by
    cases n.fraction with
    | none => exact fun b hb => (head_exponentText n b hb).2
    | some d =>
        rintro b ⟨⟩
        decide
  rw [readMantissa?, DecimalNumeral.magnitude, takeWhile_append n.whole.all hhead,
    dropWhile_append n.whole.all hhead, splitPlaces_magnitude]
  exact if_neg hnonempty

/-- A decimal numeral is read as the decimal that it writes, but for digits of the exponent that do not
count. -/
theorem readDecimal?_magnitude (n : DecimalNumeral) : readDecimal? n.magnitude = some n.counted := by
  rw [readDecimal?, readMantissa?_magnitude]
  dsimp only
  rw [DecimalNumeral.exponentText, DecimalNumeral.counted]
  cases n.exponent with
  | none => rfl
  | some e =>
      have hletter : ¬e.text.isEmpty = true := Bool.false_ne_true
      rw [Option.elim_some, if_neg hletter, readExponent?_text]
      rfl

theorem all_takeWhile (s : Text) : ∀ b ∈ s.takeWhile (isDigitOf 10), isDigitOf 10 b = true :=
  List.all_eq_true.mp List.all_takeWhile

theorem exists_splitPlaces (s : Text) :
    ∃ fraction : Option (Digits 10), (splitPlaces 10 s).1 = fraction.elim [] Digits.text ∧
      s = (fraction.elim [] fun d => 46 :: d.text) ++ (splitPlaces 10 s).2 := by
  unfold splitPlaces
  split
  · rename_i rest
    refine ⟨some ⟨_, all_takeWhile rest⟩, rfl, ?_⟩
    exact congrArg (46 :: ·) List.takeWhile_append_dropWhile.symm
  · exact ⟨none, rfl, rfl⟩

/-- Only decimal numerals are read as decimals. -/
theorem exists_of_readDecimal? {s : Text} {d : Decimal} (h : readDecimal? s = some d) (sign : Sign) :
    ∃ n : DecimalNumeral, n.sign = sign ∧ n.magnitude = s := by
  rw [readDecimal?, readMantissa?] at h
  obtain ⟨fraction, hplaces, hrest⟩ := exists_splitPlaces (s.dropWhile (isDigitOf 10))
  have hsplit : s = s.takeWhile (isDigitOf 10) ++ s.dropWhile (isDigitOf 10) :=
    List.takeWhile_append_dropWhile.symm
  dsimp only at h
  by_cases hempty : ((s.takeWhile (isDigitOf 10)).isEmpty &&
      (splitPlaces 10 (s.dropWhile (isDigitOf 10))).1.isEmpty) = true
  · rw [if_pos hempty] at h
    cases h
  · rw [if_neg hempty] at h
    rw [Bool.and_eq_true, List.isEmpty_iff, List.isEmpty_iff, ← List.append_eq_nil_iff, hplaces] at hempty
    dsimp only at h
    generalize (splitPlaces 10 (s.dropWhile (isDigitOf 10))).2 = tail at h hrest
    cases htail : tail.isEmpty with
    | true =>
        rw [List.isEmpty_iff.mp htail] at hrest
        refine ⟨⟨sign, ⟨_, all_takeWhile s⟩, fraction, none, hempty⟩, rfl, ?_⟩
        exact (hsplit.trans (congrArg _ hrest)).symm
    | false =>
        rw [htail, if_neg Bool.false_ne_true] at h
        obtain ⟨v, hv, -⟩ := Option.map_eq_some_iff.mp h
        obtain ⟨e, rfl⟩ := exists_of_readExponent? hv
        refine ⟨⟨sign, ⟨_, all_takeWhile s⟩, fraction, some e, hempty⟩, rfl, ?_⟩
        exact (hsplit.trans (congrArg _ hrest)).symm

/-! ## Texts without foreign bytes -/

section

variable {s : Text}

theorem not_mem_of_plain (hs : s.any isForeign = false) {b : UInt8} (hb : isForeign b = true) : b ∉ s :=
  fun hmem => Bool.false_ne_true (hs.symm.trans (List.any_eq_true.mpr ⟨b, hmem, hb⟩))

/-- The words that the platform reads all have the letter n. -/
theorem readWord?_plain (hs : s.any isForeign = false) : readWord? s = none := by
  have hletter : 110 ∉ s.map lower := by
    intro hmem
    obtain ⟨b, hb, hlower⟩ := List.mem_map.mp hmem
    have hforeign : isForeign b = true := by rcases eq_or_eq_of_lower hlower with rfl | rfl <;> rfl
    exact not_mem_of_plain hs hforeign hb
  have hunsigned : 110 ∉ (splitSign (s.map lower)).2 := by
    obtain ⟨sign, hsplit, -⟩ := exists_splitSign (s.map lower)
    rw [hsplit] at hletter
    exact fun hmem => hletter (List.mem_append_right _ hmem)
  unfold readWord?
  dsimp only
  rw [if_neg, if_neg]
  · intro hword
    exact hletter (hword ▸ by decide)
  · rintro (hword | hword)
    · exact hunsigned (hword ▸ by decide)
    · exact hunsigned (hword ▸ by decide)

theorem underscoresFrom_plain (base : Nat) (hs : 95 ∉ s) {seen : Seen} (hseen : seen ≠ .underscore) :
    underscoresFrom base seen s = true := by
  induction s generalizing seen with
  | nil => exact bne_iff_ne.mpr hseen
  | cons b rest ih =>
      have hrest := List.not_mem_of_not_mem_cons hs
      rw [underscoresFrom]
      split
      · exact ih hrest (by decide)
      · rw [if_neg (List.ne_of_not_mem_cons hs).symm, Bool.and_eq_true]
        exact ⟨bne_iff_ne.mpr hseen, ih hrest (by decide)⟩

theorem underscoresSeparate_plain (hs : 95 ∉ s) : underscoresSeparate s = true := by
  obtain ⟨sign, hsplit, -⟩ := exists_splitSign s
  have hunsigned : 95 ∉ (splitSign s).2 := by
    rw [hsplit] at hs
    exact fun hmem => hs (List.mem_append_right _ hmem)
  unfold underscoresSeparate
  generalize (splitSign s).2 = t at hunsigned
  split
  · split
    · refine underscoresFrom_plain _ (fun hmem => hunsigned ?_) (by decide)
      exact List.mem_cons_of_mem _ (List.mem_cons_of_mem _ hmem)
    · exact underscoresFrom_plain _ hunsigned (by decide)
  · exact underscoresFrom_plain _ hunsigned (by decide)

theorem readMagnitude?_plain (hs : s.any isForeign = false) (negative : Bool) :
    readMagnitude? negative s = (readDecimal? s).map fun d => d.toNumber negative := by
  unfold readMagnitude?
  split
  · rename_i letter rest
    refine if_neg fun hlower => not_mem_of_plain hs ?_ (List.mem_cons_of_mem _ List.mem_cons_self)
    rcases eq_or_eq_of_lower hlower with rfl | rfl <;> rfl
  · rfl

theorem plain_splitSign (hs : s.any isForeign = false) : (splitSign s).2.any isForeign = false := by
  obtain ⟨sign, hsplit, -⟩ := exists_splitSign s
  rw [hsplit, List.any_append, Bool.or_eq_false_iff] at hs
  exact hs.2

/-- Without foreign bytes only decimals are read. -/
theorem readFloat_plain (hs : s.any isForeign = false) :
    readFloat s = match readDecimal? (splitSign s).2 with
      | some d =>
        ⟨d.toNumber (splitSign s).1,
          if (d.toNumber (splitSign s).1).isInfinite then some .outOfRange else none⟩
      | none => ⟨zeroOf false, some .malformed⟩ := by
  have hunderscore : 95 ∉ s := not_mem_of_plain hs rfl
  have hfilter : s.filter (· ≠ 95) = s := by
    refine List.filter_eq_self.mpr fun b hb => decide_eq_true ?_
    rintro rfl
    exact hunderscore hb
  rw [readFloat, readWord?_plain hs]
  dsimp only
  rw [hfilter, underscoresSeparate_plain hunderscore, if_pos rfl, readMagnitude?_plain (plain_splitSign hs)]
  cases readDecimal? (splitSign s).2 <;> rfl

end

/-! ## Numerals -/

theorem toNumber_ne_nan (d : Decimal) (negative : Bool) : d.toNumber negative ≠ .nan := by
  rw [Decimal.toNumber_eq_round]
  rcases round_cases negative d.units d.divisor with h | ⟨f, h⟩ <;> rw [h] <;> exact nofun

theorem exists_of_baseOf? {letter : UInt8} {base : Nat} (h : baseOf? letter = some base) :
    ∃ (radix : Radix) (capital : Bool), base = radix.base ∧ letter = radix.letter capital := by
  simp only [baseOf?, Bool.or_eq_true, decide_eq_true_eq] at h
  split_ifs at h with hsixteen height htwo
  · cases h
    rcases hsixteen with rfl | rfl
    · exact ⟨.hexadecimal, false, rfl, rfl⟩
    · exact ⟨.hexadecimal, true, rfl, rfl⟩
  · cases h
    rcases height with rfl | rfl
    · exact ⟨.octal, false, rfl, rfl⟩
    · exact ⟨.octal, true, rfl, rfl⟩
  · cases h
    rcases htwo with rfl | rfl
    · exact ⟨.binary, false, rfl, rfl⟩
    · exact ⟨.binary, true, rfl, rfl⟩

theorem exists_of_splitPrefix? {s digits : Text} {base : Nat} (h : splitPrefix? s = some (base, digits)) :
    ∃ (radix : Radix) (capital : Bool), base = radix.base ∧ s = 48 :: radix.letter capital :: digits := by
  unfold splitPrefix? at h
  split at h
  · obtain ⟨base', hbase, hpair⟩ := Option.map_eq_some_iff.mp h
    obtain ⟨radix, capital, rfl, rfl⟩ := exists_of_baseOf? hbase
    cases hpair
    exact ⟨radix, capital, rfl, rfl⟩
  · cases h

theorem splitPrefix?_text (p : PrefixedNumeral) : splitPrefix? p.text = some (p.radix.base, p.digits.text) := by
  obtain ⟨b, rest, hdigits⟩ := List.exists_cons_of_ne_nil p.nonempty
  rw [PrefixedNumeral.text, hdigits]
  cases p.radix <;> cases p.capital <;> rfl

/-- A decimal numeral has no letter that announces a base. -/
theorem splitPrefix?_decimal (n : DecimalNumeral) : splitPrefix? n.text = none := by
  refine Option.eq_none_iff_forall_ne_some.mpr fun ⟨base, digits⟩ h => ?_
  obtain ⟨radix, capital, -, htext⟩ := exists_of_splitPrefix? h
  have hbyte : IsNumeralByte (radix.letter capital) := by
    refine n.isNumeralByte ?_
    rw [htext]
    exact List.mem_cons_of_mem _ List.mem_cons_self
  cases radix <;> cases capital <;> exact absurd hbyte (by unfold IsNumeralByte; decide)

theorem readNatural?_eq_some {base n : Nat} {s : Text} (h : readNatural? base s = some n) :
    ∃ d : Digits base, d.text = s ∧ s ≠ [] ∧ d.value < 2 ^ 64 ∧ n = d.value := by
  unfold readNatural? at h
  split_ifs at h with hmalformed hsmall
  cases h
  obtain ⟨hnonempty, hdigits⟩ := not_malformed.mp hmalformed
  exact ⟨⟨s, hdigits⟩, rfl, hnonempty, hsmall, rfl⟩

theorem readNatural?_text (p : PrefixedNumeral) :
    readNatural? p.radix.base p.digits.text = some p.digits.value := by
  rw [readNatural?, if_neg (not_malformed.mpr ⟨p.nonempty, p.digits.all⟩)]
  exact if_pos p.value_lt

theorem not_mem_prefixed (p : PrefixedNumeral) : 95 ∉ p.text ∧ 73 ∉ p.text := by
  have hletter : p.radix.letter p.capital ≠ 95 ∧ p.radix.letter p.capital ≠ 73 := by
    cases p.radix <;> cases p.capital <;> decide
  have hdigits : ∀ b ∈ p.digits.text, b ≠ 95 ∧ b ≠ 73 := fun b hb => isDigitOf_ne (p.digits.all b hb)
  constructor
  · refine List.not_mem_cons_of_ne_of_not_mem (by decide) ?_
    exact List.not_mem_cons_of_ne_of_not_mem hletter.1.symm fun hmem => (hdigits 95 hmem).1 rfl
  · refine List.not_mem_cons_of_ne_of_not_mem (by decide) ?_
    exact List.not_mem_cons_of_ne_of_not_mem hletter.2.symm fun hmem => (hdigits 73 hmem).2 rfl

theorem ne_infinity {s : Text} (hs : 73 ∉ s) :
    ¬(s = Text.ofString "Infinity" ∨ s = Text.ofString "+Infinity") ∧ s ≠ Text.ofString "-Infinity" := by
  refine ⟨?_, fun h => hs (h ▸ by decide)⟩
  rintro (h | h) <;> exact hs (h ▸ by decide)

/-- A numeral after a prefix is read as the number of its digits. -/
theorem readTrimmed_prefixed (p : PrefixedNumeral) : readTrimmed p.text = ofNat p.digits.value := by
  obtain ⟨hunderscore, hletter⟩ := not_mem_prefixed p
  obtain ⟨hinfinity, hminus⟩ := ne_infinity hletter
  have hempty : p.text ≠ [] := List.cons_ne_nil _ _
  rw [readTrimmed, if_neg hempty, if_neg hinfinity, if_neg hminus, splitPrefix?_text]
  dsimp only
  rw [readNatural?_text]
  exact if_neg fun hcontains => hunderscore (List.contains_iff_mem.mp hcontains)

theorem text_ne_nil (n : DecimalNumeral) : n.text ≠ [] := by
  intro h
  have hmagnitude : n.magnitude = [] := (List.append_eq_nil_iff.mp h).2
  have hread := readMantissa?_magnitude n
  rw [hmagnitude] at hread
  cases hread

/-- The sign of a decimal numeral is told apart from its magnitude. -/
theorem splitSign_decimal (n : DecimalNumeral) : splitSign n.text = (n.sign.negative, n.magnitude) := by
  refine splitSign_append n.sign fun b hb => ?_
  rw [DecimalNumeral.magnitude] at hb
  cases hwhole : n.whole.text with
  | cons digit rest =>
      rw [hwhole] at hb
      cases hb
      exact digit_not_sign (n.whole.all b (hwhole ▸ List.mem_cons_self))
  | nil =>
      cases hfraction : n.fraction with
      | some d =>
          rw [hwhole, hfraction] at hb
          cases hb
          decide
      | none =>
          -- a numeral without digits before the point has digits after it
          have hnonempty := n.nonempty
          rw [hwhole, hfraction] at hnonempty
          exact absurd rfl hnonempty

/-- A decimal numeral is read as the number nearest to what it writes, but for digits of the exponent that do
not count. -/
theorem readTrimmed_decimal (n : DecimalNumeral) :
    readTrimmed n.text = n.counted.toNumber n.sign.negative := by
  have hplain : n.text.any isForeign = false :=
    List.any_eq_false.mpr fun b hb => Bool.eq_false_iff.mp (n.isNumeralByte hb).not_foreign
  obtain ⟨hinfinity, hminus⟩ := ne_infinity (not_mem_of_plain hplain rfl)
  rw [readTrimmed, if_neg (text_ne_nil n), if_neg hinfinity, if_neg hminus, splitPrefix?_decimal]
  dsimp only
  rw [hplain, if_neg Bool.false_ne_true, readFloat_plain hplain, splitSign_decimal, readDecimal?_magnitude]
  dsimp only
  split
  · rename_i hmalformed
    split_ifs at hmalformed <;> cases hmalformed
  · rename_i hreading
    cases hreading
    rfl

theorem readTrimmed_infinity (sign : Sign) :
    readTrimmed (sign.text ++ Text.ofString "Infinity") = .infinite sign.negative := by
  cases sign with
  | unwritten => exact (if_neg (by decide)).trans (if_pos (.inl rfl))
  | plus => exact (if_neg (by decide)).trans (if_pos (.inr rfl))
  | minus => exact (if_neg (by decide)).trans ((if_neg (by decide)).trans (if_pos rfl))

theorem ofNat_ne_nan (n : Nat) : ofNat n ≠ .nan := by
  rcases round_cases false (n * unitsPerOne) 1 with h | ⟨f, h⟩ <;> rw [ofNat, h] <;> exact nofun

/-- Only numerals are read. -/
theorem exists_of_readTrimmed {s : Text} (h : readTrimmed s ≠ .nan) : ∃ m : Numeral, s = m.text := by
  rw [readTrimmed] at h
  by_cases hempty : s = []
  · exact ⟨.blank, hempty⟩
  rw [if_neg hempty] at h
  by_cases hinfinity : s = Text.ofString "Infinity" ∨ s = Text.ofString "+Infinity"
  · rcases hinfinity with rfl | rfl
    · exact ⟨.infinity .unwritten, rfl⟩
    · exact ⟨.infinity .plus, rfl⟩
  rw [if_neg hinfinity] at h
  by_cases hminus : s = Text.ofString "-Infinity"
  · exact ⟨.infinity .minus, hminus⟩
  rw [if_neg hminus] at h
  split at h
  · rename_i base digits hprefix
    obtain ⟨radix, capital, rfl, rfl⟩ := exists_of_splitPrefix? hprefix
    split at h
    · rename_i n hnatural
      obtain ⟨d, rfl, hnonempty, hsmall, -⟩ := readNatural?_eq_some hnatural
      exact ⟨.prefixed ⟨radix, capital, d, hnonempty, hsmall⟩, rfl⟩
    · exact absurd rfl h
  · split at h
    · exact absurd rfl h
    · rename_i hplain
      rw [Bool.not_eq_true] at hplain
      rw [readFloat_plain hplain] at h
      obtain ⟨sign, hsplit, -⟩ := exists_splitSign s
      cases hdecimal : readDecimal? (splitSign s).2 with
      | none =>
          rw [hdecimal] at h
          exact absurd rfl h
      | some d =>
          obtain ⟨n, rfl, hmagnitude⟩ := exists_of_readDecimal? hdecimal sign
          rw [← hmagnitude] at hsplit
          exact ⟨.decimal n, hsplit⟩

end Number

end Linewise
