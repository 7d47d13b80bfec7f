import Linewise.Text.Blank

/-!
# Reading UTF-8

How a rune is read from bytes, case by case (`Rune.first_spec`), and what follows from it: reading does
not look past an ASCII byte, so that a text can be cut before one, and a rune that is not stray is the
encoding of its character, so that a well-formed text is determined by its characters. The other way
round, the encoding of a character is read as that character whatever follows it (`Rune.first_encode`), so
that characters come back from the text that they make up.
-/

namespace Linewise

namespace Rune

theorem isContinuation_iff (b : UInt8) : isContinuation b = true ↔ 0x80 ≤ b.toNat ∧ b.toNat < 0xC0 := by
  simp [isContinuation, UInt8.le_iff_toNat_le, UInt8.lt_iff_toNat_lt]

/-- The ways in which a rune can begin with a byte. -/
inductive First (b : UInt8) : Text → Char × Nat → Prop
  | ascii {rest : Text} (h : b.toNat < 0x80) : First b rest (Char.ofNat b.toNat, 0)
  | two {c : UInt8} {rest : Text} (hb : 0xC2 ≤ b.toNat ∧ b.toNat < 0xE0)
      (hc : isContinuation c = true) :
      First b (c :: rest) (Char.ofNat ((b.toNat - 0xC0) * 64 + payload c), 1)
  | three {c d : UInt8} {rest : Text} {code : Nat} (hb : 0xE0 ≤ b.toNat ∧ b.toNat < 0xF0)
      (hcode : code = (b.toNat - 0xE0) * 4096 + payload c * 64 + payload d)
      (hc : isContinuation c = true) (hd : isContinuation d = true) (hlow : 0x800 ≤ code)
      (hvalid : code.isValidChar) : First b (c :: d :: rest) (Char.ofNat code, 2)
  | four {c d e : UInt8} {rest : Text} {code : Nat} (hb : 0xF0 ≤ b.toNat ∧ b.toNat < 0xF5)
      (hcode : code = (b.toNat - 0xF0) * 262144 + payload c * 4096 + payload d * 64 + payload e)
      (hc : isContinuation c = true) (hd : isContinuation d = true) (he : isContinuation e = true)
      (hlow : 0x10000 ≤ code) (hvalid : code.isValidChar) :
      First b (c :: d :: e :: rest) (Char.ofNat code, 3)
  | stray {rest : Text} (h : 0x80 ≤ b.toNat) : First b rest (replacement, 0)

theorem toNat_range {b lo hi : UInt8} (h : (decide (lo ≤ b) && decide (b < hi)) = true) :
    lo.toNat ≤ b.toNat ∧ b.toNat < hi.toNat := by
  simpa [UInt8.le_iff_toNat_le, UInt8.lt_iff_toNat_lt] using h

theorem first_spec (b : UInt8) (rest : Text) : First b rest (first b rest) := by
  by_cases hascii : b < 0x80
  · unfold first
    rw [if_pos hascii]
    exact .ascii (UInt8.lt_iff_toNat_lt.mp hascii)
  · have hb : 0x80 ≤ b.toNat := Nat.le_of_not_lt fun h => hascii (UInt8.lt_iff_toNat_lt.mpr h)
    have hstray : First b rest (replacement, 0) := .stray hb
    unfold first
    rw [if_neg hascii]
    split
    · rename_i htwo
      split
      · split
        · rename_i hc
          exact .two (toNat_range htwo) hc
        · exact hstray
      · exact hstray
    · split
      · rename_i hthree
        split
        · dsimp only
          split
          · rename_i hall
            simp only [Bool.and_eq_true, decide_eq_true_eq] at hall
            obtain ⟨⟨⟨hc, hd⟩, hlow⟩, hvalid⟩ := hall
            exact .three (toNat_range hthree) rfl hc hd hlow hvalid
          · exact hstray
        · exact hstray
      · split
        · rename_i hfour
          split
          · dsimp only
            split
            · rename_i hall
              simp only [Bool.and_eq_true, decide_eq_true_eq] at hall
              obtain ⟨⟨⟨⟨hc, hd⟩, he⟩, hlow⟩, hvalid⟩ := hall
              exact .four (toNat_range hfour) rfl hc hd he hlow hvalid
            · exact hstray
          · exact hstray
        · exact hstray

theorem first_le_length (b : UInt8) (rest : Text) : (first b rest).2 ≤ rest.length := by
  generalize h : first b rest = r
  have hfirst := first_spec b rest
  rw [h] at hfirst
  cases hfirst <;> simp

/-- A byte of seven bits continues no rune. -/
theorem isContinuation_ascii {a : UInt8} (h : a < 0x80) : isContinuation a = false := by
  have ha : a.toNat < 0x80 := UInt8.lt_iff_toNat_lt.mp h
  rw [← Bool.not_eq_true, isContinuation_iff]
  omega

/-- A rune ends before an ASCII byte. -/
theorem first_append_ascii (b : UInt8) (rest : Text) {a : UInt8} (ha : a < 0x80) (tail : Text) :
    first b (rest ++ a :: tail) = first b rest := by
  have hstop := isContinuation_ascii ha
  -- no rune has more than three bytes after its first
  rcases rest with _ | ⟨c, _ | ⟨d, _ | ⟨e, rest⟩⟩⟩
  · rcases tail with _ | ⟨t, _ | ⟨u, tail⟩⟩ <;> simp [first, hstop]
  · rcases tail with _ | ⟨t, tail⟩ <;> simp [first, hstop]
  · simp [first, hstop]
  · simp [first]

/-! ## Encoding what was read -/

theorem toNat_val_ofNat {n : Nat} (h : n.isValidChar) : (Char.ofNat n).val.toNat = n := by
  rw [Char.ofNat, dif_pos h]
  rfl

theorem ofNat_eq {n : Nat} {b : UInt8} (h : n = b.toNat) : UInt8.ofNat n = b := by
  rw [h, UInt8.ofNat_toNat]

theorem encode_one {n : Nat} (h : n ≤ 0x7f) : encode (Char.ofNat n) = [UInt8.ofNat n] := by
  have hvalid : n.isValidChar := .inl (by omega)
  rw [encode, String.utf8EncodeChar, toNat_val_ofNat hvalid, if_pos h]

theorem encode_two {n : Nat} (hlow : 0x80 ≤ n) (h : n ≤ 0x7ff) :
    encode (Char.ofNat n) = [UInt8.ofNat (n / 64 % 0x20 + 0xc0), UInt8.ofNat (n % 0x40 + 0x80)] := by
  have hvalid : n.isValidChar := .inl (by omega)
  rw [encode, String.utf8EncodeChar, toNat_val_ofNat hvalid, if_neg (by omega), if_pos h]

theorem encode_three {n : Nat} (hvalid : n.isValidChar) (hlow : 0x800 ≤ n) (h : n ≤ 0xffff) :
    encode (Char.ofNat n) = [UInt8.ofNat (n / 4096 % 0x10 + 0xe0), UInt8.ofNat (n / 64 % 0x40 + 0x80),
      UInt8.ofNat (n % 0x40 + 0x80)] := by
  rw [encode, String.utf8EncodeChar, toNat_val_ofNat hvalid, if_neg (by omega), if_neg (by omega),
    if_pos h]

theorem encode_four {n : Nat} (hvalid : n.isValidChar) (hlow : 0x10000 ≤ n) :
    encode (Char.ofNat n) = [UInt8.ofNat (n / 262144 % 0x08 + 0xf0), UInt8.ofNat (n / 4096 % 0x40 + 0x80),
      UInt8.ofNat (n / 64 % 0x40 + 0x80), UInt8.ofNat (n % 0x40 + 0x80)] := by
  rw [encode, String.utf8EncodeChar, toNat_val_ofNat hvalid, if_neg (by omega), if_neg (by omega),
    if_neg (by omega)]

/-- A rune that is not stray is the encoding of its character. -/
theorem encode_first {b : UInt8} {rest : Text} {r : Char × Nat} (h : First b rest r)
    (hstray : isStray ⟨r.1, b :: rest.take r.2⟩ = false) : encode r.1 = b :: rest.take r.2 := by
  cases h with
  | ascii h =>
      rw [encode_one (by omega), ofNat_eq rfl]
      rfl
  | @two c rest hb hc =>
      rw [isContinuation_iff] at hc
      show encode (Char.ofNat ((b.toNat - 0xC0) * 64 + payload c)) = [b, c]
      simp only [payload]
      rw [encode_two (by omega) (by omega), ofNat_eq (b := b) (by omega), ofNat_eq (b := c) (by omega)]
  | @three c d rest code hb hcode hc hd hlow hvalid =>
      rw [isContinuation_iff] at hc hd
      simp only [payload] at hcode
      show encode (Char.ofNat code) = [b, c, d]
      rw [encode_three hvalid hlow (by omega), ofNat_eq (b := b) (by omega), ofNat_eq (b := c) (by omega),
        ofNat_eq (b := d) (by omega)]
  | @four c d e rest code hb hcode hc hd he hlow hvalid =>
      rw [isContinuation_iff] at hc hd he
      simp only [payload] at hcode
      show encode (Char.ofNat code) = [b, c, d, e]
      rw [encode_four hvalid hlow, ofNat_eq (b := b) (by omega), ofNat_eq (b := c) (by omega),
        ofNat_eq (b := d) (by omega), ofNat_eq (b := e) (by omega)]
  | stray h => cases hstray

/-! ## Reading what was encoded -/

/-- What begins a rune is read as it. -/
theorem first_eq {b : UInt8} {rest : Text} {r : Char × Nat} (h : First b rest r)
    (hr : b.toNat < 0x80 ∨ 0 < r.2) : first b rest = r := by
  unfold first
  simp only [UInt8.lt_iff_toNat_lt, UInt8.le_iff_toNat_le, UInt8.reduceToNat, Bool.and_eq_true,
    decide_eq_true_eq]
  cases h with
  | ascii h => rw [if_pos h]
  | two hb hc =>
      rw [if_neg (by omega), if_pos hb]
      exact if_pos hc
  | three hb hcode hc hd hlow hvalid =>
      rw [if_neg (by omega), if_neg (by omega), if_pos hb]
      subst hcode
      exact if_pos ⟨⟨⟨hc, hd⟩, hlow⟩, hvalid⟩
  | four hb hcode hc hd he hlow hvalid =>
      rw [if_neg (by omega), if_neg (by omega), if_neg (by omega), if_pos hb]
      subst hcode
      exact if_pos ⟨⟨⟨⟨hc, hd⟩, he⟩, hlow⟩, hvalid⟩
  | stray h => omega

theorem isContinuation_ofNat (k : Nat) : isContinuation (UInt8.ofNat (k % 0x40 + 0x80)) = true := by
  have hsmall : k % 0x40 + 0x80 < UInt8.size := show _ < 256 by omega
  rw [isContinuation_iff, UInt8.toNat_ofNat_of_lt' hsmall]
  omega

theorem payload_ofNat (k : Nat) : payload (UInt8.ofNat (k % 0x40 + 0x80)) = k % 0x40 := by
  have hsmall : k % 0x40 + 0x80 < UInt8.size := show _ < 256 by omega
  rw [payload, UInt8.toNat_ofNat_of_lt' hsmall]
  omega

/-- The encoding of a character is read as that character, whatever follows. -/
theorem first_encode (c : Char) : ∃ b rest, encode c = b :: rest ∧
    ∀ tail, first b (rest ++ tail) = (c, rest.length) := by
  have hvalid : c.toNat.isValidChar := c.valid
  rw [← Char.ofNat_toNat c]
  generalize c.toNat = n at hvalid ⊢
  have hbound : n < 0x110000 := by rcases hvalid with h | h <;> omega
  by_cases hone : n ≤ 0x7f
  · refine ⟨_, _, encode_one hone, fun tail => ?_⟩
    have hb : (UInt8.ofNat n).toNat = n := UInt8.toNat_ofNat_of_lt' (show n < 256 by omega)
    have hread : First (UInt8.ofNat n) tail (Char.ofNat (UInt8.ofNat n).toNat, 0) := .ascii (by omega)
    rw [hb] at hread
    exact first_eq hread (.inl (by omega))
  by_cases htwo : n ≤ 0x7ff
  · refine ⟨_, _, encode_two (by omega) htwo, fun tail => first_eq ?_ (.inr Nat.zero_lt_one)⟩
    have hb : (UInt8.ofNat (n / 64 % 0x20 + 0xc0)).toNat = n / 64 + 0xc0 := by
      rw [UInt8.toNat_ofNat_of_lt' (show _ < 256 by omega)]
      omega
    have hread : First (UInt8.ofNat (n / 64 % 0x20 + 0xc0)) (UInt8.ofNat (n % 0x40 + 0x80) :: tail) _ :=
      .two (by omega) (isContinuation_ofNat n)
    rwa [hb, payload_ofNat, show (n / 64 + 0xc0 - 0xC0) * 64 + n % 0x40 = n by omega] at hread
  by_cases hthree : n ≤ 0xffff
  · refine ⟨_, _, encode_three hvalid (by omega) hthree, fun tail => first_eq ?_ (.inr Nat.zero_lt_two)⟩
    have hb : (UInt8.ofNat (n / 4096 % 0x10 + 0xe0)).toNat = n / 4096 + 0xe0 := by
      rw [UInt8.toNat_ofNat_of_lt' (show _ < 256 by omega)]
      omega
    have hcode : n = (n / 4096 + 0xe0 - 0xE0) * 4096 + n / 64 % 0x40 * 64 + n % 0x40 := by omega
    exact .three (by omega) (by rwa [hb, payload_ofNat, payload_ofNat]) (isContinuation_ofNat _)
      (isContinuation_ofNat n) (by omega) hvalid
  · refine ⟨_, _, encode_four hvalid (by omega), fun tail => first_eq ?_ (.inr (Nat.zero_lt_succ 2))⟩
    have hb : (UInt8.ofNat (n / 262144 % 0x08 + 0xf0)).toNat = n / 262144 + 0xf0 := by
      rw [UInt8.toNat_ofNat_of_lt' (show _ < 256 by omega)]
      omega
    have hcode : n = (n / 262144 + 0xf0 - 0xF0) * 262144 + n / 4096 % 0x40 * 4096
        + n / 64 % 0x40 * 64 + n % 0x40 := by omega
    exact .four (by omega) (by rwa [hb, payload_ofNat, payload_ofNat, payload_ofNat])
      (isContinuation_ofNat _) (isContinuation_ofNat _) (isContinuation_ofNat n) (by omega) hvalid

end Rune

namespace Text

open Rune

/-! ## Cutting a text before an ASCII byte -/

theorem runesFrom_zero (b : UInt8) (rest : Text) :
    runesFrom 0 (b :: rest)
      = ⟨(first b rest).1, b :: rest.take (first b rest).2⟩ :: runesFrom (first b rest).2 rest := rfl

theorem runesFrom_append_ascii {a : UInt8} (ha : a < 0x80) (tail : Text) (s : Text) :
    ∀ skip ≤ s.length, runesFrom skip (s ++ a :: tail) = runesFrom skip s ++ runes (a :: tail) := by
  induction s with
  | nil =>
      intro skip hskip
      have hzero : skip = 0 := Nat.le_zero.mp hskip
      subst hzero
      rfl
  | cons b rest ih =>
      intro skip hskip
      cases skip with
      | succ skip => exact ih skip (Nat.le_of_succ_le_succ hskip)
      | zero =>
          have hlength := first_le_length b rest
          have hmore := ih (first b rest).2 hlength
          rw [List.cons_append, runesFrom_zero, runesFrom_zero, first_append_ascii b rest ha,
            List.take_append_of_le_length hlength, hmore]
          rfl

/-- Reading a text does not look past an ASCII byte. -/
theorem runes_append_ascii {a : UInt8} (ha : a < 0x80) (s tail : Text) :
    runes (s ++ a :: tail) = runes s ++ runes (a :: tail) :=
  runesFrom_append_ascii ha tail s 0 (Nat.zero_le _)

/-- An ASCII byte is a rune of its own. -/
theorem runes_cons_ascii {a : UInt8} (ha : a < 0x80) (s : Text) :
    runes (a :: s) = ⟨Char.ofNat a.toNat, [a]⟩ :: runes s := by
  have hfirst : first a s = (Char.ofNat a.toNat, 0) := by
    unfold first
    rw [if_pos ha]
  rw [runes, runesFrom_zero, hfirst]
  rfl

/-! ## Texts and their characters -/

theorem encode_of_mem_runesFrom (s : Text) : ∀ skip, (∀ r ∈ runesFrom skip s, r.isStray = false) →
    ∀ r ∈ runesFrom skip s, encode r.char = r.bytes := by
  induction s with
  | nil => exact fun skip _ r hr => by cases skip <;> cases hr
  | cons b rest ih =>
      intro skip hstray
      cases skip with
      | succ skip => exact ih skip hstray
      | zero =>
          intro r hr
          rw [runesFrom_zero] at hr hstray
          rcases List.mem_cons.mp hr with rfl | hr
          · exact encode_first (first_spec b rest) (hstray _ List.mem_cons_self)
          · exact ih _ (fun r hr => hstray r (List.mem_cons_of_mem _ hr)) r hr

/-- A well-formed text consists of the encodings of its characters. -/
theorem ofChars_chars {s : Text} (h : s.isWellFormed = true) : ofChars s.chars = s := by
  have hstray : ∀ r ∈ s.runes, r.isStray = false := by simpa [isWellFormed] using h
  have hencode : ∀ r ∈ s.runes, encode r.char = r.bytes := encode_of_mem_runesFrom s 0 hstray
  calc ofChars s.chars = s.runes.flatMap fun r => encode r.char := by
        rw [ofChars, chars, List.flatMap_map]
    _ = s.runes.flatMap Rune.bytes := by
        rw [List.flatMap_def, List.flatMap_def, List.map_congr_left hencode]
    _ = s := flatten_runes s

/-! ## Characters and their texts -/

theorem runesFrom_length_append (s tail : Text) : runesFrom s.length (s ++ tail) = runes tail := by
  induction s with
  | nil => cases tail <;> rfl
  | cons b rest ih => exact ih

/-- The encoding of a character is a rune of its own. -/
theorem runes_encode_append (c : Char) (tail : Text) :
    runes (encode c ++ tail) = Rune.ofChar c :: runes tail := by
  obtain ⟨b, rest, hencode, hfirst⟩ := first_encode c
  rw [hencode, List.cons_append, runes, runesFrom_zero, hfirst, runesFrom_length_append, Rune.ofChar,
    hencode, List.take_left]

/-- Characters are read back from their encodings. -/
theorem runes_ofChars (cs : List Char) : (ofChars cs).runes = cs.map Rune.ofChar := by
  induction cs with
  | nil => rfl
  | cons c cs ih =>
      rw [ofChars, List.flatMap_cons, runes_encode_append]
      exact congrArg _ ih

theorem chars_ofChars (cs : List Char) : (ofChars cs).chars = cs := by
  rw [chars, runes_ofChars, List.map_map]
  exact List.map_id cs

end Text

end Linewise
