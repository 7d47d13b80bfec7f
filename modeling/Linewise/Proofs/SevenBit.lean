import Linewise.Proofs.Utf8
import Linewise.Text.Ansi

/-!
# Output without C1 controls

Every character is written as one or two characters that are no C1 controls (`Ansi.written`), and the
characters of a converted text are these, one after the other (`Ansi.chars_convert`): so what has been
converted stays as it is. A text is converted character by character only if it has a C1 control, since
all others are passed on. That comes to the same for well-formed texts; a stray byte, which reads as
U+FFFD, is passed on as it is unless there is a C1 control somewhere in the text.
-/

namespace Linewise.Ansi

open Text

/-- The characters that a character is written as. -/
def written (c : Char) : List Char :=
  if c.toNat = 0x85 then ['\r', '\n']
  else if isC1 c then ['\x1b', Char.ofNat (c.toNat - 0x40)]
  else [c]

theorem isC1_iff (c : Char) : isC1 c = true ↔ 0x80 ≤ c.toNat ∧ c.toNat ≤ 0x9F := by
  simp [isC1]

theorem written_of_not_isC1 {c : Char} (h : isC1 c = false) : written c = [c] := by
  have hnext : c.toNat ≠ 0x85 := by
    intro heq
    rw [← Bool.not_eq_true, isC1_iff] at h
    omega
  rw [written, if_neg hnext, h]
  rfl

theorem ofCode_toNat (c : Char) : Rune.ofCode c.toNat = c := by
  have hvalid : c.toNat.isValidChar := c.valid
  rw [Rune.ofCode, if_pos hvalid, Char.ofNat_toNat]

/-- The bytes for a character are the text of what it is written as. -/
theorem ofChar_eq (c : Char) : ofChar c = ofChars (written c) := by
  by_cases hascii : c.toNat < 0x80
  · have hplain : isC1 c = false := by
      rw [← Bool.not_eq_true, isC1_iff]
      omega
    have hcode : ((c.toNat : Int) % 256).toNat = c.toNat := by omega
    have hencode : Rune.encode c = [UInt8.ofNat c.toNat] := by
      rw [← Rune.encode_one (by omega), Char.ofNat_toNat]
    rw [written_of_not_isC1 hplain, ofChar, ofCode, if_pos (by omega), hcode, ofChars,
      List.flatMap_singleton, hencode]
  by_cases hnext : c.toNat = 0x85
  · rw [written, if_pos hnext, ofChar, hnext]
    rfl
  by_cases hcontrol : c.toNat ≤ 0x9F
  · have hc1 : isC1 c = true := (isC1_iff c).mpr ⟨by omega, hcontrol⟩
    have hcode : ((c.toNat : Int) - 0x40).toNat = c.toNat - 0x40 := by omega
    have hletter : Rune.encode (Char.ofNat (c.toNat - 0x40)) = [UInt8.ofNat (c.toNat - 0x40)] :=
      Rune.encode_one (by omega)
    rw [written, if_neg hnext, if_pos hc1, ofChar, ofCode, if_neg (by omega), if_neg (by omega),
      if_pos (by omega), hcode, ofChars, List.flatMap_cons, List.flatMap_singleton, hletter]
    rfl
  · have hplain : isC1 c = false := by
      rw [← Bool.not_eq_true, isC1_iff]
      omega
    rw [written_of_not_isC1 hplain, ofChar, ofCode, if_neg (by omega), if_neg (by omega),
      if_neg (by omega), Int.toNat_natCast, ofCode_toNat, ofChars, List.flatMap_singleton]

/-- No character is written as a C1 control. -/
theorem isC1_of_mem_written {c d : Char} (h : d ∈ written c) : isC1 d = false := by
  unfold written at h
  split at h
  · rcases List.mem_cons.mp h with rfl | hfeed
    · rfl
    · rw [List.mem_singleton.mp hfeed]
      rfl
  · split at h
    · rename_i hc1
      rw [isC1_iff] at hc1
      rcases List.mem_cons.mp h with rfl | hletter
      · rfl
      · -- U+0080 to U+009F go down by 64, below the controls
        have hvalid : (c.toNat - 0x40).isValidChar := .inl (by omega)
        have hcode : (Char.ofNat (c.toNat - 0x40)).toNat = c.toNat - 0x40 := Rune.toNat_val_ofNat hvalid
        rw [List.mem_singleton.mp hletter, ← Bool.not_eq_true, isC1_iff, hcode]
        omega
    · rename_i hc1
      rw [List.mem_singleton.mp h]
      exact Bool.eq_false_iff.mpr hc1

/-! ## Whole texts -/

theorem flatMap_ofChar (cs : List Char) : cs.flatMap ofChar = ofChars (cs.flatMap written) := by
  rw [ofChars, List.flatMap_assoc]
  exact congrArg (List.flatMap · cs) (funext ofChar_eq)

theorem convert_of_isC1 {s : Text} (h : s.chars.any isC1 = true) :
    convert s = ofChars (s.chars.flatMap written) := by
  rw [convert, if_pos h, flatMap_ofChar]

theorem convert_of_not_isC1 {s : Text} (h : s.chars.any isC1 = false) : convert s = s := by
  rw [convert, h]
  rfl

theorem flatMap_written_of_not_isC1 {cs : List Char} (h : cs.any isC1 = false) :
    cs.flatMap written = cs := by
  rw [List.any_eq_false] at h
  induction cs with
  | nil => rfl
  | cons c cs ih =>
      have hc : isC1 c = false := Bool.eq_false_iff.mpr (h c List.mem_cons_self)
      rw [List.flatMap_cons, written_of_not_isC1 hc, ih fun d hd => h d (List.mem_cons_of_mem _ hd)]
      rfl

/-- The characters of a converted text are what those of the text are written as, whether it has been
converted character by character or passed on. -/
theorem chars_convert (s : Text) : (convert s).chars = s.chars.flatMap written := by
  cases h : s.chars.any isC1 with
  | true => rw [convert_of_isC1 h, chars_ofChars]
  | false => rw [convert_of_not_isC1 h, flatMap_written_of_not_isC1 h]

theorem isC1_of_mem_convert {s : Text} {c : Char} (h : c ∈ (convert s).chars) : isC1 c = false := by
  rw [chars_convert] at h
  obtain ⟨_, -, hc⟩ := List.mem_flatMap.mp h
  exact isC1_of_mem_written hc

/-- A converted text has no C1 control, so that converting it once more changes nothing. -/
theorem convert_normal (s : Text) :
    (∀ c ∈ (convert s).chars, ¬ (0x80 ≤ c.toNat ∧ c.toNat ≤ 0x9F)) ∧ convert (convert s) = convert s := by
  refine ⟨fun c hc hcontrol => ?_, convert_of_not_isC1 ?_⟩
  · rw [← isC1_iff, isC1_of_mem_convert hc] at hcontrol
    cases hcontrol
  · rw [List.any_eq_false]
    intro c hc
    rw [isC1_of_mem_convert hc]
    exact Bool.false_ne_true

/-! ## Stray bytes -/

/-- The text of characters has no stray bytes: U+FFFD takes three. -/
theorem isWellFormed_ofChars (cs : List Char) : (ofChars cs).isWellFormed = true := by
  rw [isWellFormed, runes_ofChars, List.all_map, List.all_eq_true]
  intro c _
  by_cases hc : c = Rune.replacement
  · subst hc
    rfl
  · simp [Rune.isStray, Rune.ofChar, hc]

theorem ofChars_chars_iff {s : Text} : ofChars s.chars = s ↔ s.isWellFormed = true :=
  ⟨fun h => h ▸ isWellFormed_ofChars s.chars, ofChars_chars⟩

/-- Converting a text gives the bytes for its characters, one after the other, exactly if a C1 control is
among them or no byte is stray. -/
theorem convert_eq_flatMap_iff (s : Text) :
    convert s = s.chars.flatMap ofChar ↔ s.chars.any isC1 = true ∨ s.isWellFormed = true := by
  cases h : s.chars.any isC1 with
  | true => simp [convert_of_isC1 h, flatMap_ofChar]
  | false =>
      rw [convert_of_not_isC1 h, flatMap_ofChar, flatMap_written_of_not_isC1 h, eq_comm,
        ofChars_chars_iff]
      simp

/-- The eight-bit form of a control, which is no character by itself, is passed on as it is. -/
theorem not_convert_eq_flatMap :
    ¬ ∀ s : Text, convert s = s.chars.flatMap ofChar := by
  intro h
  have heq : convert [0x9B] = [0xEF, 0xBF, 0xBD] := h [0x9B]
  exact absurd heq (by decide)

end Linewise.Ansi
