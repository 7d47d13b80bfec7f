import Linewise.Text.Rune

/-!
# Blanks

The characters that separate words are those with the Unicode property White_Space. Words are the
longest pieces of a text without a blank.
-/

namespace Linewise

namespace Rune

/-- The characters with the property White_Space. -/
def isBlank (r : Rune) : Bool :=
  let code := r.char.toNat
  (9 ≤ code && code ≤ 13) || code = 0x20 || code = 0x85 || code = 0xA0 || code = 0x1680
    || (0x2000 ≤ code && code ≤ 0x200A) || code = 0x2028 || code = 0x2029 || code = 0x202F
    || code = 0x205F || code = 0x3000

end Rune

namespace Text

/-- The pieces between the blanks; there is always at least one piece, and some may be empty. -/
def splitBlanks : List Rune → List Text
  | [] => [[]]
  | r :: rest =>
    if r.isBlank then [] :: splitBlanks rest
    else
      match splitBlanks rest with
      | [] => [r.bytes]
      | piece :: pieces => (r.bytes ++ piece) :: pieces

theorem splitBlanks_ne_nil (rs : List Rune) : splitBlanks rs ≠ [] := by
  cases rs with
  | nil => nofun
  | cons r rest =>
    rw [splitBlanks]
    split
    · nofun
    · split <;> nofun

/-- The words of a text, in order. -/
def words (s : Text) : List Text := (splitBlanks s.runes).filter fun piece => !piece.isEmpty

/-- A text without the blanks at its two ends. -/
def trim (s : Text) : Text :=
  ofRunes ((s.runes.dropWhile Rune.isBlank).reverse.dropWhile Rune.isBlank).reverse

end Text

end Linewise
