import Linewise.Text.Rune

/-!
# Seven-bit controls

Output devices take the C1 controls U+0080 to U+009F in their seven-bit form: next line becomes
carriage return and line feed, every other one becomes escape and a letter. A text without C1
controls is passed on byte for byte.
-/

namespace Linewise.Ansi

/-- The bytes for a code. A code below 128, also a negative one, gives its lowest byte; a code that
is no character gives U+FFFD. -/
def ofCode (code : Int) : Text :=
  if code < 0x80 then [(code % 256).toNat.toUInt8]
  else if code = 0x85 then [13, 10]
  else if code ≤ 0x9F then [0x1B, (code - 0x40).toNat.toUInt8]
  else Rune.encode (Rune.ofCode code.toNat)

/-- The bytes for a character. -/
def ofChar (c : Char) : Text := ofCode c.toNat

/-- The controls that have a seven-bit form. -/
def isC1 (c : Char) : Bool := 0x80 ≤ c.toNat && c.toNat ≤ 0x9F

/-- A text in its seven-bit form. -/
def convert (s : Text) : Text :=
  if s.chars.any isC1 then s.chars.flatMap ofChar else s

end Linewise.Ansi
