import Linewise.Text.Rune
import Linewise.Unicode.Category

/-!
# Quoted texts

A text in double quotes, a character in single quotes. Printable characters stand for themselves;
quotes, backslashes and all else are escaped: by a letter where there is one, by two hexadecimal
digits for ASCII controls and stray bytes, by four or eight digits for other characters.
-/

namespace Linewise

namespace Unicode

/-- Letters, marks, numbers, punctuation, symbols, and the ASCII space. -/
def isPrintable (c : Char) : Bool :=
  let code := c.toNat
  if code < 0x80 then 0x20 ≤ code && code < 0x7F
  else
    Category.letters.contains code || Category.marks.contains code
      || Category.numbers.contains code || Category.punctuation.contains code
      || Category.symbols.contains code

end Unicode

namespace Quoted

/-- A hexadecimal digit, in lower case. -/
def hexDigit (n : Nat) : UInt8 := (Nat.digitChar n).toNat.toUInt8

/-- The last `width` hexadecimal digits of a number. -/
def hex : Nat → Nat → Text
  | 0, _ => []
  | width + 1, n => hex width (n / 16) ++ [hexDigit (n % 16)]

/-- The letter that escapes a control character. -/
def letter? (c : Char) : Option UInt8 :=
  match c.toNat with
  | 7 => some 97
  | 8 => some 98
  | 9 => some 116
  | 10 => some 110
  | 11 => some 118
  | 12 => some 102
  | 13 => some 114
  | _ => none

/-- A character between quotes of the given kind. -/
def escape (quote : UInt8) (c : Char) : Text :=
  if c.toNat = quote.toNat || c.toNat = 92 then 92 :: Rune.encode c
  else if Unicode.isPrintable c then Rune.encode c
  else
    match letter? c with
    | some b => [92, b]
    | none =>
      if c.toNat < 0x80 then [92, 120] ++ hex 2 c.toNat
      else if c.toNat < 0x10000 then [92, 117] ++ hex 4 c.toNat
      else [92, 85] ++ hex 8 c.toNat

/-- A rune between double quotes. -/
def escapeRune (r : Rune) : Text :=
  if r.isStray then [92, 120] ++ r.bytes.flatMap fun b => hex 2 b.toNat
  else escape 34 r.char

/-- A text in double quotes. -/
def text (s : Text) : Text := 34 :: s.runes.flatMap escapeRune ++ [34]

/-- A character in single quotes. -/
def char (c : Char) : Text := 39 :: escape 39 c ++ [39]

/-- A list of texts: each in quotes, blanks between them, brackets around them. -/
def texts (ss : List Text) : Text := 91 :: Text.join [32] (ss.map text) ++ [93]

end Quoted

end Linewise
