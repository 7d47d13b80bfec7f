import Linewise.Text.Basic

/-!
# Runes

A text is read as a list of runes: characters together with the bytes they were read from. A byte
that begins no well-formed UTF-8 sequence is a rune of its own and reads as U+FFFD, so reading never
fails and never loses a byte: `Text.flatten_runes`.
-/

namespace Linewise

/-- A character and the bytes it was read from. -/
structure Rune where
  /-- The character, U+FFFD for a byte that is not part of a well-formed sequence. -/
  char : Char
  /-- The bytes in the text. -/
  bytes : Text
deriving DecidableEq, Repr

namespace Rune

/-- The character that ill-formed bytes read as. -/
def replacement : Char := Char.ofNat 0xFFFD

/-- The UTF-8 bytes of a character. -/
def encode (c : Char) : Text := String.utf8EncodeChar c

/-- The rune of a character in its own encoding. -/
def ofChar (c : Char) : Rune := ⟨c, encode c⟩

/-- The character with this code point; what is no code point, or half of a surrogate pair, gives
U+FFFD. -/
def ofCode (code : Nat) : Char := if code.isValidChar then Char.ofNat code else replacement

/-- A rune read from a byte outside of any well-formed sequence. -/
def isStray (r : Rune) : Bool := r.char = replacement && r.bytes.length = 1

/-- A byte of the form `10xxxxxx`. -/
def isContinuation (b : UInt8) : Bool := 0x80 ≤ b && b < 0xC0

/-- The six payload bits of a continuation byte. -/
def payload (b : UInt8) : Nat := b.toNat % 64

/-- The character that starts with byte `b` when `rest` follows, and how many bytes of `rest` belong
to it. Overlong forms, surrogates and code points above U+10FFFF are ill-formed. -/
def first (b : UInt8) (rest : Text) : Char × Nat :=
  if b < 0x80 then (Char.ofNat b.toNat, 0)
  else if 0xC2 ≤ b && b < 0xE0 then
    match rest with
    | c :: _ =>
      if isContinuation c then (Char.ofNat ((b.toNat - 0xC0) * 64 + payload c), 1)
      else (replacement, 0)
    | _ => (replacement, 0)
  else if 0xE0 ≤ b && b < 0xF0 then
    match rest with
    | c :: d :: _ =>
      let code := (b.toNat - 0xE0) * 4096 + payload c * 64 + payload d
      if isContinuation c && isContinuation d && 0x800 ≤ code && code.isValidChar then
        (Char.ofNat code, 2)
      else (replacement, 0)
    | _ => (replacement, 0)
  else if 0xF0 ≤ b && b < 0xF5 then
    match rest with
    | c :: d :: e :: _ =>
      let code := (b.toNat - 0xF0) * 262144 + payload c * 4096 + payload d * 64 + payload e
      if isContinuation c && isContinuation d && isContinuation e && 0x10000 ≤ code
          && code.isValidChar then
        (Char.ofNat code, 3)
      else (replacement, 0)
    | _ => (replacement, 0)
  else (replacement, 0)

end Rune

namespace Text

/-- The runes of a text after its first `skip` bytes, which belong to a rune already read. -/
def runesFrom : Nat → Text → List Rune
  | _, [] => []
  | skip + 1, _ :: rest => runesFrom skip rest
  | 0, b :: rest =>
    let (c, more) := Rune.first b rest
    ⟨c, b :: rest.take more⟩ :: runesFrom more rest

/-- The runes of a text. -/
def runes (s : Text) : List Rune := runesFrom 0 s

/-- The text that the runes were read from. -/
def ofRunes (rs : List Rune) : Text := rs.flatMap Rune.bytes

/-- The characters of a text. -/
def chars (s : Text) : List Char := s.runes.map Rune.char

/-- The UTF-8 bytes of a list of characters. -/
def ofChars (cs : List Char) : Text := cs.flatMap Rune.encode

/-- A text is well-formed when none of its bytes is stray. -/
def isWellFormed (s : Text) : Bool := s.runes.all fun r => !r.isStray

theorem flatten_runesFrom (skip : Nat) (s : Text) : ofRunes (runesFrom skip s) = s.drop skip := by
  induction s generalizing skip with
  | nil => simp [runesFrom, ofRunes]
  | cons b rest ih =>
    cases skip with
    | succ skip => simpa [runesFrom] using ih skip
    | zero =>
      have h := ih (Rune.first b rest).2
      simp only [ofRunes] at h
      simp [runesFrom, ofRunes, h]

/-- Reading a text as runes loses nothing. -/
@[simp] theorem flatten_runes (s : Text) : ofRunes s.runes = s := by
  simpa [runes] using flatten_runesFrom 0 s

end Text

end Linewise
