import Linewise.Number.Arith
import Linewise.Number.Shortest
import Linewise.Text.Basic

/-!
# Literals

What the platform reads as a number, which is more than the language takes for one. A natural number is
one or more digits of a base. A floating-point literal is decimal, or hexadecimal with a binary exponent,
or a word for infinity or not-a-number; letters are of either case, and underscores may separate digits.
-/

namespace Linewise

namespace Number

/-! ## Digits -/

/-- A decimal digit. -/
def isDigit (b : UInt8) : Bool := 48 ≤ b && b ≤ 57

/-- The value of a digit in a base up to sixteen, of either case. -/
def digitValue? (base : Nat) (b : UInt8) : Option Nat :=
  let value :=
    if isDigit b then b.toNat - 48
    else if 97 ≤ b && b ≤ 102 then b.toNat - 87
    else if 65 ≤ b && b ≤ 70 then b.toNat - 55
    else base
  if value < base then some value else none

/-- A digit of a base. -/
def isDigitOf (base : Nat) (b : UInt8) : Bool := (digitValue? base b).isSome

/-- The natural number that digits of a base write. -/
def digitsValue (base : Nat) (digits : Text) : Nat :=
  digits.foldl (fun n b => n * base + (digitValue? base b).getD 0) 0

/-- The natural number that one or more digits write, if it is below 2⁶⁴. -/
def readNatural? (base : Nat) (s : Text) : Option Nat :=
  if s.isEmpty || !s.all (isDigitOf base) then none
  else if digitsValue base s < 18446744073709551616 then some (digitsValue base s)
  else none

/-- The base that a letter after a leading zero announces. -/
def baseOf? (letter : UInt8) : Option Nat :=
  if letter = 120 || letter = 88 then some 16
  else if letter = 111 || letter = 79 then some 8
  else if letter = 98 || letter = 66 then some 2
  else none

/-! ## Floating-point literals -/

/-- Splits off a sign: whether it is a minus, and the text after it. -/
def splitSign : Text → Bool × Text
  | 43 :: rest => (false, rest)
  | 45 :: rest => (true, rest)
  | s => (false, s)

/-- A letter in lower case. -/
def lower (b : UInt8) : UInt8 := if 65 ≤ b && b ≤ 90 then b + 32 else b

/-- The value of the digits of an exponent. Digits after the value has reached ten thousand do not
count. -/
def exponentValue (digits : Text) : Nat :=
  digits.foldl (fun n b => if n < 10000 then n * 10 + (b.toNat - 48) else n) 0

/-- The exponent that a letter, a sign and digits write. -/
def readExponent? (letter : UInt8) : Text → Option Int
  | [] => none
  | b :: s =>
    if lower b = letter then
      let (negative, digits) := splitSign s
      if digits.isEmpty || !digits.all isDigit then none
      else
        let value : Int := exponentValue digits
        some (if negative then -value else value)
    else none

/-- The digits after a point, if there is a point, and the text after them. -/
def splitPlaces (base : Nat) : Text → Text × Text
  | 46 :: rest => (rest.takeWhile (isDigitOf base), rest.dropWhile (isDigitOf base))
  | s => ([], s)

/-- Digits of a base with an optional point, at least one: the number that they write without the point,
how many of them come after it, and the text after them. -/
def readMantissa? (base : Nat) (s : Text) : Option (Nat × Nat × Text) :=
  let whole := s.takeWhile (isDigitOf base)
  let (places, tail) := splitPlaces base (s.dropWhile (isDigitOf base))
  if whole.isEmpty && places.isEmpty then none
  else some (digitsValue base (whole ++ places), places.length, tail)

/-- A decimal literal without sign: digits and an optional exponent. -/
def readDecimal? (s : Text) : Option Decimal :=
  match readMantissa? 10 s with
  | none => none
  | some (coefficient, places, tail) =>
    (if tail.isEmpty then some 0 else readExponent? 101 tail).map fun exponent =>
      ⟨coefficient, exponent - places⟩

/-- The number nearest to `coefficient · 2^exponent`. -/
def ofBinary (negative : Bool) (coefficient : Nat) (exponent : Int) : Number :=
  if coefficient = 0 then zeroOf negative
  else
    match exponent with
    | .ofNat e => round negative (coefficient * Nat.pow 2 e * unitsPerOne) 1
    | .negSucc e => round negative (coefficient * unitsPerOne) (Nat.pow 2 (e + 1))

/-- A hexadecimal literal without sign and prefix: digits and a binary exponent. -/
def readHexadecimal? (negative : Bool) (s : Text) : Option Number :=
  match readMantissa? 16 s with
  | none => none
  | some (coefficient, places, tail) =>
    (readExponent? 112 tail).map fun exponent => ofBinary negative coefficient (exponent - 4 * places)

/-- A literal of digits without sign. -/
def readMagnitude? (negative : Bool) : Text → Option Number
  | 48 :: letter :: rest =>
    if lower letter = 120 then readHexadecimal? negative rest
    else (readDecimal? (48 :: letter :: rest)).map fun d => d.toNumber negative
  | s => (readDecimal? s).map fun d => d.toNumber negative

/-- What has been seen right before a byte of a literal. -/
inductive Seen where
  | digit | underscore | other
deriving DecidableEq

/-- Underscores come after a digit and before a digit, where `seen` comes before the text. -/
def underscoresFrom (base : Nat) : (seen : Seen) → Text → Bool
  | seen, [] => seen != .underscore
  | seen, b :: rest =>
    if isDigitOf base b then underscoresFrom base .digit rest
    else if b = 95 then seen == .digit && underscoresFrom base .underscore rest
    else seen != .underscore && underscoresFrom base .other rest

/-- Underscores separate digits; a prefix that announces a base counts as a digit. -/
def underscoresSeparate (s : Text) : Bool :=
  match (splitSign s).2 with
  | 48 :: letter :: rest =>
    match baseOf? letter with
    | some base => underscoresFrom (if base = 16 then 16 else 10) .digit rest
    | none => underscoresFrom 10 .other (48 :: letter :: rest)
  | s => underscoresFrom 10 .other s

/-- A word for infinity, which may have a sign, or for not-a-number. -/
def readWord? (s : Text) : Option Number :=
  let word := s.map lower
  let (negative, unsigned) := splitSign word
  if unsigned = Text.ofString "inf" ∨ unsigned = Text.ofString "infinity" then some (.infinite negative)
  else if word = Text.ofString "nan" then some .nan
  else none

/-- Why a literal does not give the number it writes. -/
inductive LiteralError where
  /-- It is no literal. -/
  | malformed
  /-- What it writes is beyond the finite numbers. -/
  | outOfRange
deriving DecidableEq, Repr

/-- What reading a literal gives. A literal that is out of range still has a value, which is infinite. -/
structure Reading where
  value : Number
  error : Option LiteralError
deriving DecidableEq, Repr

/-- Reads a floating-point literal. -/
def readFloat (s : Text) : Reading :=
  match readWord? s with
  | some x => ⟨x, none⟩
  | none =>
    let (negative, magnitude) := splitSign (s.filter (· ≠ 95))
    match if underscoresSeparate s then readMagnitude? negative magnitude else none with
    | some x => ⟨x, if x.isInfinite then some .outOfRange else none⟩
    | none => ⟨zeroOf false, some .malformed⟩

end Number

end Linewise
