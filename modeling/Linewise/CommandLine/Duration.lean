import Linewise.Number.Arith
import Linewise.Text.Quoted

/-!
# Durations

A duration is written as decimal numbers with units, such as `1h30m` or `-1.5s`, one after the other,
with one sign in front. It counts nanoseconds, has to fit 64 bits with a sign, and is added up in 64
bits.
-/

namespace Linewise.Duration

/-- Why a text is no duration. -/
inductive ReadError where
  | invalid (text : Text)
  | missingUnit (text : Text)
  | unknownUnit (unit text : Text)
deriving DecidableEq, Repr

/-- A text in double quotes. Bytes outside of printable ASCII are given by two hexadecimal digits. -/
def quote (s : Text) : Text :=
  34 :: s.flatMap escape ++ [34]
where
  escape (b : UInt8) : Text :=
    if b ≥ 0x80 || b < 32 then [92, 120] ++ Quoted.hex 2 b.toNat
    else if b = 34 || b = 92 then [92, b]
    else [b]

namespace ReadError

def message : ReadError → Text
  | .invalid text => Text.ofString "time: invalid duration " ++ quote text
  | .missingUnit text => Text.ofString "time: missing unit in duration " ++ quote text
  | .unknownUnit unit text =>
    Text.ofString "time: unknown unit " ++ quote unit ++ Text.ofString " in duration " ++ quote text

end ReadError

/-- The units by name, in nanoseconds. The letter before `s` for millionths may be `u` or either
form of mu. -/
def unit? (name : Text) : Option Nat :=
  ([("ns", 1), ("us", 1000), ("\u00b5s", 1000), ("\u03bcs", 1000), ("ms", 1000000),
    ("s", 1000000000), ("m", 60000000000), ("h", 3600000000000)] : List (Text × Nat)).lookup name

def isDigit (b : UInt8) : Bool := 48 ≤ b && b ≤ 57

/-- The value of decimal digits. -/
def digitsValue (digits : Text) : Nat := digits.foldl (fun n b => 10 * n + (b.toNat - 48)) 0

/-- More nanoseconds than this do not fit. -/
def limit : Nat := 9223372036854775808

/-- Reads the number in front of a text: its whole digits, its digits after the point, and what
follows. -/
def readNumber (s : Text) : Text × Text × Text :=
  let whole := s.takeWhile isDigit
  match s.dropWhile isDigit with
  | 46 :: rest => (whole, rest.takeWhile isDigit, rest.dropWhile isDigit)
  | rest => (whole, [], rest)

/-- A fraction: its digits as a whole number, and the power of ten to divide it by. -/
structure Fraction where
  digits : Nat
  scale : Number

namespace Fraction

/-- Reads the digits of a fraction as long as their value stays within 64 bits. -/
def ofDigits (f : Fraction) : Text → Fraction
  | [] => f
  | b :: rest =>
    let digits := f.digits * 10 + (b.toNat - 48)
    if f.digits > (limit - 1) / 10 || digits > limit then f
    else ofDigits ⟨digits, f.scale * 10⟩ rest

/-- The whole nanoseconds of a fraction of a unit, by way of numbers. -/
def nanoseconds (f : Fraction) (unit : Nat) : Nat :=
  if f.digits = 0 then 0
  else ((Number.ofNat f.digits * (Number.ofNat unit / f.scale)).index?.getD 0).toNat

end Fraction

/-- Reads the parts of a duration and adds them to `sum`. `text` is the whole duration, and `count`
bounds the parts. -/
def readParts (text : Text) : (count : Nat) → (sum : Nat) → Text → Except ReadError Nat
  | 0, sum, _ => .ok sum
  | _, sum, [] => .ok sum
  | count + 1, sum, s => do
    let (whole, fraction, rest) := readNumber s
    if whole.isEmpty && fraction.isEmpty then throw (.invalid text)
    if digitsValue whole > limit then throw (.invalid text)
    let isUnit (b : UInt8) : Bool := !(isDigit b || b = 46)
    let name := rest.takeWhile isUnit
    if name.isEmpty then throw (.missingUnit text)
    match unit? name with
    | none => throw (.unknownUnit name text)
    | some unit =>
      if digitsValue whole > limit / unit then throw (.invalid text)
      let part :=
        digitsValue whole * unit + (Fraction.ofDigits ⟨0, 1⟩ fraction).nanoseconds unit
      if part > limit then throw (.invalid text)
      let sum := (sum + part) % (2 * limit)
      if sum > limit then throw (.invalid text)
      readParts text count sum (rest.dropWhile isUnit)

/-- The sign in front of a text, and the rest. -/
def readSign : Text → Bool × Text
  | 45 :: rest => (true, rest)
  | 43 :: rest => (false, rest)
  | s => (false, s)

/-- Reads a duration, in nanoseconds. -/
def read (text : Text) : Except ReadError Int := do
  let (negative, s) := readSign text
  if s = [48] then return 0
  if s.isEmpty then throw (.invalid text)
  let n ← readParts text s.length 0 s
  if negative then return -n
  if n ≥ limit then throw (.invalid text)
  return n

end Linewise.Duration
