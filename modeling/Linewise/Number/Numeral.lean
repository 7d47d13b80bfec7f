import Linewise.Number.Literal
import Linewise.Text.Blank

/-!
# Numerals

How numbers are written and read. A number is written with the fewest digits that read back as it, in
positional form or in exponent form: the language and trace lines choose differently between the two, and
the language drops zeros at the front of an exponent. Reading takes a blank text as zero, a signed decimal,
a signed `Infinity`, or digits after `0x`, `0o` or `0b`; everything else is not-a-number.
-/

namespace Linewise

/-! ## Writing -/

namespace Decimal

/-- The digits as a text. -/
def digitText (d : Decimal) : Text := d.digits.map fun c => c.toNat.toUInt8

/-- Positional form: digits with a point where it is needed. -/
def positional (d : Decimal) : Text :=
  let digits := d.digitText
  match d.exponent with
  | .ofNat e => digits ++ List.replicate e 48
  | .negSucc e =>
    let places := e + 1
    if places < digits.length then
      digits.take (digits.length - places) ++ (46 :: digits.drop (digits.length - places))
    else [48, 46] ++ List.replicate (places - digits.length) 48 ++ digits

/-- Digits with a point after the first, if there are more. -/
def pointed : Text → Text
  | [] => []
  | [digit] => [digit]
  | digit :: rest => digit :: 46 :: rest

/-- Exponent form: one digit before the point, the exponent signed and at least two digits wide. -/
def scientific (d : Decimal) : Text :=
  let power := Text.ofNat d.magnitude.natAbs
  pointed d.digitText ++ 101 :: (if d.magnitude < 0 then 45 else 43) ::
    (List.replicate (2 - power.length) 48 ++ power)

end Decimal

namespace Finite

/-- A text for the magnitude, after the sign. -/
def signed (x : Finite) (magnitude : Text) : Text := if x.negative then 45 :: magnitude else magnitude

/-- The shortest decimal in positional form. -/
def positional (x : Finite) : Text := x.signed x.shortest.positional

/-- The shortest decimal in exponent form. -/
def scientific (x : Finite) : Text := x.signed x.shortest.scientific

end Finite

namespace Number

/-- Magnitudes from here on are written in exponent form. -/
def large : Number := ofDecimal false 1 21

/-- Magnitudes below this are written in exponent form. -/
def small : Number := ofDecimal false 1 (-6)

/-- Drops the zeros at the front of an exponent, which come after a letter and a sign. -/
def shortenExponent (s : Text) : Text :=
  let front := s.idxOf 101 + 2
  s.take front ++ (s.drop front).dropWhile (· = 48)

/-- The text of a number in the language. -/
def text : Number → Text
  | .nan => "NaN"
  | .infinite negative => if negative then "-Infinity" else "Infinity"
  | .finite x =>
    if x.isZero then [48]
    else if le large (abs (.finite x)) || lt (abs (.finite x)) small then shortenExponent x.scientific
    else x.positional

/-- The text of a number among the operands in a trace line. -/
def traced : Number → Text
  | .nan => "NaN"
  | .infinite negative => if negative then "-Inf" else "+Inf"
  | .finite x =>
    if x.isZero then x.signed [48]
    else
      let power := x.shortest.magnitude
      if -4 ≤ power ∧ power < 6 then x.positional else x.scientific

/-! ## Reading -/

/-- What no decimal numeral contains: bytes of literals that are not numerals. -/
def isForeign (b : UInt8) : Bool := (Text.ofString "_xXpPiInN").contains b

/-- The base that a prefix announces, and the text after it, which is not empty. -/
def splitPrefix? : Text → Option (Nat × Text)
  | 48 :: letter :: b :: rest => (baseOf? letter).map fun base => (base, b :: rest)
  | _ => none

/-- A numeral without blanks around it. -/
def readTrimmed (s : Text) : Number :=
  if s = [] then 0
  else if s = Text.ofString "Infinity" ∨ s = Text.ofString "+Infinity" then .infinite false
  else if s = Text.ofString "-Infinity" then .infinite true
  else
    match splitPrefix? s with
    | some (base, digits) =>
      match readNatural? base digits with
      | some n => if s.contains 95 then .nan else ofNat n
      | none => .nan
    | none =>
      if s.any isForeign then .nan
      else
        match readFloat s with
        | ⟨_, some .malformed⟩ => .nan
        | ⟨x, _⟩ => x

/-- The number that a text writes. -/
def read (s : Text) : Number := readTrimmed s.trim

end Number

end Linewise
