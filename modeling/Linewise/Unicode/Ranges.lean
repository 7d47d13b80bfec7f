/-!
# Ranges of code points

A property of characters is a list of ranges of code points. Tables of a standard are written as
rows of hexadecimal entries: `41-5a` is a range, `aa` a single code point, and `100-12e/2` every
second code point of a range.
-/

namespace Linewise.Unicode

/-- Every `stride`-th code point from `first` to `last`. -/
structure Range where
  first : Nat
  last : Nat
  stride : Nat
deriving DecidableEq, Repr

/-- A set of code points. -/
abbrev Ranges := List Range

namespace Range

def contains (r : Range) (code : Nat) : Bool :=
  r.first ≤ code && code ≤ r.last && (code - r.first) % r.stride = 0

/-- The value of hexadecimal digits. -/
def hex (digits : String) : Nat :=
  digits.toList.foldl (fun n c => n * 16 + (if c.isDigit then c.toNat - 48 else c.toNat - 87)) 0

/-- Reads one entry of a table. -/
def ofEntry (entry : String) : Range :=
  match entry.splitOn "-" with
  | [first, last] =>
    match last.splitOn "/" with
    | [last, stride] => ⟨hex first, hex last, hex stride⟩
    | _ => ⟨hex first, hex last, 1⟩
  | _ => ⟨hex entry, hex entry, 1⟩

end Range

namespace Ranges

/-- Reads the rows of a table. -/
def ofRows (rows : List String) : Ranges :=
  rows.flatMap fun row => (row.splitOn " ").map Range.ofEntry

def contains (rs : Ranges) (code : Nat) : Bool := rs.any fun r => r.contains code

end Ranges

end Linewise.Unicode
