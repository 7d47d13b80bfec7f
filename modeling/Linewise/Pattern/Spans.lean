import Linewise.Pattern.CharSet

/-!
# Spans

The members of a character class as spans: first and last code point of each, in increasing order
and without two that touch. However a class is put together, the spans are the same.
-/

namespace Linewise.Pattern

/-- First and last code points, in order and apart. -/
abbrev Spans := List (Nat × Nat)

namespace Spans

/-- The span `current` and what follows it, in the order of first code points; spans that overlap or
touch become one. -/
def joinFrom (current : Nat × Nat) : List (Nat × Nat) → Spans
  | [] => [current]
  | s :: rest =>
    if s.1 ≤ current.2 + 1 then joinFrom (current.1, max current.2 s.2) rest
    else current :: joinFrom s rest

/-- The spans of a list of ranges in any order. -/
def ofRanges (ranges : List (Nat × Nat)) : Spans :=
  match ranges.mergeSort fun a b => a.1 ≤ b.1 with
  | [] => []
  | s :: rest => joinFrom s rest

/-- What is left out from `next` on. -/
def gaps (next : Nat) : Spans → Spans
  | [] => if next ≤ maxCode then [(next, maxCode)] else []
  | (first, last) :: rest =>
    if next < first then (next, first - 1) :: gaps (last + 1) rest else gaps (last + 1) rest

/-- The code points of a table row, as ranges. -/
def ofRow (r : Unicode.Range) : List (Nat × Nat) :=
  if r.stride = 1 then [(r.first, r.last)]
  else (Unicode.Folding.within r.first r.last r.stride r.first r.last).map fun code => (code, code)

end Spans

namespace CharSet

/-- Ranges that cover a set, in any order. -/
def ranges : CharSet → List (Nat × Nat)
  | .none => []
  | .range first last => [(first, last)]
  | .table rows => rows.flatMap Spans.ofRow
  | .union a b => a.ranges ++ b.ranges
  | .complement a => Spans.gaps 0 (Spans.ofRanges a.ranges)
  | .folded a =>
    let spans := Spans.ofRanges a.ranges
    spans ++ (Unicode.Folding.kin spans).map fun code => (code, code)

/-- The spans of a set. -/
def spans (s : CharSet) : Spans := Spans.ofRanges s.ranges

end CharSet

end Linewise.Pattern
