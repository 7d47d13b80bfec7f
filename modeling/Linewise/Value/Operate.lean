import Linewise.Value.Convert

/-!
# Operators

What the stack operators compute from their operands, which are given in the order they were pushed.
-/

namespace Linewise

/-- Why an operator has no result. -/
inductive OperatorError where
  /-- An operand contains itself, so its text would never end. -/
  | endless
  /-- A repeated text would be longer than any text can be. -/
  | tooLong
  /-- There is no operand at an index, since only so many were given. -/
  | missing (index count : Nat)
  /-- A tail would start before the first of so many elements, or behind the last. -/
  | outside (start : Int) (count : Nat)
deriving DecidableEq, Repr

namespace OperatorError

def message : OperatorError → Text
  | .endless => "endless value"
  | .tooLong => "strings: Repeat output length overflow"
  | .missing index count =>
    Text.ofString "runtime error: index out of range [" ++ Text.ofNat index
      ++ Text.ofString "] with length " ++ Text.ofNat count
  | .outside start count =>
    Text.ofString "runtime error: slice bounds out of range [" ++ Text.ofInt start
      ++ (if start < 0 then Text.ofString ":]" else 58 :: Text.ofNat count ++ [93])

end OperatorError

namespace Heap

/-- Adds numbers; with a text on either side the texts are put together. -/
def plus (h : Heap) (a b : Value) : Option Value :=
  if a.isText || b.isText then do return .text ((← h.text? a) ++ (← h.text? b))
  else do return .number ((← h.number? a) + (← h.number? b))

/-- Orders two texts byte by byte, everything else by number. Not-a-number is neither less nor
more. -/
def compare (h : Heap) (a b : Value) : Option Ordering :=
  match a, b with
  | .text s, .text t => some (if Text.lt s t then .lt else if Text.lt t s then .gt else .eq)
  | a, b => do
    let x ← h.number? a
    let y ← h.number? b
    return if x.lt y then .lt else if y.lt x then .gt else .eq

/-- Loose equality: the undefined value equals itself only, numbers and truth values are compared by
number with everything, all else by text. -/
def same (h : Heap) (a b : Value) : Option Bool :=
  match a, b with
  | .undefined, .undefined => some true
  | .undefined, _ => some false
  | _, .undefined => some false
  | a, b =>
    if a.isNumeric || b.isNumeric then do return (← h.number? a).eqv (← h.number? b)
    else do return (← h.text? a) = (← h.text? b)

/-- Replaces what a pattern matches, or the first occurrence of a text. -/
def replace (h : Heap) (subject pattern replacement : Value) : Option Value := do
  let s ← h.text? subject
  let r ← h.text? replacement
  match pattern with
  | .pattern p => return .text (p.replace s r)
  | other => return .text (Text.replaceFirst (← h.text? other) r s)

/-- A result that is missing only because of a value without text. -/
def orEndless {α : Type} : Option α → Except OperatorError α
  | some a => .ok a
  | none => .error .endless

/-- Where a slice of `n` elements starts: a negative index counts from the end, and what lies outside
goes to the nearer end. -/
def sliceStart (i : Int) (n : Nat) : Int :=
  let start := if i < 0 then i + n else i
  if start < 0 then 0 else if n < start then n else start

/-- The elements from a start on, which has to lie between the first and the end. -/
def tailFrom {α : Type} (xs : List α) (start : Int) : Except OperatorError (List α) :=
  if 0 ≤ start ∧ start ≤ xs.length then .ok (xs.drop start.toNat) else .error (.outside start xs.length)

/-- The slice of a list from an index on. -/
def sliceList {α : Type} (xs : List α) (i : Int) : Except OperatorError (List α) :=
  tailFrom xs (sliceStart i xs.length)

/-- The tail of a list, or of the characters of a text, from an index on. -/
def sliceFrom (h : Heap) (v : Value) (i : Int) : Except OperatorError Value :=
  match v with
  | .numbers xs => return .numbers (← sliceList xs i)
  | .texts ss => return .texts (← sliceList ss i)
  | .list items => return .list (← sliceList items i)
  | v => do
    let s ← orEndless (h.text? v)
    return .text (Text.ofChars (← sliceList s.chars i))

/-- The tail from a position on; a position that is no index is the first one. -/
def slice (h : Heap) (v position : Value) : Except OperatorError Value := do
  let index ← orEndless (h.index? position)
  h.sliceFrom v (index.getD 0)

/-- The longest that a text can be. -/
def maxLength : Nat := 9223372036854775807

/-- A text repeated; a count that is no index or negative gives the empty text. -/
def repeated (h : Heap) (v count : Value) : Except OperatorError Value := do
  let some index := h.index? count | throw .endless
  match index with
  | some (.ofNat n) =>
    let some s := h.text? v | throw .endless
    if n ≥ 2 ∧ s.length * n > maxLength then throw .tooLong
    return .text (if s.isEmpty then [] else s.replicate n)
  | _ => return .text []

/-- The code of the first character of a text, not-a-number for the empty one. -/
def charAt (h : Heap) (v : Value) : Option Value := do
  match (← h.text? v).chars with
  | [] => return .number .nan
  | c :: _ => return .number (.ofNat c.toNat)

/-- The character with a code. -/
def toChar (h : Heap) (v : Value) : Option Value := do
  match ← h.index? v with
  | some (.ofNat n) => return .text (Rune.encode (Rune.ofCode n))
  | _ => return .text (Rune.encode Rune.replacement)

/-- Applies a function of two numbers. -/
def numeric (h : Heap) (f : Number → Number → Number) (a b : Value) : Option Value := do
  return .number (f (← h.number? a) (← h.number? b))

/-- The operand at an index, which has to be there. -/
def operandAt (operands : List Value) (i : Nat) : Except OperatorError Value :=
  match operands[i]? with
  | some v => .ok v
  | none => .error (.missing i operands.length)

/-- The result of an operator. -/
def operate (h : Heap) (op : Operator) (operands : List Value) : Except OperatorError Value := do
  let operand := operandAt operands
  match op with
  | .add => orEndless (h.plus (← operand 0) (← operand 1))
  | .inc => orEndless (h.plus (.number 1) (← operand 0))
  | .dec => orEndless (h.numeric Number.sub (← operand 0) (.number 1))
  | .pow => orEndless (h.numeric Number.pow (← operand 0) (← operand 1))
  | .mul => orEndless (h.numeric Number.mul (← operand 0) (← operand 1))
  | .div => orEndless (h.numeric Number.div (← operand 0) (← operand 1))
  | .sub => orEndless (h.numeric Number.sub (← operand 0) (← operand 1))
  | .replace => orEndless (h.replace (← operand 0) (← operand 1) (← operand 2))
  | .less => orEndless ((h.compare (← operand 0) (← operand 1)).map fun o => .bool (o = .lt))
  | .more => orEndless ((h.compare (← operand 0) (← operand 1)).map fun o => .bool (o = .gt))
  | .same => orEndless ((h.same (← operand 0) (← operand 1)).map .bool)
  | .repeats =>
    let count ← operand 1
    h.repeated (← operand 0) count
  | .slice => h.slice (← operand 0) (← operand 1)
  | .charAt => orEndless (h.charAt (← operand 0))
  | .toChar => orEndless (h.toChar (← operand 0))

end Heap

end Linewise
