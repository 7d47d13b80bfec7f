import Linewise.Value.Text

/-!
# Conversions

What a value counts as where a number, a truth value, an index or a list of numbers is asked for.
A conversion that goes through the text of a value has no result if there is no such text.
-/

namespace Linewise

namespace Heap

/-- A value as a number: a text is read as a numeral, lists and stacks by their text. -/
def number? (h : Heap) : Value → Option Number
  | .undefined => some .nan
  | .number x => some x
  | .bool b => some (if b then 1 else 0)
  | .text s => some (.read s)
  | .numbers xs => (h.text? (.numbers xs)).map .read
  | .texts ss => (h.text? (.texts ss)).map .read
  | .list items => (h.text? (.list items)).map .read
  | .stack ref => (h.text? (.stack ref)).map .read
  | _ => some .nan

/-- A value as an index: the whole part of its number, `some none` if there is none. -/
def index? (h : Heap) (v : Value) : Option (Option Int) := (h.number? v).map Number.index?

/-- The numbers of a list; any other value but the undefined one is a list of one. -/
def numbers? (h : Heap) : Value → Option (List Number)
  | .undefined => some []
  | .numbers xs => some xs
  | .list items => items.mapM h.number?
  | .texts ss => some (ss.map Number.read)
  | v => do return [← h.number? v]

end Heap

namespace Value

/-- What counts as true: everything but the undefined value, `false`, zero, not-a-number and the
empty text. -/
def isTruthy : Value → Bool
  | .undefined => false
  | .bool b => b
  | .number x => !x.isZero && !x.isNan
  | .text s => !s.isEmpty
  | _ => true

def isText : Value → Bool
  | .text _ => true
  | _ => false

/-- Numbers and truth values are compared as numbers. -/
def isNumeric : Value → Bool
  | .number _ => true
  | .bool _ => true
  | _ => false

end Value

end Linewise
