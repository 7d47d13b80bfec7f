import Linewise.Value.Basic

/-!
# The text of a value

A stack is written as its items with commas between them, and an item may be a stack again. A stack
that contains itself has no text: writing it would never end. A chain of stacks without repetition is
no longer than the heap, so following references to that depth is enough: `Heap.text?`.
-/

namespace Linewise

namespace Value

mutual

/-- The text of a value, given how stacks are written. -/
def textVia (stackText : StackRef → Option Text) : Value → Option Text
  | .undefined => some "undefined"
  | .bool b => some (if b then "true" else "false")
  | .text s => some s
  | .number x => some x.text
  | .numbers xs => some (Text.join [44] (xs.map Number.text))
  | .texts ss => some (Text.join [44] ss)
  | .list items => (itemsVia stackText items).map (Text.join [44])
  | .stack ref => stackText ref
  | .tape _ => some "[object Object]"
  | .pattern p => some p.text
  | .executable ex => some ex.text

/-- The texts of items; an undefined item is empty. -/
def itemsVia (stackText : StackRef → Option Text) : List Value → Option (List Text)
  | [] => some []
  | v :: rest => do
    let s ← match v with
      | .undefined => some []
      | v => textVia stackText v
    return s :: (← itemsVia stackText rest)

end

/-- The value as an operand in a trace line. -/
def operandVia (stackText : StackRef → Option Text) : Value → Option Text
  | .undefined => some "<nil>"
  | .number x => some x.traced
  | .numbers xs => some (91 :: Text.join [32] (xs.map Number.traced) ++ [93])
  | .texts ss => some (91 :: Text.join [32] ss ++ [93])
  | .list items => do
    let texts ← operands items
    return 91 :: Text.join [32] texts ++ [93]
  | v => textVia stackText v
where
  operands : List Value → Option (List Text)
    | [] => some []
    | v :: rest => do return (← operandVia stackText v) :: (← operands rest)

end Value

namespace Heap

/-- The text of a stack, following references up to a depth. -/
def stackText (h : Heap) : Nat → StackRef → Option Text
  | 0, _ => none
  | depth + 1, ref =>
    (Value.itemsVia (h.stackText depth) (h.stack ref).toList).map (Text.join [44])

/-- The depth that suffices for every value that has a text. -/
def depth (h : Heap) : Nat := h.stackSlots.size + 1

/-- The text of a value, none if it would never end. -/
def text? (h : Heap) (v : Value) : Option Text := v.textVia (h.stackText h.depth)

/-- The text of a value in trace lines and dumps: a text stands in quotes. -/
def shown? (h : Heap) : Value → Option Text
  | .text s => some (34 :: s ++ [34])
  | v => h.text? v

/-- The operands of an operator in a trace line. -/
def operands? (h : Heap) (vs : List Value) : Option Text :=
  Value.operandVia (h.stackText h.depth) (.list vs)

end Heap

end Linewise
