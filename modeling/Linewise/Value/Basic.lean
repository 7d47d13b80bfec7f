import Linewise.Pattern.Basic
import Linewise.Stack
import Linewise.Tape.Numeric

/-!
# Values

The values that commands pass to each other. Stacks and tapes are shared: a value holds a reference,
and the heap holds what it refers to.
-/

namespace Linewise

/-- The operators on stacks. -/
inductive Operator where
  | add | inc | dec | pow | mul | div | sub | replace | less | more | same | repeats | slice | charAt
  | toChar
deriving DecidableEq, Repr

namespace Operator

/-- All operators. -/
def all : List Operator :=
  [.add, .inc, .dec, .pow, .mul, .div, .sub, .replace, .less, .more, .same, .repeats, .slice,
    .charAt, .toChar]

/-- The name under which a program asks for an operator. -/
def name : Operator → Text
  | .add => "add"
  | .inc => "inc"
  | .dec => "dec"
  | .pow => "pow"
  | .mul => "mul"
  | .div => "div"
  | .sub => "sub"
  | .replace => "replace"
  | .less => "less"
  | .more => "more"
  | .same => "same"
  | .repeats => "repeat"
  | .slice => "slice"
  | .charAt => "charat"
  | .toChar => "tochar"

/-- How many operands an operator takes. -/
def arity : Operator → Nat
  | .inc | .dec | .charAt | .toChar => 1
  | .replace => 3
  | _ => 2

/-- The operator with a name. -/
def named? (name : Text) : Option Operator := all.find? fun op => op.name = name

end Operator

/-- Everything that can be applied to arguments. -/
inductive Executable where
  /-- Tokens to dispatch, completed by the arguments; `via` is the command that captured them. -/
  | closure (via : Text) (params : List Text)
  /-- Takes its operands from the stack that the first argument names. -/
  | operator (op : Operator)
  /-- A listener of the host. -/
  | host (id : Nat)
deriving DecidableEq, Repr

namespace Executable

/-- How an executable reads its arguments, as a word. -/
def kind : Executable → Text
  | .operator _ => "stack"
  | _ => "value"

/-- An executable as a text. -/
def text : Executable → Text
  | .closure via params => via ++ (32 :: Text.join [32] params)
  | .operator op => Text.ofString "func " ++ op.name
  | .host _ => "[object Object]"

end Executable

/-- A place on the heap that holds a stack. -/
structure StackRef where
  index : Nat
deriving DecidableEq, Repr

/-- A place on the heap that holds a tape. -/
structure TapeRef where
  index : Nat
deriving DecidableEq, Repr

/-- A value of the language. -/
inductive Value where
  | undefined
  | bool (b : Bool)
  | text (s : Text)
  | number (x : Number)
  | numbers (xs : List Number)
  | texts (ss : List Text)
  | list (items : List Value)
  | stack (ref : StackRef)
  | tape (ref : TapeRef)
  | pattern (p : Pattern)
  | executable (ex : Executable)

namespace Value

/-- What stacks rest on. -/
def zero : Value := .number 0

instance : Inhabited Value := ⟨.undefined⟩

mutual

/-- The stacks that a value refers to. -/
def stackRefs : Value → List StackRef
  | .stack ref => [ref]
  | .list items => itemRefs items
  | _ => []

/-- The stacks that items refer to. -/
def itemRefs : List Value → List StackRef
  | [] => []
  | v :: rest => stackRefs v ++ itemRefs rest

end

end Value

/-- The stacks and tapes that values refer to. -/
structure Heap where
  stackSlots : Array (Stack Value)
  tapeSlots : Array (Tape Number)

namespace Heap

def empty : Heap := ⟨#[], #[]⟩

/-- The stack at a place. -/
def stack (h : Heap) (ref : StackRef) : Stack Value := h.stackSlots.getD ref.index .empty

def setStack (h : Heap) (ref : StackRef) (s : Stack Value) : Heap :=
  { h with stackSlots := h.stackSlots.setIfInBounds ref.index s }

/-- Puts a stack at a new place. -/
def addStack (h : Heap) (s : Stack Value) : StackRef × Heap :=
  (⟨h.stackSlots.size⟩, { h with stackSlots := h.stackSlots.push s })

/-- Which stacks have which stacks on them. -/
def links (h : Heap) : List (StackRef × StackRef) :=
  (List.range h.stackSlots.size).flatMap fun i =>
    (Value.itemRefs (h.stack ⟨i⟩).items).map fun ref => (⟨i⟩, ref)

/-- The tape at a place. -/
def tape (h : Heap) (ref : TapeRef) : Tape Number :=
  h.tapeSlots.getD ref.index (.ofBounds Cells.defaultPageSize [])

def setTape (h : Heap) (ref : TapeRef) (t : Tape Number) : Heap :=
  { h with tapeSlots := h.tapeSlots.setIfInBounds ref.index t }

/-- Puts a tape at a new place. -/
def addTape (h : Heap) (t : Tape Number) : TapeRef × Heap :=
  (⟨h.tapeSlots.size⟩, { h with tapeSlots := h.tapeSlots.push t })

end Heap

end Linewise
