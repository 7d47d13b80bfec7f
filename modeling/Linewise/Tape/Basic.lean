import Linewise.Memory.Cells

/-!
# Tapes

A tape is a memory of scalars with a pointer and bounds. What is written is wrapped into the bounds;
reading fails with the pointer above the upper bound and nowhere else. A cell that was never written
reads as the default, and is written with it when it is first read. A pointer that is infinite or
not-a-number points at no cell.
-/

namespace Linewise

/-- A pointed memory with bounds. -/
structure Tape (α : Type) where
  size : α
  min : α
  max : α
  default : α
  pointer : α
  cells : Cells α
deriving Repr

/-- Why a tape could not be read. -/
inductive TapeError (α : Type) where
  /-- The pointer is above the upper bound. -/
  | outOfBounds (pointer : α)
  /-- The memory refuses the address. -/
  | pastLimit (error : LimitError)
deriving DecidableEq, Repr

namespace Tape

variable {α : Type} [Scalar α]

open Scalar

/-- Brings a value into the bounds `lo` and `hi`: modulo the length of the range if both are finite;
in steps of `hi + 1` down to `hi` if only `hi` is; else to the bound it exceeds. Not-a-number and
values inside are kept. -/
def wrap (lo hi value : α) : α :=
  if isNan value || (le lo value && le value hi) then value
  else if !isInfinite lo && !isInfinite hi then
    let span := hi - lo + one
    if le span zero then lo
    else
      let m := rem (value - lo) span
      lo + (if lt m zero then m + span else m)
  else if isInfinite lo && !isInfinite hi && lt hi value then
    let step := hi + one
    if lt zero step then value - ceil ((value - hi) / step) * step else hi
  else if lt hi value then hi
  else lo

/-- The address of the cell under the pointer, if there is one. -/
def address? (t : Tape α) : Option Int64 :=
  if isNan t.pointer || isInfinite t.pointer then none else some (address t.pointer)

/-- The value under the pointer, and the tape after reading it. -/
def get (t : Tape α) : Except (TapeError α) (α × Tape α) :=
  if lt t.max t.pointer then .error (.outOfBounds t.pointer)
  else
    match t.address? with
    | none => .ok (t.default, t)
    | some a =>
      match t.cells.load a with
      | .error e => .error (.pastLimit e)
      | .ok x =>
        if t.cells.has a then .ok (x, t)
        else .ok (x, { t with cells := t.cells.store a [t.default] })

/-- Writes a value, wrapped, under the pointer; the value as written, and the tape after. -/
def set (t : Tape α) (value : α) : α × Tape α :=
  let x := wrap t.min t.max value
  match t.address? with
  | none => (x, t)
  | some a => (x, { t with cells := t.cells.store a [x] })

end Tape

end Linewise
