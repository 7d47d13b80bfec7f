import Linewise.Number.Numeral
import Linewise.Tape.Basic

/-!
# Tapes of numbers

Tapes as programs make them: from a list of up to four bounds, with the text of their errors.
-/

namespace Linewise

namespace LimitError

def message (e : LimitError) : Text := Text.ofInt e.address.toInt ++ Text.ofString " is out of bounds"

end LimitError

namespace TapeError

def message : TapeError Number → Text
  | .outOfBounds pointer => pointer.text ++ Text.ofString " is out of bounds"
  | .pastLimit e => e.message

end TapeError

namespace Tape

/-- The bound at position `i`, if it is given and a number. -/
def boundAt (bounds : List Number) (i : Nat) (missing : Number) : Number :=
  match bounds[i]? with
  | some b => if b.isNan then missing else b
  | none => missing

/-- An empty tape with its pointer at zero. The bounds are size, least value, greatest value and
default; a missing one, or one that is not a number, leaves the tape unbounded with default 0. -/
def ofBounds (pageSize : Int64) (bounds : List Number) : Tape Number :=
  let max := boundAt bounds 2 (.infinite false)
  let default := boundAt bounds 3 0
  { size := boundAt bounds 0 (.infinite false)
    min := boundAt bounds 1 (.infinite true)
    max
    default
    pointer := 0
    cells := .empty pageSize default (if max = .infinite false then none else some max.address) }

end Tape

end Linewise
