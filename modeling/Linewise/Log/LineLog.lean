import Linewise.Output.Writer

/-!
# Line log

Cuts what is written to it into lines and logs each line as soon as it is complete. What comes after
the last line feed is kept, and logged when the log is closed.
-/

namespace Linewise

theorem Text.length_of_cut? {b : UInt8} {s front back : Text} (h : s.cut? b = some (front, back)) :
    back.length < s.length := by
  induction s generalizing front with
  | nil => cases h
  | cons c rest ih =>
      rw [Text.cut?] at h
      split at h
      · cases h
        exact Nat.lt_succ_self _
      · obtain ⟨⟨front', back'⟩, hcut, hpair⟩ := Option.map_eq_some_iff.mp h
        cases hpair
        exact Nat.lt_succ_of_lt (ih hcut)

/-- The beginning of a line that is not complete yet. -/
structure LineLog where
  partialLine : Text
deriving DecidableEq, Repr

namespace LineLog

def empty : LineLog := ⟨[]⟩

/-- Takes the lines off what has been collected, each with the line feed behind it, and at the end what no
line feed is behind, if all is to be taken. The lines, and what is left. -/
def takeLines (all : Bool) (collected : Text) : List Text × Text :=
  if collected.isEmpty then ([], [])
  else
    match _h : collected.cut? 10 with
    | some (line, rest) =>
      let (lines, left) := takeLines all rest
      (line :: lines, left)
    | none => if all then ([collected], []) else ([], collected)
termination_by collected.length
decreasing_by exact Text.length_of_cut? _h

/-- Takes a chunk; the answer, and the lines that the chunk completes. -/
def accept (log : LineLog) (chunk : Text) : Receipt × List Text × LineLog :=
  let (lines, left) := takeLines false (log.partialLine ++ chunk)
  (⟨chunk.length, none⟩, lines, ⟨left⟩)

/-- Writes a chunk; the lines that it completes. -/
def write (log : LineLog) (chunk : Text) : List Text × LineLog := (log.accept chunk).2

/-- Closes the log; the last line, if there is one. -/
def close (log : LineLog) : List Text := (takeLines true log.partialLine).1

/-- The lines of a text that is written at once and closed. -/
def linesOf (s : Text) : List Text :=
  let (lines, log) := empty.write s
  lines ++ log.close

end LineLog

end Linewise
