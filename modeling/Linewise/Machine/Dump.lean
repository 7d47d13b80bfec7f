import Linewise.Machine.Basic
import Linewise.Text.Quoted
import Linewise.Value.Text

/-!
# Dumps

The state of a machine as a text for people to read. There is none if a value has no text.
-/

namespace Linewise

namespace Machine

/-- A section with a heading, left out if it has no entries. -/
def titled (heading : String) (entries : Nat) (lines : List Text) : List Text :=
  if entries = 0 then [] else Text.ofString ("# " ++ heading) :: lines

/-- An entry of a section. -/
def entry (name shown : Text) : Text := [32, 32] ++ name ++ [58, 32] ++ shown

/-- A text at the right end of a field. -/
def padLeft (width : Nat) (s : Text) : Text := List.replicate (width - s.length) 32 ++ s

/-- The heading lines: pointer, flag, queue, accumulated text, labels and arguments. -/
def dumpHead (m : Machine) : List Text :=
  [Text.ofString "# VM Dump",
    entry "prog" (.ofInt m.pointer),
    entry "running" (if m.running then "true" else "false")]
  ++ (if m.queue.isEmpty then [] else [entry "queued" (.ofNat m.queue.length)])
  ++ (if m.text.isEmpty then [] else [entry "text" (Quoted.text m.text)])
  ++ (if m.labels.isEmpty then []
      else [entry "labels" (.join [32] (m.labels.sorted.map fun (name, i) => name ++ (64 :: Text.ofNat i)))])
  ++ (if m.arguments.isEmpty then [] else [entry "args" (Quoted.texts m.arguments)])

/-- The program; the line at the pointer is marked. -/
def dumpLines (m : Machine) : List Text :=
  let width := (Text.ofNat (m.lines.size - 1)).length
  titled "Lines" m.lines.size <| m.lines.toList.mapIdx fun i line =>
    let mark : UInt8 := if m.pointer = i then 62 else 32
    [32, mark, 32] ++ padLeft width (.ofNat i) ++ (32 :: line.text)

def dumpStacks (m : Machine) : Option (List Text) := do
  let lines ← m.namedStacks.sorted.mapM fun (name, ref) => do
    let items ← (m.heap.stack ref).toList.mapM m.heap.shown?
    return entry name (91 :: Text.join [32] items ++ [93])
  return titled "Stacks" m.namedStacks.size lines

def dumpObject (m : Machine) : Option (List Text) := do
  let lines ← m.object.sorted.mapM fun (name, v) => do return entry name (← m.heap.shown? v)
  return titled "Object" m.object.size lines

/-- The rows of cells of a tape: a row for each range of neighbouring addresses, which starts with
its first address. `last` is the address before, if the row goes on. -/
def cellRows : (row : Text) → (last : Option Int64) → List (Int64 × Number) → List Text
  | row, last, [] => if last.isNone then [] else [row]
  | row, last, (a, x) :: rest =>
    let value := 32 :: x.text
    match last with
    | none => cellRows (startRow a ++ value) (some a) rest
    | some l =>
      if a = l + 1 then cellRows (row ++ value) (some a) rest
      else row :: cellRows (startRow a ++ value) (some a) rest
where
  startRow (a : Int64) : Text := Text.ofString "    @" ++ Text.ofInt a.toInt

/-- The bounds and the pointer of a tape. -/
def tapeBounds (t : Tape Number) : Text :=
  Text.ofString "size=" ++ t.size.text ++ Text.ofString " min=" ++ t.min.text
    ++ Text.ofString " max=" ++ t.max.text ++ Text.ofString " default=" ++ t.default.text
    ++ Text.ofString " pointer=" ++ t.pointer.text

def dumpTapes (m : Machine) : List Text :=
  titled "Tapes" m.namedTapes.size <| m.namedTapes.sorted.flatMap fun (name, ref) =>
    let t := m.heap.tape ref
    entry name (tapeBounds t) :: cellRows [] none t.cells.entries

def dumpListeners (m : Machine) : List Text :=
  titled "Listeners" m.listeners.size <|
    (m.listeners.sorted.filter fun (_, exs) => !exs.isEmpty).map fun (event, exs) =>
      entry event (.join [32] (exs.map fun ex => ex.kind ++ (40 :: ex.text ++ [41])))

/-- The dump of a machine, a brief one without the program. -/
def dump? (m : Machine) (brief : Bool) : Option Text := do
  let lines := m.dumpHead ++ (if brief then [] else m.dumpLines) ++ (← m.dumpStacks)
    ++ (← m.dumpObject) ++ m.dumpTapes ++ m.dumpListeners
  return lines.flatMap fun line => line ++ [10]

end Machine

end Linewise
