import Linewise.Text.Quoted

/-!
# Program sources

A program is read line by line from a queue of sources. A source is a text with a name; it may end in
an error instead of simply ending, and it may have to be closed after use. Line feeds end lines, and
one carriage return before the end of a line is dropped. Ill-formed bytes are read as U+FFFD.
-/

namespace Linewise

/-- A text to read lines from. -/
structure Source where
  /-- The name for locations; without one the source is called unnamed. -/
  name : Option Text
  text : Text
  /-- The error that reading meets after the text, if it is not just the end. -/
  failure : Option Text
  /-- Whether the source has to be closed. -/
  closable : Bool
deriving DecidableEq, Repr

namespace Source

/-- The name in locations. -/
def title (s : Source) : Text := s.name.getD "<unnamed *strings.Reader>"

/-- A source that simply ends. -/
def ofText (name text : Text) : Source := ⟨some name, text, none, false⟩

end Source

/-- Where a line comes from; lines count from 1. -/
structure Location where
  name : Text
  line : Nat
deriving DecidableEq, Repr

namespace Location

def text (l : Location) : Text := l.name ++ (58 :: Text.ofNat l.line)

end Location

/-- A line without its end. -/
structure SourceLine where
  location : Location
  text : Text
deriving DecidableEq, Repr

namespace SourceLine

/-- The line that is returned where there is none. -/
def empty : SourceLine := ⟨⟨[], 0⟩, []⟩

/-- The location and the text in quotes. -/
def shown (l : SourceLine) : Text := l.location.text ++ (32 :: Quoted.text l.text)

end SourceLine

/-- What a request for a line gives. -/
inductive LineResult where
  | line (l : SourceLine)
  /-- The source failed; the line is what came after the last line feed, if anything did. -/
  | failed (l : Option SourceLine) (message : Text)
  /-- All sources are used up. -/
  | ended
deriving DecidableEq, Repr

/-- A source in use: what is left of it, and the number of the next line. -/
structure OpenSource where
  source : Source
  rest : List Char
  line : Nat
deriving DecidableEq, Repr

/-- The sources of a program while they are read. -/
structure SourceReader where
  /-- The source in use. -/
  current : Option OpenSource
  /-- The sources still to come. -/
  queue : List Source
  /-- How many sources have been closed. -/
  closed : Nat
deriving DecidableEq, Repr

namespace SourceReader

def ofSources (queue : List Source) : SourceReader := ⟨none, queue, 0⟩

/-- The characters up to the first line feed, and those after it if there is one. -/
def cutLine : List Char → List Char × Option (List Char)
  | [] => ([], none)
  | c :: rest =>
    if c = '\n' then ([], some rest)
    else
      let (front, back) := cutLine rest
      (c :: front, back)

/-- The text of a line: one carriage return at its end is dropped. -/
def lineText (chars : List Char) : Text := Text.dropEnding [13] (Text.ofChars chars)

/-- The count of closed sources after a source has been used up. -/
def afterClosing (closed : Nat) (s : Source) : Nat := if s.closable then closed + 1 else closed

/-- What the source in use gives: a line with the state after it, or nothing, in which case the
source is used up. -/
def readOpen (queue : List Source) (closed : Nat) (o : OpenSource) :
    Option (LineResult × SourceReader) :=
  let (chars, after) := cutLine o.rest
  let l : SourceLine := ⟨⟨o.source.title, o.line⟩, lineText chars⟩
  match after with
  | some rest => some (.line l, ⟨some ⟨o.source, rest, o.line + 1⟩, queue, closed⟩)
  | none =>
    let closed := afterClosing closed o.source
    match o.source.failure with
    | some message =>
      some (.failed (if chars.isEmpty then none else some l) message, ⟨none, queue, closed⟩)
    | none => if chars.isEmpty then none else some (.line l, ⟨none, queue, closed⟩)

/-- Reads from the sources in the queue, one after the other. -/
def readQueue : List Source → Nat → LineResult × SourceReader
  | [], closed => (.ended, ⟨none, [], closed⟩)
  | s :: queue, closed =>
    match readOpen queue closed ⟨s, s.text.chars, 1⟩ with
    | some found => found
    | none => readQueue queue (afterClosing closed s)

/-- The next line, and the reader after it. -/
def readLine (r : SourceReader) : LineResult × SourceReader :=
  match r.current with
  | none => readQueue r.queue r.closed
  | some o =>
    match readOpen r.queue r.closed o with
    | some found => found
    | none => readQueue r.queue (afterClosing r.closed o.source)

/-- How many more requests can give something else than the end. -/
def remaining (r : SourceReader) : Nat :=
  (r.current.elim 0 fun o => o.rest.length + 1)
    + r.queue.foldr (fun s n => s.text.length + 1 + n) 0

end SourceReader

end Linewise
