import Linewise.Machine.Builtin
import Linewise.Machine.Failure
import Linewise.Output.Sink
import Linewise.Source
import Linewise.Text.Blank

/-!
# The machine

The state of one run: the program and where it stands, the memories that commands reach, listeners
and queued jumps, and the surroundings with which the machine trades lines, output and files. The
machine also keeps a history of what it did, which nothing in it ever reads.
-/

namespace Linewise

/-- A program line, cut into its tokens. -/
structure Line where
  location : Location
  tokens : List Text
deriving DecidableEq, Repr

namespace Line

/-- The tokens with single blanks between them. -/
def text (l : Line) : Text := Text.join [32] l.tokens

/-- The label that a line declares, if it does. -/
def label? (l : Line) : Option Text :=
  match l.tokens with
  | command :: name :: _ => if command = Builtin.label.name then some name else none
  | _ => none

end Line

/-- Lines that the machine asks for when it has run out of them. -/
structure Feed where
  lines : List Text
  /-- What the feed fails with after its lines, if it does not just end. -/
  failure : Option Text
  /-- Whether the state of the machine is written down whenever it asks. -/
  watched : Bool
  /-- What is shown on the output whenever it asks. -/
  prompt : Text
deriving DecidableEq, Repr

/-- What a listener of the host does to the machine. -/
inductive HostAction where
  | nothing
  | stop
  | cancel
deriving DecidableEq, Repr

/-- A listener of the host: it takes notes of every call, and acts from a certain call on. -/
structure HostListener where
  event : Text
  action : HostAction
  /-- The number of the first call that acts. -/
  after : Int
  /-- How often it has been called. -/
  calls : Nat
deriving DecidableEq, Repr

/-- The trace of a run. -/
structure Trace where
  /-- How many dispatches are under way. -/
  depth : Nat
  /-- The lines, the latest first. -/
  linesBackwards : List Text
deriving DecidableEq, Repr

namespace Trace

/-- The trace without lines. -/
def empty : Trace := ⟨0, []⟩

/-- The lines of a trace. -/
def lines (t : Trace) : List Text := t.linesBackwards.reverse

/-- The trace with one more line: two blanks for each dispatch under way, a mark, and a message. -/
def add (t : Trace) (mark : Char) (message : Text) : Trace :=
  let line := List.replicate (2 * t.depth) 32 ++ Rune.encode mark ++ (32 :: message)
  { t with linesBackwards := line :: t.linesBackwards }

end Trace

/-- Something that the machine did. -/
inductive Occurrence where
  /-- The feed was asked for a line. If it is watched and the state can be shown: the pointer, what the
  output had received, and a brief dump. -/
  | asked (view : Option (Int × Text × Text))
  /-- The line with this index was found at the pointer. -/
  | fetched (index : Nat)
  /-- The line with this index began to run. -/
  | stepped (index : Nat)
  | performed (b : Builtin)
  /-- The pointer was moved to the line of a label, and the jump was queued. -/
  | jumped (label : Text) (target : Nat)
  /-- A queued jump was taken from the queue. -/
  | announced (target : Nat)
  /-- A condition failed, and the next line was passed over. -/
  | skipped
  /-- The running flag was cleared. -/
  | stopped
  /-- The listeners of an event were called, with these arguments. -/
  | triggered (event : Text) (args : List Text) (listeners : List Executable)
  /-- One of the listeners of an event was applied. -/
  | delivered (event : Text) (args : List Text) (listener : Executable)
  /-- A path was read or written. -/
  | sought (path : Text)
  /-- Bytes were written to the output. -/
  | emitted (bytes : Text)
  /-- What a listener of the host noted: its event, the arguments, the pointer, the size of the stack
  `func`, and the accumulated text. -/
  | heard (event : Text) (args : List Text) (pointer : Int) (size : Nat) (text : Text)
  /-- A name was defined: it stands for an executable from now on. -/
  | defined (name : Text) (ex : Executable)
  /-- A name was given the effect that another one had. -/
  | aliased (name existing : Text)
  /-- A value that refers to stacks was put on a stack; the links are those there were between stacks. -/
  | nested (onto : StackRef) (refs : List StackRef) (links : List (StackRef × StackRef))
  /-- The end was announced. -/
  | ended
deriving DecidableEq, Repr

/-- An occurrence, and where the machine stood when it was recorded. -/
structure Moment where
  occurrence : Occurrence
  pointer : Int
  running : Bool
  queue : List Nat
  /-- How many lines the program had. -/
  lineCount : Nat
  labels : Dict Nat
  listeners : Dict (List Executable)
  interruption : Option Interruption
  /-- The output, with what its writers had received. -/
  sink : Sink

/-- The state of a run. -/
structure Machine where
  registry : Registry Effect
  pageSize : Int64
  /-- The sources that the program is loaded from. -/
  sources : SourceReader
  /-- Where lines come from once the loaded ones have run. -/
  feed : Option Feed
  /-- What closing the feed fails with. -/
  closeError : Option Text
  lines : Array Line
  /-- The line of each label; of several the last one. -/
  labels : Dict Nat
  /-- The index of the line that runs. -/
  pointer : Int
  running : Bool
  /-- The targets of jumps that have not been announced. -/
  queue : List Nat
  /-- The listeners of each event, in order of registration. -/
  listeners : Dict (List Executable)
  hosts : Array HostListener
  heap : Heap
  namedStacks : Dict StackRef
  namedTapes : Dict TapeRef
  object : Dict Value
  /-- The accumulated text. -/
  text : Text
  arguments : List Text
  sink : Sink
  storage : Storage
  interruption : Option Interruption
  trace : Option Trace
  /-- What the machine did, the latest first. -/
  history : List Moment

/-- The stack that operators use if no other is named. -/
def funcStack : Text := "func"

namespace Machine

/-- A machine with a registry and nothing else: no program, output dropped, files in an empty working
directory. -/
def initial (registry : Registry Effect) : Machine where
  registry
  pageSize := Cells.defaultPageSize
  sources := .ofSources []
  feed := none
  closeError := none
  lines := #[]
  labels := .empty
  pointer := 0
  running := false
  queue := []
  listeners := .empty
  hosts := #[]
  heap := ⟨#[.empty], #[]⟩
  namedStacks := ⟨[(funcStack, ⟨0⟩)]⟩
  namedTapes := .empty
  object := .empty
  text := []
  arguments := []
  sink := .discard
  storage := .directory [] .empty
  interruption := none
  trace := none
  history := []

/-- Appends a line to the program. If it declares a label, the label is its own from now on. -/
def addLine (m : Machine) (location : Location) (text : Text) : Machine :=
  let line : Line := ⟨location, text.words⟩
  { m with
    labels := match line.label? with
      | some name => m.labels.insert name m.lines.size
      | none => m.labels
    lines := m.lines.push line }

/-- Adds a listener to an event. -/
def listen (m : Machine) (event : Text) (ex : Executable) : Machine :=
  { m with
    listeners := m.listeners.insert event ((m.listeners.get? event).getD [] ++ [ex]) }

/-- Adds a listener of the host to an event. -/
def listenHost (m : Machine) (event : Text) (action : HostAction) (after : Int) : Machine :=
  { m.listen event (.host m.hosts.size) with hosts := m.hosts.push ⟨event, action, after, 0⟩ }

/-- The size of the stack `func`. -/
def funcSize (m : Machine) : Nat :=
  (m.namedStacks.get? funcStack).elim 0 fun ref => (m.heap.stack ref).size

end Machine

end Linewise
