import Linewise.Machine.Command

/-!
# Runs

A run loads the program from its sources and then goes from line to line: the queued jumps are
announced, the line at the pointer is fetched and run, and the pointer moves on. It ends when the
running flag is cleared or no line is left, and announces its end. `fuel` bounds the depth of nested
commands, the count of jumps announced at once and the count of lines.
-/

namespace Linewise

/-- How a run ended. -/
inductive Outcome where
  | finished
  | failed (f : Failure)
  /-- A panic, as the guard around the run reports it. -/
  | panicked (e : GuardError)
  /-- The run would go on for ever, or longer than its fuel. -/
  | unfinished
deriving DecidableEq, Repr

namespace Machine

/-! ## Loading -/

/-- Reads lines from the sources until they are used up; `count` bounds the requests. -/
def loadLines : (count : Nat) → Action Unit
  | 0 => return
  | count + 1 => do
    match ← modifyGet fun m =>
        let (result, sources) := m.sources.readLine
        (result, { m with sources }) with
    | .line l =>
      modify fun m => m.addLine l.location l.text
      loadLines count
    | .failed _ message => halt (.input message)
    | .ended => return

/-- Loads the program, which must not be empty unless there is a feed. -/
def loadProgram : Action Unit := do
  loadLines ((← get).sources.remaining + 1)
  let m ← get
  if m.lines.isEmpty && m.feed.isNone then fail .emptyProgram

/-! ## The loop -/

/-- Announces the queued jumps, and those that are queued meanwhile. -/
def drain (self : Dispatch) : (count : Nat) → Action Unit
  | 0 => do unless (← get).queue.isEmpty do throw .unfinished
  | count + 1 => do
    match (← get).queue with
    | [] => return
    | target :: queue =>
      modify fun m => { m with queue }
      record (.announced target)
      trigger self "jump" [.number (.ofNat target)]
      drain self count

/-- What is written down of the machine when a watched feed is asked, unless its dump has no end. -/
def view? (m : Machine) : Option (Int × Text × Text) :=
  (m.dump? true).map fun dump => (m.pointer, (m.sink.writers.head?).elim [] Writer.received, dump)

/-- Records that the feed is asked, with a view of the machine if it is watched. -/
def recordAsking (feed : Feed) : Action Unit := do
  let m ← get
  record (.asked (if feed.watched then m.view? else none))

/-- Shows the prompt of the feed, if it has one, past any buffer. -/
def showPrompt (feed : Feed) : Action Unit := do
  unless feed.prompt.isEmpty do
    modify fun m => { m with sink := (m.sink.write .text feed.prompt).2.flush.2 }

/-- A watched feed answers only after the dump has been written down, so a dump without end keeps the run
from going on. -/
def checkView (feed : Feed) : Action Unit := do
  if feed.watched && (← get).view?.isNone then throw .unfinished

/-- Turns to the feed: what has been written is flushed, and the prompt is shown. -/
def turnToFeed (feed : Feed) : Action Unit := do
  if let some e ← flush then halt (.output e)
  recordAsking feed
  showPrompt feed
  checkView feed

/-- Whether the pointer is past the last line. -/
def isPastEnd (m : Machine) : Bool := m.lines.size ≤ m.pointer

/-- Takes lines from the feed until there is one at the pointer; whether there is. -/
def fetchFrom (feed : Feed) : List Text → Action Bool
  | [] => do
    unless (← get).isPastEnd do return 0 ≤ (← get).pointer
    turnToFeed feed
    match feed.failure with
    | some message => halt (.input message)
    | none =>
      modify fun m => { m with feed := none }
      return false
  | text :: rest => do
    unless (← get).isPastEnd do return 0 ≤ (← get).pointer
    turnToFeed feed
    modify fun m =>
      { m.addLine ⟨"<interactive>", m.lines.size + 1⟩ text with
        feed := some { feed with lines := rest } }
    fetchFrom feed rest

/-- Whether there is a line at the pointer, asking the feed for it if there is a feed. -/
def fetch : Action Bool := do
  let m ← get
  match m.feed with
  | none => return 0 ≤ m.pointer && !m.isPastEnd
  | some feed => fetchFrom feed feed.lines

/-- Runs the line at the pointer. -/
def step (self : Dispatch) : Action Unit := do
  let m ← get
  match m.lines[m.pointer.toNat]? with
  | none => return
  | some line =>
    record (.stepped m.pointer.toNat)
    unless line.tokens.isEmpty do
      note '@' fun _ => some (line.location.text ++ (32 :: line.text))
      let _ ← self line.tokens

/-- Halts if the run has been interrupted. -/
def checkInterruption : Action Unit := do
  if let some i := (← get).interruption then halt (.interrupted i)

/-- Goes from line to line until the run ends. -/
def cycle (self : Dispatch) (jumps : Nat) : (count : Nat) → Action Unit
  | 0 => throw .unfinished
  | count + 1 => do
    drain self jumps
    unless (← get).running do return
    unless ← fetch do return
    record (.fetched (← get).pointer.toNat)
    checkInterruption
    step self
    modify fun m => { m with pointer := m.pointer + 1 }
    cycle self jumps count

/-- Announces the end of the run. -/
def announceEnd (self : Dispatch) : Action Unit := do
  modify fun m => { m with running := false }
  let m ← get
  note '#' fun _ => some (Text.ofString "end @" ++ Text.ofInt m.pointer)
  record .ended
  trigger self "end" []

/-- Loads the program and runs it to its end. -/
def program (fuel : Nat) : Action Unit := do
  loadProgram
  modify fun m => { m with running := true, pointer := 0 }
  cycle (exec fuel) fuel fuel
  announceEnd (exec fuel)
  if let some e ← flush then throw (.halted (.output e))

/-- The outcome of a run, after the feed has been closed. -/
def outcome (m : Machine) : Except Stop Unit → Outcome
  | .ok () => m.closeError.elim .finished fun e => .failed (.closing e)
  | .error (.halted f) => .failed f
  | .error (.panicked value) =>
    match (Ending.panics value).recover "VM" with
    | some e => .panicked e
    | none => .finished
  | .error .unfinished => .unfinished

/-- Runs a machine; the outcome, and the machine afterwards. -/
def run (fuel : Nat) (m : Machine) : Outcome × Machine :=
  let (result, m) := (program fuel).run.run m
  (m.outcome result, m)

/-- The moments of the history, in order. -/
def moments (m : Machine) : List Moment := m.history.reverse

/-- What the machine did, in order. -/
def occurrences (m : Machine) : List Occurrence := m.moments.map Moment.occurrence

end Machine

end Linewise
