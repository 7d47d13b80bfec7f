import Linewise.Machine.Dump
import Linewise.Text.Ansi
import Linewise.Value.Operate

/-!
# Actions

The steps that commands are made of. An action changes the machine and gives a result or a stop; what
it did to the machine before a stop stays done.
-/

namespace Linewise

/-- A computation on a machine. -/
abbrev Action := ExceptT Stop (StateM Machine)

/-- What runs a list of tokens as a command. -/
abbrev Dispatch := List Text → Action Value

namespace Machine

/-! ## History and trace -/

/-- An occurrence as it is recorded by a machine. -/
def moment (m : Machine) (o : Occurrence) : Moment :=
  ⟨o, m.pointer, m.running, m.queue, m.lines.size, m.labels, m.listeners, m.interruption, m.sink⟩

/-- Puts an occurrence into the history. -/
def record (o : Occurrence) : Action Unit :=
  modify fun m => { m with history := m.moment o :: m.history }

/-- Adds a line to the trace, if there is one. -/
def note (mark : Char) (message : Heap → Option Text) : Action Unit := do
  let m ← get
  match m.trace with
  | none => return
  | some t =>
    match message m.heap with
    | none => throw .unfinished
    | some s => set { m with trace := some (t.add mark s) }

/-- Runs an action as part of a dispatch: the trace is indented meanwhile, however it ends. -/
def indented {α : Type} (x : Action α) : Action α := fun m =>
  let deeper (t : Trace) : Trace := { t with depth := t.depth + 1 }
  let back (t : Trace) : Trace := { t with depth := t.depth - 1 }
  let (r, m) := x { m with trace := m.trace.map deeper }
  (r, { m with trace := m.trace.map back })

/-! ## Stopping -/

/-- Flushes the output; the error, if there was one. -/
def flush : Action (Option WriteError) :=
  modifyGet fun m =>
    let (e, sink) := m.sink.flush
    (e, { m with sink })

/-- Stops with a failure, after what has been written is flushed. -/
def halt {α : Type} (f : Failure) : Action α := do
  let _ ← flush
  note '#' fun _ => some (Text.ofString "halt error: " ++ f.message)
  throw (.halted f)

/-- Stops with a fault at the line that runs. -/
def fail {α : Type} (fault : Fault) : Action α := do
  halt (.fatal (some (← get).pointer) fault)

/-- A result that only an endless value lacks. -/
def finished {α : Type} : Option α → Action α
  | some a => return a
  | none => throw .unfinished

/-- The text of a value. -/
def textOf (v : Value) : Action Text := do finished ((← get).heap.text? v)

/-- The number of a value. -/
def numberOf (v : Value) : Action Number := do finished ((← get).heap.number? v)

/-- The executable that a value has to be. -/
def executableOf (v : Value) : Action Executable := do
  match v with
  | .executable ex => return ex
  | v => fail (.notExecutable (← textOf v))

/-- The pattern with a source and flags. -/
def patternOf (source flags : Text) : Action Value := do
  match Pattern.compile source flags with
  | .ok p => return .pattern p
  | .error e => fail (.invalidPattern e)

/-! ## Output -/

/-- Writes bytes to the output, and halts if that fails. -/
def write (delivery : Delivery) (bytes : Text) : Action Unit := do
  let error ← modifyGet fun m =>
    let (receipt, sink) := m.sink.write delivery bytes
    (receipt.error, { m with sink })
  match error with
  | some e => halt (.output e)
  | none => record (.emitted bytes)

/-- Writes a text in its seven-bit form. Only a text that changes has to be copied. -/
def emit (text : Text) : Action Unit :=
  write (if text.chars.any Ansi.isC1 then .copy else .text) (Ansi.convert text)

/-- Writes a text and a line feed. -/
def emitLine (text : Text) : Action Unit := do
  emit text
  write .text [10]

/-! ## Memories -/

/-- The stack with a name; there is one from now on. -/
def stackRef (name : Text) : Action StackRef :=
  modifyGet fun m =>
    match m.namedStacks.get? name with
    | some ref => (ref, m)
    | none =>
      let (ref, heap) := m.heap.addStack .empty
      (ref, { m with heap, namedStacks := m.namedStacks.insert name ref })

/-- Gives a name a new stack. -/
def newStack (name : Text) : Action StackRef :=
  modifyGet fun m =>
    let (ref, heap) := m.heap.addStack .empty
    (ref, { m with heap, namedStacks := m.namedStacks.insert name ref })

/-- Changes a stack; what the change gives. -/
def onStack {α : Type} (ref : StackRef) (change : Stack Value → α × Stack Value) : Action α :=
  modifyGet fun m =>
    let (a, s) := change (m.heap.stack ref)
    (a, { m with heap := m.heap.setStack ref s })

/-- Records that a value comes to lie on a stack, if it refers to stacks. -/
def recordNesting (ref : StackRef) (v : Value) : Action Unit :=
  unless v.stackRefs.isEmpty do record (.nested ref v.stackRefs (← get).heap.links)

/-- Puts a value on top of a stack. -/
def pushOnto (ref : StackRef) (v : Value) : Action Unit := do
  recordNesting ref v
  onStack ref fun s => ((), s.push v)

/-- Gives a name a new tape. -/
def newTape (name : Text) (bounds : List Number) : Action TapeRef :=
  modifyGet fun m =>
    let (ref, heap) := m.heap.addTape (.ofBounds m.pageSize bounds)
    (ref, { m with heap, namedTapes := m.namedTapes.insert name ref })

/-- The tape with a name; there is one from now on. -/
def tapeRef (name : Text) : Action TapeRef := do
  match (← get).namedTapes.get? name with
  | some ref => return ref
  | none => newTape name []

/-- Changes a tape; what the change gives. -/
def onTape {α : Type} (ref : TapeRef) (change : Tape Number → α × Tape Number) : Action α :=
  modifyGet fun m =>
    let (a, t) := change (m.heap.tape ref)
    (a, { m with heap := m.heap.setTape ref t })

/-! ## Control -/

/-- Clears the running flag. -/
def stopRunning : Action Unit := do
  modify fun m => { m with running := false }
  record .stopped

/-- Passes over the line that would come next. -/
def skipLine : Action Unit := do
  modify fun m => { m with pointer := m.pointer + 1 }
  record .skipped

/-- Moves the pointer so that the line of a label comes next, and queues the jump. -/
def jump (label : Text) (target : Nat) : Action Unit := do
  let m ← get
  note '^' fun _ => some <|
    Text.ofString "jump " ++ Text.ofInt m.pointer ++ Text.ofString " -> " ++ Text.ofNat target
  modify fun m => { m with pointer := (target : Int) - 1, queue := m.queue ++ [target] }
  record (.jumped label target)

end Machine

end Linewise
