import Linewise.Machine.Action

/-!
# Commands

What commands do. A command evaluates a nested command by dispatching the rest of its parameters;
`self` is what dispatches them. Every dispatched command triggers the event of its name with its
result. Dispatching is bounded by the depth of nesting that it is given: `Machine.exec`.
-/

namespace Linewise

namespace Machine

/-! ## Applying executables -/

/-- Notes the call of a listener of the host, and does what the listener does. -/
def hear (id : Nat) (args : List Text) : Action Unit := do
  let m ← get
  match m.hosts[id]? with
  | none => return
  | some host =>
    record (.heard host.event args m.pointer m.funcSize m.text)
    let host := { host with calls := host.calls + 1 }
    modify fun m => { m with hosts := m.hosts.setIfInBounds id host }
    if host.after ≤ host.calls then
      match host.action with
      | .nothing => return
      | .stop => stopRunning
      | .cancel => modify fun m => { m with interruption := m.interruption.or (some .canceled) }

/-- How an operator without a result stops the machine. -/
def operatorStop : OperatorError → Stop
  | .endless => .unfinished
  | .tooLong => .panicked (.text (OperatorError.message .tooLong))
  | .missing index count => .panicked (.error (OperatorError.message (.missing index count)))
  | .outside start count => .panicked (.error (OperatorError.message (.outside start count)))

/-- The stack that the arguments of an operator name: the first of them, or `func` if there are none. -/
def operandStack (args : List Text) : Text := args.headD funcStack

/-- Applies an operator to operands from the top of the stack that its arguments name. -/
def operate (op : Operator) (args : List Text) : Action Value := do
  let name := operandStack args
  let ref ← stackRef name
  let operands ← onStack ref (Stack.popMany Value.zero op.arity)
  note '$' fun h => do
    return op.name ++ (32 :: (← h.operands? operands)) ++ Text.ofString " <- " ++ name
  match (← get).heap.operate op operands with
  | .ok v => return v
  | .error e => throw (operatorStop e)

/-- Applies an executable to arguments. An operator is given the name of its operand stack only, and a
closure dispatches its tokens and the arguments. -/
def apply (self : Dispatch) (ex : Executable) (args : List Text) : Action Value := do
  match ex with
  | .operator op =>
    let name := operandStack args
    note '$' fun _ => some <|
      applied ++ Text.ofString " <- stack " ++ Quoted.text name
    operate op [name]
  | .closure _ params =>
    note '$' fun _ => some (applied ++ (32 :: Quoted.texts args))
    self (params ++ args)
  | .host id =>
    note '$' fun _ => some (applied ++ (32 :: Quoted.texts args))
    hear id args
    return .undefined
where
  applied : Text := Text.ofString "apply " ++ ex.kind ++ (32 :: ex.text)

/-! ## Events -/

/-- Applies the listeners of an event one after the other. -/
def deliver (self : Dispatch) (event : Text) (args : List Text) : List Executable → Action Unit
  | [] => return
  | ex :: rest => do
    record (.delivered event args ex)
    let _ ← apply self ex args
    deliver self event args rest

/-- Applies the listeners that an event has now. The payload becomes their arguments; an undefined
value is left out. -/
def trigger (self : Dispatch) (event : Text) (payload : List Value) : Action Unit := do
  match (← get).listeners.get? event with
  | none => return
  | some [] => return
  | some listeners =>
    let args ← (payload.filter fun v => !v matches .undefined).mapM textOf
    note '!' fun _ => some (Text.ofString "trigger " ++ event ++ (32 :: Quoted.texts args))
    record (.triggered event args listeners)
    deliver self event args listeners

/-! ## The builtins -/

/-- A text up to the first semicolon without a backslash before it. A backslash protects the byte
after it, a second backslash too. -/
def uncommented : Text → Text
  | [] => []
  | 92 :: b :: rest => 92 :: b :: uncommented rest
  | b :: rest => if b = 59 then [] else b :: uncommented rest

/-- The arguments before the first `--` and the command after it; without one all is command. -/
def splitArguments (params : List Text) : List Text × List Text :=
  let dashes : Text := "--"
  if params.contains dashes then
    (params.takeWhile (· ≠ dashes), (params.dropWhile (· ≠ dashes)).tail)
  else ([], params)

/-- The empty value of a type; a list unless the type is known. -/
def emptyOf (type : Text) : Value :=
  if type = Text.ofString "number" then .zero
  else if type = Text.ofString "string" then .text []
  else .list []

/-- Stores a text under a path. -/
def persist (path text : Text) : Action Unit := do
  record (.sought path)
  match (← get).storage.persist path text with
  | .ok storage => modify fun m => { m with storage }
  | .error e => fail (.unwritable path e)

/-- The text stored under a path. -/
def load (path : Text) : Action Text := do
  record (.sought path)
  match (← get).storage.load path with
  | .ok text => return text
  | .error _ => fail (.unreadable path)

/-- The argument of the invocation at an index, undefined if there is none. -/
def argumentAt (index : Option Int) : Action Value := do
  match index with
  | some (.ofNat i) => return ((← get).arguments[i]?).elim .undefined .text
  | _ => return .undefined

/-- The conversions that a program can ask for. -/
inductive Cast where
  | string | number | regex
deriving DecidableEq, Repr

/-- The conversion with a name. -/
def cast? (name : Text) : Option Cast :=
  if name = Text.ofString "string" then some .string
  else if name = Text.ofString "number" then some .number
  else if name = Text.ofString "regex" then some .regex
  else none

/-- Converts a value. -/
def convert : Cast → Value → Action Value
  | .string, v => return .text (← textOf v)
  | .number, v => return .number (← numberOf v)
  | .regex, .pattern p => return .pattern p
  | .regex, v => do patternOf (← textOf v) []

/-- The number under the pointer of a tape. -/
def readTape (ref : TapeRef) : Action Value := do
  match ((← get).heap.tape ref).get with
  | .ok (x, t) =>
    modify fun m => { m with heap := m.heap.setTape ref t }
    return .number x
  | .error e => halt (.fatal none (.outOfBounds e))

/-- Jumps to a label. -/
def gotoLabel (label : Text) : Action Unit := do
  match (← get).labels.get? label with
  | some target => jump label target
  | none => fail (.unknownLabel label)

/-- Makes a name stand for an executable. -/
def defineCommand (name : Text) (ex : Executable) : Action Unit := do
  modify fun m => { m with registry := m.registry.register name (.apply ex) }
  record (.defined name ex)

/-- Gives a name the effect of another command. -/
def makeSynonym (name existing : Text) : Action Unit := do
  match (← get).registry.alias? name existing with
  | some registry =>
    modify fun m => { m with registry }
    record (.aliased name existing)
  | none => fail (.unknownCommand existing)

/-- Performs a builtin with its parameters. -/
def perform (self : Dispatch) (b : Builtin) (params : List Text) : Action Value := do
  record (.performed b)
  let first := params.headD []
  let rest := params.tail
  match b with
  | .number => return .number (params.head?.elim .nan .read)
  | .numlist => return .numbers (params.map .read)
  | .string => return .text (uncommented (.join [32] params))
  | .regex => patternOf (← textOf (← self rest)) first
  | .empty => return emptyOf first
  | .space => return .text [32]
  | .tab => return .text [9]
  | .newline => return .text [10]
  | .print =>
    let v ← self params
    emitLine (← textOf v)
    return v
  | .put =>
    let v ← self params
    emit (← textOf v)
    return v
  | .write =>
    let text ← textOf (← self rest)
    persist first text
    return .text text
  | .read => return .text (← load first)
  | .init => return .stack (← newStack first)
  | .push =>
    let v ← self rest
    pushOnto (← stackRef first) v
    return v
  | .pop => onStack (← stackRef first) (Stack.pop Value.zero)
  | .stack => return .stack (← stackRef first)
  | .func =>
    return (Operator.named? (.join [32] params)).elim .undefined fun op => .executable (.operator op)
  | .label => return .zero
  | .eval => return .executable (.closure b.name params)
  | .curry => return .executable (.closure b.name params)
  | .exec =>
    let (args, command) := splitArguments params
    apply self (← executableOf (← self command)) args
  | .set =>
    let v ← self rest
    modify fun m => { m with object := m.object.insert first v }
    return v
  | .get => return ((← get).object.get? first).getD .undefined
  | .goto =>
    gotoLabel first
    return .undefined
  | .rem => return .undefined
  | .semicolon => return .undefined
  | .arg =>
    if params.isEmpty || first = Text.ofString "all" then return .texts (← get).arguments
    let v ← self params
    argumentAt (← finished ((← get).heap.index? v))
  | .listen =>
    let ex ← executableOf (← self rest)
    modify fun m => m.listen first ex
    return .undefined
  | .cast =>
    match cast? first with
    | none => fail (.unknownCast first)
    | some c => convert c (← self rest)
  | .exit =>
    stopRunning
    return .undefined
  | .branch =>
    unless (← self params).isTruthy do skipLine
    return .undefined
  | .define =>
    let ex ← executableOf (← self rest)
    defineCommand first ex
    return .undefined
  | .synonym =>
    makeSynonym first (rest.headD [])
    return .undefined
  | .strap =>
    unless params.isEmpty do
      let text ← textOf (← self params)
      modify fun m => { m with text := m.text ++ text }
    return .text (← get).text
  | .strcl =>
    modify fun m => { m with text := [] }
    return .text []
  | .v =>
    emitLine "eacal is currently running."
    return .undefined
  | .initape =>
    let bounds ← if rest.isEmpty then pure [] else do
      let v ← self rest
      finished ((← get).heap.numbers? v)
    return .tape (← newTape first bounds)
  | .tape => return .tape (← tapeRef first)
  | .setape =>
    let ref ← tapeRef first
    let x ← numberOf (← self rest)
    return .number (← onTape ref fun t => t.set x)
  | .getape => readTape (← tapeRef first)
  | .setptr =>
    let ref ← tapeRef first
    let x ← numberOf (← self rest)
    onTape ref fun t => ((), { t with pointer := x })
    return .number x
  | .getptr =>
    let ref ← tapeRef first
    return .number ((← get).heap.tape ref).pointer

/-! ## Dispatch -/

/-- Does what a command name stands for. -/
def enact (self : Dispatch) (effect : Effect) (params : List Text) : Action Value :=
  match effect with
  | .builtin b => perform self b params
  | .apply ex => apply self ex params
  | .constant v => return v

/-- What a command name stands for, which has to be something. -/
def effectOf (name : Text) : Action Effect := do
  match (← get).registry.lookup name with
  | some effect => return effect
  | none => fail (.unknownCommand name)

/-- Runs tokens as a command: the first is its name, empty if there is none. Its event is triggered
with its result. -/
def dispatch (self : Dispatch) (tokens : List Text) : Action Value := indented do
  let name := tokens.headD []
  let params := tokens.tail
  let v ← enact self (← effectOf name) params
  note '>' fun h => do
    return name ++ (32 :: Quoted.texts params) ++ Text.ofString " => " ++ (← h.shown? v)
  trigger self name [v]
  return v

/-- Runs tokens as a command, with commands nested up to a depth. -/
def exec : (depth : Nat) → Dispatch
  | 0 => fun _ => throw .unfinished
  | depth + 1 => dispatch (exec depth)

end Machine

end Linewise
