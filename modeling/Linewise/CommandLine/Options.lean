import Linewise.Text.Basic

/-!
# Options

What the arguments of the command line ask for. Options have a letter, a long name, or both. Letters
can be joined, a long name can be cut short as long as it is unique, a value follows in the same
argument or in the next one, and options and operands may stand in any order. After `--` all is
operands, `--` included.
-/

namespace Linewise

/-- The name and version of the program. -/
def versionText : Text := "eacal 0.1.0"

/-- The forms of the command line. -/
def usageText : Text :=
  "Usage:
  eacal [-tdb] [--timeout=DURATION] SCRIPT [ARGUMENTS...]
  eacal [-tdb] [--timeout=DURATION] -e PROGRAM [ARGUMENTS...]
  eacal [-itdb] [--timeout=DURATION]
  eacal -h
  eacal -v"

/-- All that there is to say about the command line. -/
def helpText : Text :=
  Text.ofString "eacal\n\n" ++ usageText ++ Text.ofString "

Arguments:
  SCRIPT     Path to an eacal program.
  ARGUMENTS  Values returned by the arg command.

Options:
  -e, --eval=PROGRAM    Run the given program text.
  -i, --interactive     Disable interactive mode.
  -t, --trace           Log every dispatched command to stderr.
  -d, --dump            Dump VM state to stderr after the run.
  -b, --brief           Leave program lines out of the dump.
  --timeout=DURATION    Stop the run after the given duration.
  -h, --help            Display this help.
  -v, --version         Print eacal version.

With no SCRIPT or PROGRAM, the program is read from stdin. If stdin is a
terminal, lines are instead prompted for and run as they are entered."

/-- An option that arguments can name. -/
structure OptionSpec where
  letter : Option UInt8
  /-- The long name with its dashes, empty if there is none. -/
  long : Text
  takesValue : Bool
deriving DecidableEq, Repr

namespace OptionSpec

def eval : OptionSpec := ⟨some 101, "--eval", true⟩
def interactive : OptionSpec := ⟨some 105, "--interactive", false⟩
def trace : OptionSpec := ⟨some 116, "--trace", false⟩
def dump : OptionSpec := ⟨some 100, "--dump", false⟩
def brief : OptionSpec := ⟨some 98, "--brief", false⟩
def timeout : OptionSpec := ⟨none, "--timeout", true⟩
def help : OptionSpec := ⟨some 104, "--help", false⟩
def version : OptionSpec := ⟨some 118, "--version", false⟩

/-- The options of the command line. -/
def known : List OptionSpec := [eval, interactive, trace, dump, brief, timeout, help, version]

end OptionSpec

/-- What is wrong with a command line. -/
inductive UsageError where
  | missingValue (option : Text)
  | unwantedValue (option : Text)
  | ambiguous (option : Text) (candidates : List Text)
  /-- The options and operands fit none of the forms. -/
  | noForm
deriving DecidableEq, Repr

namespace UsageError

def message : UsageError → Text
  | .missingValue option => option ++ Text.ofString " requires argument"
  | .unwantedValue option => option ++ Text.ofString " must not have an argument"
  | .ambiguous option candidates =>
    option ++ Text.ofString " is not a unique prefix: " ++ Text.join ", " candidates ++ [63]
  | .noForm => []

end UsageError

/-- A piece of the command line. -/
inductive Item where
  | option (spec : OptionSpec) (value : Option Text)
  | operand (text : Text)
deriving DecidableEq, Repr

/-- The options met so far, the unknown ones included: an unknown option is known from then on, so
that it can be cut short or be ambiguous like any other. -/
abbrev OptionTable := List OptionSpec

/-- What an argument gives: items, the table after it, and whether it took the next argument. -/
structure ArgumentReading where
  items : List Item
  table : OptionTable
  tookNext : Bool

namespace OptionTable

/-- The argument from which on all is operands. -/
def dashes : Text := "--"

/-- The next argument as a value. -/
def nextValue (option : Text) (next : Option Text) : Except UsageError Text :=
  match next with
  | some value => if value = dashes then .error (.missingValue option) else .ok value
  | none => .error (.missingValue option)

/-- The options that a long name can mean: the one with this name, else those whose names it
begins. -/
def candidates (table : OptionTable) (name : Text) : List OptionSpec :=
  match table.filter fun spec => spec.long = name with
  | [] => table.filter fun spec => name.isPrefixOf spec.long
  | exact => exact

/-- Reads an argument that is a long option, with its value after an equals sign or in the next
argument. -/
def readLong (table : OptionTable) (arg : Text) (next : Option Text) :
    Except UsageError ArgumentReading := do
  let (name, value) : Text × Option Text := match arg.cut? 61 with
    | some (name, value) => (name, some value)
    | none => (arg, none)
  match table.candidates name with
  | [] =>
    let spec : OptionSpec := ⟨none, name, value.isSome⟩
    return ⟨[.option spec value], table ++ [spec], false⟩
  | [spec] =>
    match spec.takesValue, value with
    | false, none => return ⟨[.option spec none], table, false⟩
    | false, some _ => throw (.unwantedValue spec.long)
    | true, some value => return ⟨[.option spec (some value)], table, false⟩
    | true, none => return ⟨[.option spec (some (← nextValue spec.long next))], table, true⟩
  | specs => throw (.ambiguous name (specs.map OptionSpec.long))

/-- Reads joined letters. A letter that takes a value takes the rest as its value, or the next
argument if nothing is left. -/
def readLetters (table : OptionTable) (next : Option Text) : Text → Except UsageError ArgumentReading
  | [] => return ⟨[], table, false⟩
  | c :: rest => do
    match table.find? fun spec => spec.letter = some c with
    | none =>
      let spec : OptionSpec := ⟨some c, [], false⟩
      let r ← readLetters (table ++ [spec]) next rest
      return { r with items := .option spec none :: r.items }
    | some spec =>
      if spec.takesValue then
        if rest.isEmpty then
          return ⟨[.option spec (some (← nextValue [45, c] next))], table, true⟩
        else return ⟨[.option spec (some rest)], table, false⟩
      else
        let r ← readLetters table next rest
        return { r with items := .option spec none :: r.items }

/-- Reads one argument, with the next one at hand. -/
def readArgument (table : OptionTable) (arg : Text) (next : Option Text) :
    Except UsageError ArgumentReading :=
  if dashes.isPrefixOf arg then table.readLong arg next
  else
    match arg with
    | 45 :: c :: letters => table.readLetters next (c :: letters)
    | _ => .ok ⟨[.operand arg], table, false⟩

/-- Reads the arguments. -/
def readAll (table : OptionTable) (args : List Text) : Except UsageError (List Item) := do
  match args with
  | [] => return []
  | arg :: rest =>
    if arg = dashes then return (arg :: rest).map .operand
    let r ← table.readArgument arg rest.head?
    return r.items ++ (← r.table.readAll (if r.tookNext then rest.tail else rest))
termination_by args.length
decreasing_by
  split <;> simp only [List.length_cons, List.length_tail] <;> omega

end OptionTable

/-- How the program is to be run. -/
structure Options where
  /-- The path of the program. -/
  script : Option Text
  /-- The program itself. -/
  program : Option Text
  /-- What the program is given. -/
  arguments : List Text
  interactive : Bool
  trace : Bool
  dump : Bool
  brief : Bool
  timeout : Option Text
deriving DecidableEq, Repr

/-- What a command line asks for. -/
inductive Invocation where
  | help
  | version
  | run (options : Options)
deriving DecidableEq, Repr

namespace Invocation

/-- The values with which an option is given. -/
def occurrences (spec : OptionSpec) (items : List Item) : List (Option Text) :=
  items.filterMap fun
    | .option s value => if s = spec then some value else none
    | .operand _ => none

/-- The operands, in order. -/
def operands (items : List Item) : List Text :=
  items.filterMap fun
    | .operand s => some s
    | .option _ _ => none

/-- Whether an option is given. -/
def has (spec : OptionSpec) (items : List Item) : Bool := !(occurrences spec items).isEmpty

/-- The value of an option. -/
def value? (spec : OptionSpec) (items : List Item) : Option Text :=
  (occurrences spec items).head?.join

/-- Whether all options are known and none is given twice. -/
def isPlain (items : List Item) : Bool :=
  items.all fun
    | .option spec _ => OptionSpec.known.contains spec && (occurrences spec items).length = 1
    | .operand _ => true

/-- The invocation that the items of a command line make. With a program text all operands are
arguments of the program, else the first is the script; interactive runs have neither. -/
def ofItems (items : List Item) : Except UsageError Invocation := do
  if has .help items then return .help
  if has .version items then return .version
  let interactive := has .interactive items
  let given := has .eval items || !(operands items).isEmpty
  if !isPlain items || (interactive && given) then throw .noForm
  let (script, arguments) : Option Text × List Text :=
    if has .eval items then (none, operands items)
    else ((operands items).head?, (operands items).tail)
  return .run
    { script
      program := value? .eval items
      arguments
      interactive
      trace := has .trace items
      dump := has .dump items
      brief := has .brief items
      timeout := value? .timeout items }

/-- The invocation that arguments ask for. -/
def read (args : List Text) : Except UsageError Invocation := do
  ofItems (← OptionTable.readAll OptionSpec.known args)

end Invocation

end Linewise
