import Linewise.CommandLine.Duration
import Linewise.CommandLine.Options
import Linewise.Log.LineLog
import Linewise.Log.Logger
import Linewise.Machine.Run

/-!
# Launches

What the program does from its arguments to its exit code, as a function: the surroundings before the
launch give the output, the messages and the files after it.
-/

namespace Linewise

/-- What a launch finds. -/
structure Surroundings where
  arguments : List Text
  /-- All that can be read from the standard input, which is no terminal. -/
  input : Text
  disk : Disk

/-- What a launch leaves. -/
structure Report where
  exitCode : Nat
  output : Text
  messages : Text
  disk : Disk
  /-- The paths that were read or written. -/
  sought : List Text

namespace Launch

/-- What is shown before each line that is typed in. -/
def prompt : Text := "eacal> "

/-- The longest piece of a line that is taken at once. -/
def pieceLimit : Nat := 4096

/-- The lines that are typed in. A line without end in its first bytes, as many as are taken at once,
comes in pieces; a carriage return at the end of a piece is left for the next one. -/
def typedLines : (count : Nat) → Text → List Text
  | 0, _ => []
  | _, [] => []
  | count + 1, s =>
    let piece := s.take pieceLimit
    match Text.cut? 10 piece with
    | some (line, _) => Text.dropEnding [13] line :: typedLines count (s.drop (line.length + 1))
    | none =>
      if s.length < pieceLimit then [s]
      else
        let piece := Text.dropEnding [13] piece
        piece :: typedLines count (s.drop piece.length)

/-- Timeouts below this many nanoseconds are over before the first line. -/
def shortest : Int := 1000

/-- What a timeout means for the run: it is over at once, or it never gets in the way. -/
def interruption? (timeout : Option Text) : Except Text (Option Interruption) :=
  match timeout with
  | none => .ok none
  | some [] => .ok none
  | some s =>
    match Duration.read s with
    | .error e => .error (Text.ofString "invalid --timeout: " ++ e.message)
    | .ok d => .ok (if d < shortest then some .deadline else none)

/-- The source that a script is read from. A directory can be opened but not be read. -/
def scriptSource (disk : Disk) (path : Text) : Except Text Source :=
  match disk.openNode path with
  | .error e => .error (StorageError.disk path e).message
  | .ok (.file text) => .ok ⟨some path, text, none, true⟩
  | .ok .directory =>
    let failure := Text.ofString "read " ++ path ++ Text.ofString ": "
      ++ DiskError.isDirectory.message
    .ok ⟨some path, [], some failure, true⟩

/-- The path of the script, if there is one. An empty path does not count. -/
def script? (o : Options) : Option Text := o.script.filter fun path => !path.isEmpty

/-- The text of the program, if it is given. An empty text does not count. -/
def program? (o : Options) : Option Text := o.program.filter fun text => !text.isEmpty

/-- Whether the program comes from the standard input. -/
def readsInput (args : List Text) : Bool :=
  match Invocation.read args with
  | .ok (.run o) => (script? o).isNone && (program? o).isNone
  | _ => false

/-- Where the program comes from: a script, a text, or the standard input, at once or line by line. -/
def programSource (o : Options) (s : Surroundings) : Except Text (List Source × Option Feed) :=
  match script? o, program? o with
  | some path, _ => do return ([← scriptSource s.disk path], none)
  | none, some text => .ok ([.ofText "-e" text], none)
  | none, none =>
    if o.interactive then .ok ([], some ⟨typedLines s.input.length s.input, none, false, prompt⟩)
    else .ok ([.ofText "<stdin>" s.input], none)

/-- The machine that options ask for. -/
def machine (o : Options) (s : Surroundings) : Except Text Machine := do
  let interruption ← interruption? o.timeout
  let (sources, feed) ← programSource o s
  return { Machine.initial .standard with
    sources := .ofSources sources
    feed
    arguments := o.arguments
    sink := .one (.withBuffer .memory)
    storage := .directory [] s.disk
    interruption
    trace := if o.trace then some .empty else none }

/-- Reports how a run ended, a panic with the stack of calls. A run that is given up has taken too long. -/
def reportOutcome (callStack : Text) (log : Logger) : Outcome → Logger
  | .finished => log
  | .failed f =>
    match f with
    | .fatal _ _ => log.fail f.message
    | f => log.error f.message
  | .panicked e => log.error (e.verbose callStack)
  | .unfinished => log.error Interruption.deadline.message

/-- The log of a run: the trace, the dump if it is asked for, and how the run ended. -/
def log (callStack : Text) (o : Options) (outcome : Outcome) (m : Machine) : Logger :=
  let log := Logger.toDevice .memory
  let log := (m.trace.elim [] Trace.lines).foldl (fun log line => log.print "TRACE" line) log
  let dump := if o.dump then LineLog.linesOf ((m.dump? o.brief).getD []) else []
  let log := dump.foldl (fun log line => log.print "DUMP" line) log
  reportOutcome callStack log outcome

/-- Runs the program that options ask for. -/
def run (fuel : Nat) (callStack : Text) (o : Options) (s : Surroundings) : Report :=
  match machine o s with
  | .error message =>
    let log := (Logger.toDevice .memory).error message
    ⟨log.exitCode, [], log.written, s.disk, (script? o).toList⟩
  | .ok m =>
    let (outcome, m) := m.run fuel
    let log := log callStack o outcome m
    let disk := match m.storage with
      | .directory _ disk => disk
      | .table _ _ => s.disk
    let sought := m.occurrences.filterMap fun
      | .sought path => some path
      | _ => none
    { exitCode := log.exitCode
      output := m.sink.writers.flatMap Writer.received
      messages := log.written
      disk
      sought := (script? o).toList ++ sought }

end Launch

/-- Launches the program; `fuel` is how long it may run. A panic is reported with a stack of calls, which
the program has no part in. -/
def launchUnder (callStack : Text) (fuel : Nat) (s : Surroundings) : Report :=
  match Invocation.read s.arguments with
  | .error e =>
    let message := if e.message.isEmpty then [] else e.message ++ [10]
    ⟨1, [], message ++ usageText ++ [10], s.disk, []⟩
  | .ok .help => ⟨0, helpText ++ [10], [], s.disk, []⟩
  | .ok .version => ⟨0, versionText ++ [10], [], s.disk, []⟩
  | .ok (.run o) => Launch.run fuel callStack o s

/-- A launch without a record of calls. -/
def launch (fuel : Nat) (s : Surroundings) : Report := launchUnder [] fuel s

end Linewise
