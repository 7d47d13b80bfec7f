import Linewise.Output.Writer

/-!
# Logger

A logger writes messages as lines to its output, each with its level if it has one, and remembers
what went wrong as an exit code: 1 after an error or a failure was reported, 2 after the output failed.
A line is put together in a buffer, and handed to the output in one write.
-/

namespace Linewise

/-- What can be written to: the answer to a write, and what has become of it. -/
class Outlet (ω : Type) where
  write : ω → Text → Receipt × ω

instance : Outlet Writer := ⟨fun w chunk => w.write .copy chunk⟩

/-- A write to an output. -/
structure Handover where
  chunk : Text
  /-- The answer of the output. -/
  receipt : Receipt
deriving DecidableEq, Repr

/-- The output reported an error, or did not take everything. -/
def Handover.failed (handover : Handover) : Bool :=
  handover.receipt.error.isSome || handover.receipt.count ≠ handover.chunk.length

/-- A logger with outputs of a type. -/
structure LoggerTo (ω : Type) where
  /-- Where lines go; without an output nothing is written. -/
  output : Option ω
  /-- Where a line is put together. -/
  buffer : Text
  exitCode : Nat
  /-- All writes to outputs, the latest first. -/
  handedBackwards : List Handover

namespace LoggerTo

variable {ω : Type}

/-- A logger without output. -/
def silent : LoggerTo ω := ⟨none, [], 0, []⟩

/-- All writes to outputs. -/
def handed (log : LoggerTo ω) : List Handover := log.handedBackwards.reverse

def setOutput (log : LoggerTo ω) (output : Option ω) : LoggerTo ω := { log with output }

/-- A text with a line feed at the end, if there is anything to end. -/
def endLine (s : Text) : Text := if s.isEmpty || s.getLast? = some 10 then s else s ++ [10]

/-- Puts a message into the buffer, behind its level and a colon if it has a level, and ends the line. -/
def collect (log : LoggerTo ω) (level message : Text) : LoggerTo ω :=
  { log with
    buffer := endLine (log.buffer ++ (if level.isEmpty then [] else level ++ [58, 32]) ++ message) }

variable [Outlet ω]

/-- Writes what is in the buffer to an output, if there is anything; whether that failed. What the output
does not take stays in the buffer. -/
def drain (log : LoggerTo ω) (w : ω) : Bool × LoggerTo ω :=
  if log.buffer.isEmpty then (false, log)
  else
    let (receipt, w) := Outlet.write w log.buffer
    let handover : Handover := ⟨log.buffer, receipt⟩
    (handover.failed, { log with
      output := some w
      buffer := log.buffer.drop receipt.count
      handedBackwards := handover :: log.handedBackwards })

/-- Writes a message to the output; whether the output failed. The buffer is cleared. -/
def send (log : LoggerTo ω) (level message : Text) : Bool × LoggerTo ω :=
  match log.output with
  | none => (false, log)
  | some w =>
    let (failed, log) := (log.collect level message).drain w
    (failed, { log with buffer := [] })

/-- Writes a message. -/
def print (log : LoggerTo ω) (level message : Text) : LoggerTo ω :=
  let (failed, log) := log.send level message
  if failed then { log with exitCode := 2 } else log

/-- Writes a message that counts as something gone wrong. -/
def report (log : LoggerTo ω) (level message : Text) : LoggerTo ω :=
  let (failed, log) := log.send level message
  if failed then { log with exitCode := 2 }
  else if log.exitCode = 0 then { log with exitCode := 1 }
  else log

/-- Reports an error. -/
def error (log : LoggerTo ω) (message : Text) : LoggerTo ω := log.report "ERROR" message

/-- Reports a failure, which has no level. -/
def fail (log : LoggerTo ω) (message : Text) : LoggerTo ω := log.report [] message

/-- Reports an error, if there is one. -/
def errorIf (log : LoggerTo ω) (message : Option Text) : LoggerTo ω :=
  match message with
  | some message => log.error message
  | none => log

/-- What the output has received. -/
def written (log : LoggerTo Writer) : Text := log.output.elim [] Writer.received

end LoggerTo

/-- A logger that writes to writers. -/
abbrev Logger := LoggerTo Writer

namespace Logger

/-- A logger without output. -/
def silent : Logger := LoggerTo.silent

/-- A logger that writes to a device. -/
def toDevice (d : Device) : Logger := silent.setOutput (some (.direct d))

/-! ## Templates -/

/-- A message with arguments in place of `%v` and `%s`, in order; `%%` is a percent sign. -/
def fill : Text → List Text → Text
  | 37 :: c :: rest, args =>
    if c = 118 || c = 115 then
      match args with
      | arg :: args => arg ++ fill rest args
      | [] => 37 :: c :: fill rest []
    else if c = 37 then 37 :: fill rest args
    else 37 :: fill (c :: rest) args
  | c :: rest, args => c :: fill rest args
  | [], _ => []

/-- A message without arguments is taken literally. -/
def format (template : Text) (args : List Text) : Text :=
  if args.isEmpty then template else fill template args

end Logger

end Linewise
