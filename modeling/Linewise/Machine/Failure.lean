import Linewise.Guard
import Linewise.Output.Writer
import Linewise.Storage.Basic
import Linewise.Value.Basic

/-!
# Failures

How a run can go wrong. A fault is the program's own mistake and names the line that was running; the
other failures come from the surroundings: output, sources, or an interruption.
-/

namespace Linewise

/-- A mistake of the program. -/
inductive Fault where
  | emptyProgram
  | unknownCommand (name : Text)
  | unknownLabel (name : Text)
  | unknownCast (name : Text)
  /-- A value, given by its text, was to be applied. -/
  | notExecutable (shown : Text)
  | invalidPattern (error : PatternError)
  | unreadable (path : Text)
  | unwritable (path : Text) (reason : StorageError)
  | outOfBounds (error : TapeError Number)
deriving DecidableEq, Repr

namespace Fault

def message : Fault → Text
  | .emptyProgram => "program must not be empty."
  | .unknownCommand name => named name ++ Text.ofString "is not a valid command."
  | .unknownLabel name => named name ++ Text.ofString "is not a valid label."
  | .unknownCast name => named name ++ Text.ofString "is not a valid cast."
  | .notExecutable shown => named shown ++ Text.ofString "is not executable."
  | .invalidPattern error => Text.ofString "invalid pattern: " ++ error.message
  | .unreadable path => named path ++ Text.ofString "could not be read."
  | .unwritable path reason =>
    named path ++ Text.ofString "could not be written: " ++ reason.message
  | .outOfBounds error => error.message
where
  /-- A name in plain quotes, and a blank. -/
  named (name : Text) : Text := 34 :: name ++ [34, 32]

end Fault

/-- Why a run was interrupted from outside. -/
inductive Interruption where
  | canceled
  | deadline
deriving DecidableEq, Repr

namespace Interruption

def message : Interruption → Text
  | .canceled => "context canceled"
  | .deadline => "context deadline exceeded"

end Interruption

/-- Why a run ended early. -/
inductive Failure where
  /-- A fault at a line, if it belongs to one. -/
  | fatal (line : Option Int) (fault : Fault)
  | output (error : WriteError)
  /-- A source or the feed failed. -/
  | input (message : Text)
  | interrupted (i : Interruption)
  /-- The feed could not be closed. -/
  | closing (message : Text)
deriving DecidableEq, Repr

namespace Failure

def message : Failure → Text
  | .fatal line fault =>
    line.elim [45] Text.ofInt ++ Text.ofString ": Error: " ++ fault.message
  | .output error => error.message
  | .input message => message
  | .interrupted i => i.message
  | .closing message => message

end Failure

/-- What stops a computation before it has a result. -/
inductive Stop where
  /-- The machine halted. -/
  | halted (failure : Failure)
  /-- Something broke that is no fault of the machine's making. -/
  | panicked (value : PanicValue)
  /-- The computation would go on for ever, or longer than it was given. -/
  | unfinished
deriving DecidableEq, Repr

end Linewise
