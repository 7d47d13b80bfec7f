import Linewise.Text.Basic

/-!
# Guards

A guard runs a computation and turns an abnormal end into an error: a panic, with the value it was
raised with, or an exit from the thread of the computation. Guards have names; an error that a guard
has made passes through the guards around it unchanged.
-/

namespace Linewise

/-- What a panic is raised with. -/
inductive PanicValue where
  | text (s : Text)
  | error (message : Text)
deriving DecidableEq, Repr

namespace PanicValue

def message : PanicValue → Text
  | .text s => s
  | .error m => m

end PanicValue

/-- The errors that come out of a guard. -/
inductive GuardError where
  /-- An error that the computation returned. -/
  | returned (message : Text)
  /-- The computation panicked under the guard with this name. -/
  | panicked (guard : Text) (value : PanicValue)
  /-- The computation left its thread under the guard with this name. -/
  | exited (guard : Text)
deriving DecidableEq, Repr

/-- How a computation ends. -/
inductive Ending where
  | returns (error : Option GuardError)
  | panics (value : PanicValue)
  | exits
deriving DecidableEq, Repr

namespace Ending

/-- The error that the guard with a name makes of an ending. -/
def recover (name : Text) : Ending → Option GuardError
  | .returns error => error
  | .panics value => some (.panicked name value)
  | .exits => some (.exited name)

/-- The ending of a computation under a number of guards with the same name. -/
def guarded (name : Text) : Nat → Ending → Ending
  | 0, e => e
  | n + 1, e => .returns ((guarded name n e).recover name)

end Ending

namespace GuardError

def message : GuardError → Text
  | .returned m => m
  | .panicked guard value =>
    (if guard.isEmpty then [] else guard ++ [32]) ++ Text.ofString "paniced: " ++ value.message
  | .exited guard =>
    if guard.isEmpty then "runtime.Goexit called"
    else guard ++ Text.ofString " called runtime.Goexit"

/-- The message in full: behind that of a panic comes the stack of calls that it was raised under. -/
def verbose (callStack : Text) : GuardError → Text
  | .panicked guard value =>
    (GuardError.panicked guard value).message ++ Text.ofString "\nPanic stack: " ++ callStack
  | e => e.message

def isPanic : GuardError → Bool
  | .panicked _ _ => true
  | _ => false

def isExit : GuardError → Bool
  | .exited _ => true
  | _ => false

/-- What the panic was raised with. -/
def value? : GuardError → Option PanicValue
  | .panicked _ value => some value
  | _ => none

/-- The error inside: one that a panic was raised with. -/
def inner? : GuardError → Option Text
  | .panicked _ (.error m) => some m
  | _ => none

end GuardError

end Linewise
