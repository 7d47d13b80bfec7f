import Linewise.Registry
import Linewise.Value.Basic

/-!
# Builtin commands

The commands that every registry starts with, and what else a command name can stand for.
-/

namespace Linewise

/-- The builtin commands. -/
inductive Builtin where
  | number | numlist | string | regex | empty | space | tab | newline
  | print | write | read | put
  | init | push | pop | stack | func
  | label | eval | exec | set | get | goto | rem | arg | listen | cast | exit | branch | curry
  | define | synonym
  | strap | strcl
  | v | semicolon
  | initape | tape | setape | getape | setptr | getptr
deriving DecidableEq, Repr

namespace Builtin

/-- All builtins, in the order in which they are registered. -/
def all : List Builtin :=
  [.number, .numlist, .string, .regex, .empty, .space, .tab, .newline,
    .print, .write, .read, .put,
    .init, .push, .pop, .stack, .func,
    .label, .eval, .exec, .set, .get, .goto, .rem, .arg, .listen, .cast, .exit, .branch, .curry,
    .define, .synonym,
    .strap, .strcl,
    .v, .semicolon,
    .initape, .tape, .setape, .getape, .setptr, .getptr]

/-- The name of a builtin in programs. -/
def name : Builtin → Text
  | .number => "number"
  | .numlist => "numlist"
  | .string => "string"
  | .regex => "regex"
  | .empty => "empty"
  | .space => "space"
  | .tab => "tab"
  | .newline => "newline"
  | .print => "print"
  | .write => "write"
  | .read => "read"
  | .put => "put"
  | .init => "init"
  | .push => "push"
  | .pop => "pop"
  | .stack => "stack"
  | .func => "func"
  | .label => "label"
  | .eval => "eval"
  | .exec => "exec"
  | .set => "set"
  | .get => "get"
  | .goto => "goto"
  | .rem => "rem"
  | .arg => "arg"
  | .listen => "on"
  | .cast => "cast"
  | .exit => "exit"
  | .branch => "if"
  | .curry => "curry"
  | .define => "define"
  | .synonym => "alias"
  | .strap => "strap"
  | .strcl => "strcl"
  | .v => "v"
  | .semicolon => ";"
  | .initape => "initape"
  | .tape => "tape"
  | .setape => "setape"
  | .getape => "getape"
  | .setptr => "setptr"
  | .getptr => "getptr"

end Builtin

/-- What a command name stands for. -/
inductive Effect where
  | builtin (b : Builtin)
  /-- Applies an executable to the parameters. -/
  | apply (ex : Executable)
  /-- Gives a value, whatever the parameters. -/
  | constant (value : Value)

namespace Registry

/-- The registry that holds the builtins. -/
def standard : Registry Effect :=
  Builtin.all.foldl (fun r b => r.register b.name (.builtin b)) .empty

end Registry

end Linewise
