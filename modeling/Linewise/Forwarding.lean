import Linewise.Text.Blank

/-!
# Forwarding functions

Generates, for each builder method `expect…` of a test case in a Go source file, a function that
builds the call of the method with the same parameters. Methods are recognised by their line; the
arguments of the call are the first words of the comma-separated parts of the parameter list.
-/

namespace Linewise.Forwarding

/-- What ends the generation early. -/
inductive Failure where
  /-- A part of a parameter list is blank. -/
  | blankParameter
  /-- A line is too long to be read. -/
  | lineTooLong
deriving DecidableEq, Repr

namespace Failure

def message : Failure → Text
  | .blankParameter => "runtime error: index out of range [0] with length 0"
  | .lineTooLong => "bufio.Scanner: token too long"

end Failure

/-- The argument for one parameter: its name, with an ellipsis if its type has one. -/
def argument (parameter : Text) : Except Failure Text :=
  match parameter.words with
  | [] => .error .blankParameter
  | [name] => .ok name
  | name :: type :: _ =>
    let ellipsis : Text := "..."
    .ok (if ellipsis.isPrefixOf type then name ++ ellipsis else name)

/-- The arguments that pass on a list of parameters. -/
def arguments (parameters : Text) : Except Failure Text := do
  return Text.join ", " (← (parameters.splitOn 44).mapM argument)

/-- A method: the rest of its name after `expect`, and its parameters. -/
structure Method where
  what : Text
  parameters : Text
deriving DecidableEq, Repr

/-- `s` without `beginning`, if it begins so. -/
def dropBeginning? (beginning s : Text) : Option Text :=
  if beginning.isPrefixOf s then some (s.drop beginning.length) else none

/-- `s` without `ending`, if it ends so. -/
def dropEnding? (ending s : Text) : Option Text :=
  if ending.isSuffixOf s then some (s.take (s.length - ending.length)) else none

def isWordByte (b : UInt8) : Bool :=
  (48 ≤ b && b ≤ 57) || (65 ≤ b && b ≤ 90) || b = 95 || (97 ≤ b && b ≤ 122)

/-- The method that a line declares, if it does. -/
def method? (line : Text) : Option Method := do
  let rest ← dropBeginning? "func (vmt vmTestCase) expect" line
  let what := rest.takeWhile isWordByte
  let rest ← dropBeginning? "(" (rest.dropWhile isWordByte)
  let parameters ← dropEnding? ") vmTestCase \x7b" rest
  if what.isEmpty || parameters.isEmpty then none else some ⟨what, parameters⟩

/-- The function that forwards to a method. -/
def function (m : Method) : Except Failure Text := do
  let args ← arguments m.parameters
  return Text.ofString "func expectVM" ++ m.what ++ Text.ofString "(" ++ m.parameters
    ++ Text.ofString ") func(vmTestCase) vmTestCase \x7b\n"
    ++ Text.ofString "return func(vmt vmTestCase) vmTestCase \x7b\n"
    ++ Text.ofString "return vmt.expect" ++ m.what ++ Text.ofString "(" ++ args
    ++ Text.ofString ")\n\x7d\n\x7d\n\n"

/-- What comes before the functions: the name of the source file, and the command that generates
the file if it was given an input and an output. -/
def heading (name : Text) (args : List Text) : Text :=
  Text.ofString "package main\n\n// @generated from " ++ name ++ [10, 10]
    ++ (if args.length < 2 then []
      else Text.ofString "//go:generate go run scripts/gen_vm_expects.go --"
        ++ args.flatMap (fun arg => 32 :: arg) ++ [10, 10])

/-- Lines from this length on are too long. -/
def lineLimit : Nat := 65536

/-- The lines of a file, without their ends; a last line without an end counts if it is not empty. -/
def lines (file : Text) : List Text :=
  let pieces := file.splitOn 10
  if pieces.getLast? = some [] then pieces.dropLast else pieces

/-- Adds to `done` what the lines give; the text, and what ended the generation early. A line that is
too long ends it; a blank parameter makes it fail as a whole. -/
def forward : List Text → Text → Except Failure (Text × Option Failure)
  | [], done => .ok (done, none)
  | line :: rest, done =>
    if line.length ≥ lineLimit then .ok (done, some .lineTooLong)
    else
      match method? (Text.dropEnding [13] line) with
      | none => forward rest done
      | some m => do forward rest (done ++ (← function m))

/-- The generated file. Nothing is written before the first line has been read. -/
def generate (name file : Text) (args : List Text) : Except Failure (Text × Option Failure) :=
  match lines file with
  | [] => .ok ([], none)
  | first :: rest =>
    if first.length ≥ lineLimit then .ok ([], some .lineTooLong)
    else forward (first :: rest) (heading name args)

end Linewise.Forwarding
