import Linewise.Text.Basic

/-!
# Paths

A path is a text in which slashes separate steps. A step is a name, `.` for where one is, or `..` for
the directory above. Empty steps do not count.
-/

namespace Linewise.Path

/-- The step that stays where it is. -/
def here : Text := [46]

/-- The step to the directory above. -/
def up : Text := [46, 46]

/-- A path that starts at the root, not at the working directory. -/
def isAbsolute (path : Text) : Bool := path.head? = some 47

/-- A path that names a directory by its form. -/
def endsInSlash (path : Text) : Bool := path.getLast? = some 47

/-- The steps of a path. -/
def steps (path : Text) : List Text := (path.splitOn 47).filter fun step => !step.isEmpty

/-- Cancels each `..` against the name before it. `done` holds the steps kept so far, the last one
first. Nothing is above the root. -/
def cancel (absolute : Bool) : (done : List Text) → List Text → List Text
  | done, [] => done.reverse
  | done, step :: rest =>
    if step = here then cancel absolute done rest
    else if step = up then
      match done with
      | [] => cancel absolute (if absolute then [] else [up]) rest
      | last :: before =>
        if last = up then cancel absolute (up :: done) rest else cancel absolute before rest
    else cancel absolute (step :: done) rest

/-- The shortest path to the same place, as far as the text tells. -/
def clean (path : Text) : Text :=
  let names := Text.join [47] (cancel (isAbsolute path) [] (steps path))
  if isAbsolute path then 47 :: names else if names.isEmpty then here else names

/-- The path as seen from a base directory: an absolute path stays as it is, and so does every path
if there is no base. -/
def resolve (base path : Text) : Text :=
  if base.isEmpty || isAbsolute path then path else clean (base ++ (47 :: path))

end Linewise.Path
