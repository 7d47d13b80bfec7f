import Linewise.Storage.Path

/-!
# Disks

The files and directories that a program can reach. Places are seen from the working directory; the
directories above it exist, and nothing else is known about them or about the root until something is
written there.
-/

namespace Linewise

/-- Where the way to a place begins. -/
inductive Anchor where
  | root
  /-- So many levels above the working directory. -/
  | above (levels : Nat)
deriving DecidableEq, Repr

/-- A place on the disk: where the way begins, and the names on the way down. -/
structure Place where
  anchor : Anchor
  names : List Text
deriving DecidableEq, Repr

namespace Place

/-- Where a path begins. -/
def start (path : Text) : Place := ⟨if Path.isAbsolute path then .root else .above 0, []⟩

/-- The place one step further. -/
def enter (p : Place) (step : Text) : Place :=
  if step = Path.here then p
  else if step = Path.up then
    match p.names, p.anchor with
    | [], .root => p
    | [], .above levels => ⟨.above (levels + 1), []⟩
    | names, anchor => ⟨anchor, names.dropLast⟩
  else ⟨p.anchor, p.names ++ [step]⟩

/-- A path to a place. -/
def path (p : Place) : Text :=
  match p.anchor with
  | .root => 47 :: Text.join [47] p.names
  | .above levels => Text.join [47] (List.replicate levels Path.up ++ p.names)

end Place

/-- What is at a place. -/
inductive DiskNode where
  | file (content : Text)
  | directory
deriving DecidableEq, Repr

/-- Why a file could not be opened. -/
inductive DiskError where
  | missing
  | notDirectory
  | isDirectory
  | nameTooLong
  | invalidPath
deriving DecidableEq, Repr

namespace DiskError

def message : DiskError → Text
  | .missing => "no such file or directory"
  | .notDirectory => "not a directory"
  | .isDirectory => "is a directory"
  | .nameTooLong => "file name too long"
  | .invalidPath => "invalid argument"

end DiskError

/-- The known files and directories. -/
structure Disk where
  nodes : List (Place × DiskNode)
deriving DecidableEq, Repr

namespace Disk

/-- A disk with an empty working directory. -/
def empty : Disk := ⟨[]⟩

/-- What is at a place, if anything. -/
def node? (d : Disk) (p : Place) : Option DiskNode :=
  if p.names.isEmpty then some .directory else d.nodes.lookup p

/-- Puts something at a place, instead of what was there. -/
def put (d : Disk) (p : Place) (node : DiskNode) : Disk :=
  ⟨(p, node) :: d.nodes.filter fun entry => entry.1 ≠ p⟩

/-- The longest name. -/
def maxName : Nat := 255

/-- Paths from this length on are too long. -/
def pathLimit : Nat := 4096

/-- Goes on from a place. Every place but the last has to be a directory; nothing has to be at the
last one. -/
def walk (d : Disk) : Place → List Text → Except DiskError Place
  | p, [] => .ok p
  | p, step :: rest =>
    match d.node? p with
    | none => .error .missing
    | some (.file _) => .error .notDirectory
    | some .directory =>
      if step.length > maxName then .error .nameTooLong else d.walk (p.enter step) rest

/-- The place that a path leads to. -/
def find (d : Disk) (path : Text) : Except DiskError Place :=
  if path.contains 0 then .error .invalidPath
  else if path.isEmpty then .error .missing
  else if path.length ≥ pathLimit then .error .nameTooLong
  else d.walk (.start path) (Path.steps path)

/-- Opens what is at the end of a path. A path with a slash at its end opens directories only. -/
def openNode (d : Disk) (path : Text) : Except DiskError DiskNode := do
  match d.node? (← d.find path) with
  | none => throw .missing
  | some (.file content) =>
    if Path.endsInSlash path then throw .notDirectory else return .file content
  | some .directory => return .directory

/-- The content of a file. -/
def read (d : Disk) (path : Text) : Except DiskError Text := do
  match ← d.openNode path with
  | .file content => return content
  | .directory => throw .isDirectory

/-- Writes a file, new or instead of the old one. -/
def write (d : Disk) (path content : Text) : Except DiskError Disk := do
  let p ← d.find path
  if Path.endsInSlash path then throw .isDirectory
  match d.node? p with
  | some .directory => throw .isDirectory
  | _ => return d.put p (.file content)

/-- Makes the directories on the way down to a place. -/
def makeDirectories (d : Disk) (p : Place) : List Text → Disk
  | [] => d
  | name :: rest =>
    let q := p.enter name
    let d := if (d.node? q).isNone then d.put q .directory else d
    d.makeDirectories q rest

/-- Adds a file with the directories on the way to it, or only directories if the path ends in a
slash. -/
def add (d : Disk) (path content : Text) : Disk :=
  let start := Place.start path
  let steps := Path.steps path
  if Path.endsInSlash path then d.makeDirectories start steps
  else (d.makeDirectories start steps.dropLast).put (steps.foldl Place.enter start) (.file content)

/-- The files below the working directory, each with its path and content. -/
def files (d : Disk) : List (Text × Text) :=
  d.nodes.filterMap fun
    | (⟨.above 0, names⟩, .file content) => some (Place.path ⟨.above 0, names⟩, content)
    | _ => none

/-- The files of a disk that another one does not have, each with its path and content. -/
def newFiles (d before : Disk) : List (Text × Text) :=
  d.nodes.filterMap fun
    | (p, .file content) =>
      if before.node? p = some (.file content) then none else some (p.path, content)
    | (_, .directory) => none

end Disk

end Linewise
