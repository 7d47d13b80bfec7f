import Linewise.Dict
import Linewise.Storage.Disk

/-!
# Storage

Where programs read and write texts by path: a directory on a disk, or a table of texts that a host
keeps, some paths of which may be closed.
-/

namespace Linewise

/-- Where texts are kept. -/
inductive Storage where
  /-- Files, with paths seen from a base directory if there is one. -/
  | directory (base : Text) (disk : Disk)
  /-- A table; the closed paths can neither be read nor written. -/
  | table (texts : Dict Text) (closed : List Text)

/-- Why a text could not be read or written. -/
inductive StorageError where
  | denied
  /-- The file at a path could not be opened. -/
  | disk (path : Text) (error : DiskError)
deriving DecidableEq, Repr

namespace StorageError

def message : StorageError → Text
  | .denied => "storage denied"
  | .disk path error => Text.ofString "open " ++ path ++ Text.ofString ": " ++ error.message

end StorageError

namespace Storage

/-- The text at a path. -/
def load (s : Storage) (path : Text) : Except StorageError Text :=
  match s with
  | .directory base disk =>
    let path := Path.resolve base path
    (disk.read path).mapError (.disk path)
  | .table texts closed =>
    if closed.contains path then .error .denied
    else
      match texts.get? path with
      | some text => .ok text
      | none => .error .denied

/-- The storage with a text at a path. -/
def persist (s : Storage) (path text : Text) : Except StorageError Storage :=
  match s with
  | .directory base disk =>
    let path := Path.resolve base path
    match disk.write path text with
    | .ok disk => .ok (.directory base disk)
    | .error e => .error (.disk path e)
  | .table texts closed =>
    if closed.contains path then .error .denied
    else .ok (.table (texts.insert path text) closed)

/-- The files that the storage keeps. -/
def files : Storage → List (Text × Text)
  | .directory _ disk => disk.files
  | .table _ _ => []

end Storage

end Linewise
