import Linewise.CommandLine.Launch

/-!
# The program

A launch is computed on what is known of the disk. If it seeks a path that has not been looked up,
what is really there is added and the launch is computed again; in the end its files are stored, and
its output and messages are written.
-/

namespace Linewise.Program

/-- How long a launch may run. -/
def fuel : Nat := 1000000000000

/-- What is really at a path, if anything. -/
def lookUp (path : String) : IO (Option DiskNode) := do
  try
    if ← (← IO.FS.realPath path).isDir then return some .directory
    return some (.file (← IO.FS.readBinFile path).data.toList)
  catch _ => return none

/-- Adds to a disk what is really on the way from a place to the end of a path. -/
def explore (disk : Disk) (place : Place) : List Text → IO Disk
  | [] => return disk
  | step :: rest => do
    let place := place.enter step
    if place.names.isEmpty then explore disk place rest
    else
      match String.fromUTF8? ⟨place.path.toArray⟩ with
      | none => return disk
      | some path =>
        match ← lookUp path with
        | none => return disk
        | some node => explore (disk.put place node) place rest

/-- Computes a launch, looking up the paths that it seeks. Gives the disk as it was, and the
report. -/
partial def settle (args : List Text) (input : Text) (known : List Text) (disk : Disk) :
    IO (Disk × Report) := do
  let report := launch fuel ⟨args, input, disk⟩
  match report.sought.find? fun path => !known.contains path with
  | none => return (disk, report)
  | some path => settle args input (path :: known) (← explore disk (.start path) (Path.steps path))

end Linewise.Program

open Linewise in
/-- Launches the program with the arguments of the command line. -/
def main (arguments : List String) : IO UInt32 := do
  let args := arguments.map Text.ofString
  let input ← if Launch.readsInput args then (← IO.getStdin).readBinToEnd else pure .empty
  let (before, report) ← Program.settle args input.data.toList [] .empty
  for (path, content) in report.disk.newFiles before do
    if let some path := String.fromUTF8? ⟨path.toArray⟩ then
      IO.FS.writeBinFile path ⟨content.toArray⟩
  (← IO.getStdout).write ⟨report.output.toArray⟩
  (← IO.getStderr).write ⟨report.messages.toArray⟩
  return report.exitCode.toUInt32
