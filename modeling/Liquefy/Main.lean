import Liquefy.Command.Run

/-!
# The program

The files that a command names are looked up, the run is computed from them, and what it says is
printed and written.
-/

namespace Liquefy.Program

/-- The paths that a task names. -/
def namedPaths : Command.Task → List String
  | .convert file output => file :: output.toList
  | .check files _ => files

/-- The error number of a folder that is read as a file. -/
def folderErrno : UInt32 := 21

/-- A disk with one more file or folder, as it is found under a path. -/
def lookUp (disk : Disk) (path : String) (route : Route) : IO Disk := do
  try
    return disk.put route (← IO.FS.readBinFile path)
  catch
    | .inappropriateType _ errno _ =>
        return if errno = folderErrno then { disk with folders := route :: disk.folders } else disk
    | _ => return disk

/-- A disk with what is found along a path. -/
def lookAlong (disk : Disk) (path : String) : IO Disk := do
  let names := Text.split '/' path
  let mut disk := disk
  let mut route := Route.start names
  let mut walked := []
  for name in names do
    route := route.enter name
    walked := walked ++ [name]
    disk ← lookUp disk ("/".intercalate walked) route
  return disk

/-- The disk as far as a command line names it. -/
def lookAround (words : List String) : IO Disk :=
  match Command.parse words with
  | .error _ => return ⟨[], []⟩
  | .ok invocation => (namedPaths invocation.task).foldlM lookAlong ⟨[], []⟩

/-- Write the files that a run has changed. -/
def writeChanges (before after : Disk) : IO Unit := do
  for (route, bytes) in after.files do
    unless (before.file? route).any (·.data == bytes.data) do
      IO.FS.writeBinFile ("/".intercalate route) bytes

end Liquefy.Program

open Liquefy Liquefy.Program in
/-- Run the program on the words of its command line. -/
def main (words : List String) : IO UInt32 := do
  let setting ← IO.getEnv "RUST_LOG"
  let disk ← lookAround words
  let result := Command.run words setting disk
  writeChanges disk result.disk
  IO.eprint result.stderr
  IO.print result.stdout
  return UInt32.ofNat result.exit
