import Barrage.Runner.Basic

/-!
# The program

Reads the directory that the first argument names, and writes what `Barrage.Runner.run` reports: the
log to standard output and the reason of a failure to standard error.
-/

namespace Barrage.Main

/-- What a directory holds under a name. -/
def readEntry (entry : IO.FS.DirEntry) : IO FileEntry := do
  let body ← try pure (FileBody.text (← IO.FS.readFile entry.path))
    catch _ => pure FileBody.unreadable
  return { name := entry.fileName, body }

/-- The content files of a directory, if it can be read. -/
def readDirectory (path : String) : IO (Option (List FileEntry)) := do
  try
    let here : IO.FS.DirEntry := { root := path, fileName := "" }
    let entries ← here.root.readDir
    let files := entries.toList.filter fun e => (FileEntry.key? e.fileName).isSome
    return some (← files.mapM readEntry)
  catch _ => return none

end Barrage.Main

/-- Runs the program with its arguments. -/
def main (arguments : List String) : IO UInt32 := do
  let directory ← match arguments with
    | [] => pure none
    | path :: _ => Barrage.Main.readDirectory path
  let report := Barrage.Runner.run arguments directory
  for line in report.log do
    IO.println line
  if let some reason := report.error then
    IO.eprintln reason
  return UInt32.ofNat report.exitCode
