import Std.Time.DateTime.Timestamp
import SymbolTree.CommandLine
import SymbolTree.Date

/-!
# The program

The command line program on the files of this machine and at the present time.
-/

namespace SymbolTree

/-- A path, as an entry of a directory. -/
def SourcePath.entry (path : SourcePath) : IO.FS.DirEntry := ⟨⟨path.text⟩, ""⟩

/-- Whether an action succeeds. -/
def succeeds (action : IO Unit) : IO Bool := do
  match ← action.toBaseIO with
  | .ok () => return true
  | .error _ => return false

/-- The kind of what a path leads to. -/
def fileKind? (path : SourcePath) : IO (Option IO.FS.FileType) := do
  match ← path.entry.root.metadata.toBaseIO with
  | .ok found => return some found.type
  | .error _ => return none

/-- The files of this machine. -/
def localDisk : Disk IO where
  isThere path := return (← fileKind? path).isSome
  isFile path := return (← fileKind? path) matches some .file
  isDirectory path := return (← fileKind? path) matches some .dir
  entries path := do
    match ← path.entry.root.readDir.toBaseIO with
    | .ok found => return found.toList.map (·.fileName)
    | .error _ => return []
  readText path := do
    match ← (IO.FS.readBinFile path.text).toBaseIO with
    | .ok content => return String.fromUTF8? content
    | .error _ => return none
  removeDirectory path := succeeds (IO.FS.removeDirAll path.text)
  makeDirectory path := succeeds (IO.FS.createDirAll path.text)
  writeText path content := succeeds (IO.FS.writeFile path.text content)

/-- The present date. -/
def today : IO String := do
  return Date.ofUnixSeconds (← Std.Time.Timestamp.now).toSecondsSinceUnixEpoch.val.toNat

/-- Print how the program ends. -/
def report (exit : CommandLine.Exit) : IO Unit := do
  IO.print exit.output
  match exit.complaint with
  | none => pure ()
  | some .usage => IO.eprint CommandLine.usage
  | some (.failure message) => IO.eprintln ("Error: " ++ message)

end SymbolTree

/-- Run the program with the arguments of the command line. -/
def main (arguments : List String) : IO UInt32 := do
  let exit ← SymbolTree.CommandLine.execute SymbolTree.localDisk SymbolTree.today arguments
  SymbolTree.report exit
  return exit.code.toUInt32
