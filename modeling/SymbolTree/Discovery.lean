import SymbolTree.Disk
import SymbolTree.Glob
import SymbolTree.Registry

/-!
# Discovering source files

Inputs are files, directories or patterns. A directory stands for all files below it that some
parser handles, hidden directories left out; a pattern stands for what it matches. The files are
listed once each, in the order of paths.
-/

namespace SymbolTree.Discovery

/-- Why files cannot be discovered. -/
inductive DiscoveryError where
  /-- An input matches nothing. -/
  | notFound (input : String)
  /-- An input is no path and no valid pattern. -/
  | badPattern (input : String)
  /-- A pattern of files to leave out is invalid. -/
  | badExclude (pattern : String)

namespace DiscoveryError

/-- The wording of an error. -/
def message : DiscoveryError → String
  | .notFound input => "no such file or directory: " ++ input
  | .badPattern input => "invalid path pattern '" ++ input ++ "'"
  | .badExclude pattern => "invalid exclude pattern '" ++ pattern ++ "'"

end DiscoveryError

/-- No path leads further down than this. -/
def deepest : Nat := 4096

variable {m : Type → Type} [Monad m] (disk : Disk m)

/-- Section 14, `collect_dir`: all files below a directory that satisfy `keep`, hidden ones left
out. -/
def filesBelow (keep : SourcePath → Bool) : (depth : Nat) → SourcePath → m (List SourcePath)
  | 0, _ => return []
  | depth + 1, dir => do
    let found ← (← disk.entries dir).mapM fun name => do
      let path := dir.join name
      if ← disk.isDirectory path then
        if name.startsWith '.' then return []
        else filesBelow keep depth path
      else return if keep path then [path] else []
    return found.flatten

/-- The path of an entry of a directory. Entries of the starting directory, however it is spelled, go
by their names. -/
def entryPath (dir : SourcePath) (name : String) : SourcePath :=
  if dir.same ⟨"."⟩ then ⟨name⟩ else dir.join name

/-- What is left of a pattern after its leading recursive components. -/
def skipRecursive : List Glob → List Glob
  | first :: rest => if first.isRecursive then skipRecursive rest else first :: rest
  | [] => []

/-- A path that a whole pattern has matched, unless it has to be a directory and is none. -/
def accept (onlyDirectories : Bool) (path : SourcePath) : m (List SourcePath) := do
  if onlyDirectories && !(← disk.isDirectory path) then return [] else return [path]

/-- What the components of a pattern match below a directory. A recursive component matches every
directory on the way down; at the end of a pattern it matches directories only. What is reached
through `..` comes first, then what is reached through `.`, and then the entries. -/
def expand (onlyDirectories : Bool) : (depth : Nat) → List Glob → SourcePath → m (List SourcePath)
  | 0, _, _ => return []
  | _ + 1, [], path => accept disk onlyDirectories path
  | depth + 1, first :: rest, dir => do
    match first.literal? with
    | some name =>
      let path := entryPath dir name
      let reached ←
        if name = "." || name = ".." then disk.isDirectory dir else disk.isThere path
      if reached then expand onlyDirectories depth rest path else return []
    | none =>
      if !(← disk.isDirectory dir) then return []
      let matchEntry (components : List Glob) (name : String) : m (List SourcePath) :=
        match components with
        | [] => return []
        | component :: below =>
          if !component.matchesText name then return []
          else if below.isEmpty then accept disk onlyDirectories (entryPath dir name)
          else expand onlyDirectories depth below (entryPath dir name)
      let found ← (← disk.entries dir).mapM fun name => do
        if first.isRecursive then
          let after := skipRecursive rest
          let here ← matchEntry after name
          if ← disk.isDirectory (entryPath dir name) then
            let deeper ← expand onlyDirectories depth (first :: after) (entryPath dir name)
            return (if after.isEmpty then [entryPath dir name] else here) ++ deeper
          else return here
        else matchEntry (first :: rest) name
      let special ←
        if first.startsWithDot then
          (["..", "."].filter first.matchesText).mapM fun name =>
            expand onlyDirectories depth rest (dir.join name)
        else pure []
      return special.flatten ++ found.flatten

/-- Cut a pattern into its components. A slash at the end starts no further component. -/
def componentTexts (pattern : List Char) : List (List Char) :=
  let pieces := SourcePath.cutAtSlashes pattern
  if pattern.isEmpty || pieces.getLast? != some [] then pieces else pieces.dropLast

/-- The paths that a pattern matches; `none` if the pattern is malformed. -/
def matchingPaths (pattern : String) : m (Option (List SourcePath)) := do
  let chars := pattern.toList
  let (start, relative) :=
    if chars.head? = some '/' then (⟨"/"⟩, chars.drop 1) else ((⟨"."⟩ : SourcePath), chars)
  let parsed := do
    let _ ← Glob.parse? pattern
    (componentTexts relative).mapM fun component => Glob.parse? (String.ofList component)
  match parsed with
  | none => return none
  | some components =>
    return some (← expand disk (chars.getLast? == some '/') deepest components start)

/-- The files that one input stands for. -/
def filesOf (registry : Registry) (input : String) :
    m (Except DiscoveryError (List SourcePath)) := do
  let path : SourcePath := ⟨input⟩
  if ← disk.isFile path then return .ok [path]
  if ← disk.isDirectory path then
    return .ok (← filesBelow disk registry.supports deepest path)
  match ← matchingPaths disk input with
  | none => return .error (.badPattern input)
  | some [] => return .error (.notFound input)
  | some found =>
    let files ← found.mapM fun path => do
      if ← disk.isDirectory path then filesBelow disk registry.supports deepest path
      else return if registry.supports path then [path] else []
    return .ok files.flatten

/-- Keep the first of neighbouring paths with the same components. -/
def dropRepeats : List SourcePath → List SourcePath
  | first :: second :: rest =>
    if first.same second then dropRepeats (first :: rest)
    else first :: dropRepeats (second :: rest)
  | paths => paths
termination_by paths => paths.length

/-- Section 14, `discover`: the files that inputs stand for, without those that match a pattern to
leave out. -/
def discover (registry : Registry) (exclude inputs : List String) :
    ExceptT DiscoveryError m (List SourcePath) := do
  let excluded ← exclude.mapM fun pattern =>
    match Glob.parse? pattern with
    | some glob => pure glob
    | none => throw (.badExclude pattern)
  let found ← inputs.mapM fun input => ExceptT.mk (filesOf disk registry input)
  let sorted := found.flatten.mergeSort fun a b => (a.compare b).isLE
  return (dropRepeats sorted).filter fun path => !excluded.any (·.matchesText path.text)

end SymbolTree.Discovery
