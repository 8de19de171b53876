import SymbolTree.Disk

/-!
# Files in memory

A directory as a value. Paths are relative to it and are followed step by step: every step but the
last has to be a directory, `..` leads back up, and nothing above the directory can be reached but
the null device, which every system has. Names and paths have the limits of common file systems.
-/

namespace SymbolTree

/-- What stands at a place of a directory. -/
inductive StoredEntry where
  | file (content : ByteArray)
  | directory

/-- A place below a directory: the names that lead to it. -/
abbrev Place := List String

/-- The files and directories below a directory, each after the directory that holds it. -/
structure MemoryDirectory where
  /-- The entries with their places. -/
  stored : List (Place × StoredEntry) := []

namespace MemoryDirectory

/-- The entry at a place. The directory itself is always there. -/
def get? (directory : MemoryDirectory) (place : Place) : Option StoredEntry :=
  if place.isEmpty then some .directory else directory.stored.lookup place

/-- Whether a directory stands at a place. -/
def isDirectoryAt (directory : MemoryDirectory) (place : Place) : Bool :=
  match directory.get? place with
  | some .directory => true
  | _ => false

/-- Put an entry at a place, replacing an earlier one. -/
def put (directory : MemoryDirectory) (place : Place) (entry : StoredEntry) : MemoryDirectory :=
  { stored := directory.stored.filter (·.1 != place) ++ [(place, entry)] }

/-- Take one step from a directory. -/
def step? (directory : MemoryDirectory) (place : Place) : PathComponent → Option Place
  | .root => none
  | .current => some place
  | .parent => if place.isEmpty then none else some place.dropLast
  | .entry name =>
    if directory.isDirectoryAt place then
      let next := place ++ [name]
      if (directory.get? next).isSome then some next else none
    else none

/-- Whether an entry can have a name: at most 255 bytes. -/
def fits (name : String) : Bool := name.utf8ByteSize ≤ 255

/-- Whether a path can be followed at all: it takes less than 4096 bytes, none of them zero. -/
def canFollow (path : SourcePath) : Bool :=
  path.text.utf8ByteSize < 4096 && !path.text.toList.contains '\x00'

/-- Whether a path can only mean a directory. -/
def wantsDirectory (path : SourcePath) : Bool :=
  path.text.endsWith "/" || path.text.endsWith "/."

/-- The place that a path leads to. -/
def locate? (directory : MemoryDirectory) (path : SourcePath) : Option Place := do
  if path.text.isEmpty || !canFollow path then none
  let place ← path.components.foldlM
    (fun place component => do
      -- only a directory has a place above it
      if directory.isDirectoryAt place then directory.step? place component else none)
    []
  if wantsDirectory path && !directory.isDirectoryAt place then none
  return place

/-- The way to the null device. -/
def nullDevice : List PathComponent := [.root, .entry "dev", .entry "null"]

/-- Whether a path leads to the null device. It holds nothing, and it is no file and no directory. -/
def isNullDevice (path : SourcePath) : Bool :=
  path.components == nullDevice && !wantsDirectory path

/-- Whether a path leads to a directory above the null device. -/
def isAboveNullDevice (path : SourcePath) : Bool :=
  path.isAbsolute && path.components.isPrefixOf nullDevice.dropLast

/-- What a path leads to. -/
def find? (directory : MemoryDirectory) (path : SourcePath) : Option StoredEntry :=
  (directory.locate? path).bind directory.get?

/-- The names inside the directory at a place. -/
def names (directory : MemoryDirectory) (place : Place) : List String :=
  directory.stored.filterMap fun entry =>
    if entry.1.dropLast = place then entry.1.getLast? else none

/-- Remove everything below a place. -/
def clear (directory : MemoryDirectory) (place : Place) : MemoryDirectory :=
  { stored := directory.stored.filter fun entry => !(place.isPrefixOf entry.1 && entry.1 != place) }

/-- Whether the last piece of a path is written as `.`. -/
def endsInDot (path : SourcePath) : Bool :=
  ((SourcePath.cutAtSlashes path.text.toList).filter (!·.isEmpty)).getLast? == some ['.']

/-- Remove the directory that a path leads to. Under a name that ends in `.` only its content can be
removed. -/
def remove (directory : MemoryDirectory) (path : SourcePath) : Bool × MemoryDirectory :=
  match directory.locate? path with
  | some place =>
    if directory.isDirectoryAt place && !place.isEmpty then
      let cleared := directory.clear place
      if endsInDot path then (false, cleared)
      else (true, { stored := cleared.stored.filter (·.1 != place) })
    else (false, directory)
  | none => (false, directory)

/-- Make the directories along the components of a path. -/
def makeAlong (directory : MemoryDirectory) :
    List PathComponent → Place → Option MemoryDirectory
  | [], _ => some directory
  | component :: rest, place =>
    match directory.step? place component with
    | some next => if directory.isDirectoryAt next then directory.makeAlong rest next else none
    | none =>
      match component with
      | .entry name =>
        if fits name then
          (directory.put (place ++ [name]) .directory).makeAlong rest (place ++ [name])
        else none
      | _ => none

/-- Make the directory that a path names. A new directory cannot be named by a path that ends in
`.`. -/
def make (directory : MemoryDirectory) (path : SourcePath) : Bool × MemoryDirectory :=
  match directory.find? path with
  | some .directory => (true, directory)
  | _ =>
    if path.text.isEmpty then (true, directory)
    else if !canFollow path then (false, directory)
    else
      match directory.makeAlong path.components [] with
      | some made => (!endsInDot path, if endsInDot path then directory else made)
      | none => (false, directory)

/-- Write a file into an existing directory. -/
def write (directory : MemoryDirectory) (path : SourcePath) (content : ByteArray) :
    Bool × MemoryDirectory :=
  match path.components.getLast? with
  | some (.entry name) =>
    let parent := path.components.dropLast.foldlM
      (fun place component => directory.step? place component) ([] : Place)
    match parent with
    | some place =>
      let target := place ++ [name]
      if directory.isDirectoryAt place && !directory.isDirectoryAt target
          && !wantsDirectory path && canFollow path && fits name then
        (true, directory.put target (.file content))
      else (false, directory)
    | none => (false, directory)
  | _ => (false, directory)

/-- All files with their places, in the order in which they were stored. -/
def files (directory : MemoryDirectory) : List (Place × ByteArray) :=
  directory.stored.filterMap fun entry =>
    match entry.2 with
    | .file content => some (entry.1, content)
    | .directory => none

/-- Access to a directory in memory. -/
def disk : Disk (StateM MemoryDirectory) where
  isThere path := do
    return ((← get).find? path).isSome || isNullDevice path || isAboveNullDevice path
  isFile path := do
    return match (← get).find? path with
      | some (.file _) => true
      | _ => false
  isDirectory path := do
    return match (← get).find? path with
      | some .directory => true
      | _ => false
  entries path := do
    let directory ← get
    return match directory.locate? path with
      | some place => directory.names place
      | none => []
  readText path := do
    return match (← get).find? path with
      | some (.file content) => String.fromUTF8? content
      | _ => if isNullDevice path then some "" else none
  removeDirectory path := modifyGet (·.remove path)
  makeDirectory path := modifyGet (·.make path)
  writeText path content := modifyGet (·.write path content.toUTF8)

end MemoryDirectory

end SymbolTree
