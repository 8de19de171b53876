/-!
# Source paths

A path is kept as the text it was given, and compares by its components: repeated and trailing
slashes and `.` components other than a leading one do not count. The root sorts before a leading
`.`, that before `..`, and that before names, which sort as texts.
-/

namespace SymbolTree

/-- One step of a path. -/
inductive PathComponent where
  /-- The root directory. -/
  | root
  /-- A leading `.`. -/
  | current
  /-- `..`. -/
  | parent
  /-- A named entry. -/
  | entry (name : String)
deriving DecidableEq, Repr

namespace PathComponent

/-- The place of a kind of component in the order. -/
def rank : PathComponent → Nat
  | .root => 0
  | .current => 1
  | .parent => 2
  | .entry _ => 3

/-- The name of a named entry. -/
def name? : PathComponent → Option String
  | .entry name => some name
  | _ => none

/-- The order of components. -/
def compare (a b : PathComponent) : Ordering :=
  (Ord.compare a.rank b.rank).then (Ord.compare (a.name?.getD "") (b.name?.getD ""))

end PathComponent

/-- A path as it was written. -/
structure SourcePath where
  /-- The text of the path. -/
  text : String
deriving DecidableEq, Repr, Inhabited

namespace SourcePath

/-- Cut a text at every slash. -/
def cutAtSlashes : List Char → List (List Char)
  | [] => [[]]
  | c :: rest =>
    if c = '/' then [] :: cutAtSlashes rest
    else
      match cutAtSlashes rest with
      | piece :: pieces => (c :: piece) :: pieces
      | [] => [[c]]

/-- The component that a piece between slashes stands for. -/
def componentOf (piece : List Char) : PathComponent :=
  if piece = ['.', '.'] then .parent else .entry (String.ofList piece)

/-- The components of a path. -/
def components (path : SourcePath) : List PathComponent :=
  let pieces := cutAtSlashes path.text.toList
  let named := (pieces.filter fun piece => piece ≠ [] ∧ piece ≠ ['.']).map componentOf
  match path.text.toList with
  | '/' :: _ => .root :: named
  | _ => if pieces.head? = some ['.'] then .current :: named else named

/-- The order of component lists. -/
def compareComponents : List PathComponent → List PathComponent → Ordering
  | [], [] => .eq
  | [], _ :: _ => .lt
  | _ :: _, [] => .gt
  | a :: as, b :: bs => (a.compare b).then (compareComponents as bs)

/-- The order of paths. Different spellings of one path compare equal. -/
def compare (a b : SourcePath) : Ordering := compareComponents a.components b.components

/-- Whether two paths have the same components. -/
def same (a b : SourcePath) : Bool := a.components == b.components

/-- The name of the entry that a path ends in. -/
def fileName? (path : SourcePath) : Option String := path.components.getLast?.bind (·.name?)

/-- Cut a file name at its last dot into stem and extension. A dot that starts the name does not
count. -/
def cutName (name : String) : String × Option String :=
  let reversed := name.toList.reverse
  match reversed.dropWhile (· ≠ '.') with
  | [] | [_] => (name, none)
  | _ :: stem =>
    (String.ofList stem.reverse, some (String.ofList (reversed.takeWhile (· ≠ '.')).reverse))

/-- The file name up to its last dot. -/
def stem? (path : SourcePath) : Option String := path.fileName?.map fun name => (cutName name).1

/-- The file name after its last dot. -/
def extension? (path : SourcePath) : Option String := path.fileName?.bind fun name => (cutName name).2

/-- Whether a path starts at the root. -/
def isAbsolute (path : SourcePath) : Bool := path.text.startsWith '/'

/-- The path of `name` below a directory. -/
def join (dir : SourcePath) (name : String) : SourcePath :=
  if name.startsWith '/' then ⟨name⟩
  else if dir.text.isEmpty || dir.text.endsWith '/' then ⟨dir.text ++ name⟩
  else ⟨dir.text ++ "/" ++ name⟩

end SourcePath

end SymbolTree
