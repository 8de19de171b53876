import SymbolTree.Disk
import SymbolTree.Registry

/-!
# One documentation run

Settings are checked before any file is read. Files are read one after another, and the first one
that cannot be used ends the run.
-/

namespace SymbolTree

/-- Why a run fails. -/
inductive RunError where
  | settings (error : SettingsError)
  | file (error : FileError)
  | render (error : RenderError)
  /-- A problem of the tree, which strict settings do not tolerate. -/
  | strict (diagnostic : Diagnostic)

namespace RunError

/-- The wording of an error. -/
def message : RunError → String
  | .settings error => error.message
  | .file error => error.message
  | .render error => error.message
  | .strict diagnostic => "resolution failed in strict mode: " ++ diagnostic.message

end RunError

/-- What a run produces. -/
inductive Outcome where
  /-- A resolved tree. -/
  | tree (tree : ResolvedTree)
  /-- Only the remarks about the source files. -/
  | report (entries : List ReportEntry)

namespace Run

variable {m : Type → Type} [Monad m]

/-- Turn an error into an error of the run. -/
def orFail {ε α : Type} (wrap : ε → RunError) : Except ε α → ExceptT RunError m α
  | .ok value => pure value
  | .error error => throw (wrap error)

/-- Add one source file to a collection. -/
def addFile (disk : Disk m) (registry : Registry) (collection : Collection) (path : SourcePath) :
    ExceptT RunError m Collection := do
  match registry.parserFor? path with
  | none => throw (.file (.noParser path))
  | some parser =>
    let unit ← orFail .file (parser path (← disk.readText path))
    return collection.addFile path unit

/-- Section 5, `collect`: the records of all source files. -/
def collect (disk : Disk m) (registry : Registry) (files : List SourcePath) :
    ExceptT RunError m Collection :=
  files.foldlM (addFile disk registry) Collection.empty

/-- Section 2, `run`: read and resolve source files. -/
def resolve (disk : Disk m) (registry : Registry) (settings : Settings) (files : List SourcePath) :
    ExceptT RunError m Outcome := do
  orFail .settings settings.validate
  if !settings.reportOnly then
    let _ ← orFail .settings (registry.renderer settings.renderer)
  let collection ← collect disk registry files
  if settings.reportOnly then return .report collection.report
  let tree := collection.resolve settings
  match settings.strict, tree.diagnostics with
  | true, first :: _ => throw (.strict first)
  | _, _ => return .tree tree

/-- Write a rendering. Unless it is kept, an existing output directory is removed first. -/
def write (disk : Disk m) (settings : Settings) (rendering : Rendering) :
    ExceptT RunError m Unit := do
  let output := settings.output
  if !settings.keepOutput && (← disk.isThere output) then
    if !(← disk.removeDirectory output) then throw (.render .unwritable)
  if !(← disk.makeDirectory output) then throw (.render .unwritable)
  if !(← disk.writeText rendering.target rendering.content) then throw (.render .unwritable)

/-- Section 6, `render`: render a tree with the chosen renderer. -/
def render (disk : Disk m) (registry : Registry) (settings : Settings) (date : String)
    (tree : ResolvedTree) : ExceptT RunError m Unit := do
  let renderer ← orFail .settings (registry.renderer settings.renderer)
  write disk settings (← orFail .render (renderer settings date tree))

end Run

end SymbolTree
