import SymbolTree.CommandLine.Arguments
import SymbolTree.Discovery
import SymbolTree.Run
import SymbolTree.Settings.TomlText

/-!
# The command line program

Settings come from a settings file and are overridden by options. `build` writes the documentation;
`check` lists the problems of the tree.
-/

namespace SymbolTree.CommandLine

/-- The version of the program. -/
def version : String := "1.0.1"

/-- The settings file that is used when no other one is named. -/
def defaultSettingsFile : SourcePath := ⟨"doctree.toml"⟩

/-- Why the program fails. -/
inductive Complaint where
  /-- The command line is malformed. -/
  | usage
  /-- Anything else. -/
  | failure (message : String)
deriving DecidableEq, Repr

/-- How the program ends. -/
structure Exit where
  /-- What it prints. -/
  output : String := ""
  /-- Why it fails. -/
  complaint : Option Complaint := none

namespace Exit

/-- The exit code. -/
def code (exit : Exit) : UInt8 :=
  match exit.complaint with
  | none => 0
  | some .usage => 2
  | some (.failure _) => 1

/-- A failure that prints nothing. -/
def failure (message : String) : Exit := { complaint := some (.failure message) }

end Exit

/-- How to use the program. -/
def usage : String :=
  "Usage: doctree [OPTIONS] <build|check> [OPTIONS] <PATHS>...\n"

/-- Section 12, `apply`: override settings by options. -/
def override (given : Given) (settings : Settings) : Settings :=
  { settings with
    exclude := settings.exclude ++ given.valuesOf "exclude"
    aliases := settings.aliases ++ given.valuesOf "alias"
    strict := settings.strict || given.has "strict"
    output := ((given.value? "output").map SourcePath.mk).getD settings.output
    title := (given.value? "title").getD settings.title
    renderer := (given.value? "renderer").getD settings.renderer
    namePrefix := (given.value? "prefix").or settings.namePrefix
    nameSuffix := (given.value? "suffix").or settings.nameSuffix
    globalObjects := (given.value? "global-objects").or settings.globalObjects
    splitByClass := settings.splitByClass || given.has "split-by-class"
    splitFromNamespace := settings.splitFromNamespace || given.has "split-from-ns"
    indent := settings.indent || given.has "format-json"
    keepOutput := settings.keepOutput || given.has "keep-out-dir"
    report := settings.report || given.has "report"
    reportOnly := settings.reportOnly || given.has "report-only" }

variable {m : Type → Type} [Monad m] (disk : Disk m)

/-- The settings of a settings file. -/
def loadSettings (path : SourcePath) : m (Except String Settings) := do
  let content := (← disk.readText path)
  match content.map Settings.parse with
  | some (.ok settings) => return .ok settings
  | _ => return .error ("failed to load config '" ++ path.text ++ "'")

/-- Section 12, `load_config`: the settings of a named file, else of the default file if it is
there, else the defaults. -/
def baseSettings (named : Option String) : m (Except String Settings) := do
  match named with
  | some path => loadSettings disk ⟨path⟩
  | none =>
    if ← disk.isFile defaultSettingsFile then loadSettings disk defaultSettingsFile
    else return .ok {}

/-- Section 14, `registry`: the registry and the source files of a run. -/
def prepare (settings : Settings) (inputs : List String) :
    m (Except String (Registry × List SourcePath)) := do
  match Registry.builtin.applySettings settings with
  | .error error => return .error error.message
  | .ok registry =>
    match ← (Discovery.discover disk registry settings.exclude inputs).run with
    | .error error => return .error error.message
    | .ok files => return .ok (registry, files)

/-- The text of a number. -/
def count (n : Nat) : String := String.ofList (Decimal.digitChars n)

/-- The text of lines. -/
def lines (texts : List String) : String := String.join (texts.map (· ++ "\n"))

/-- Section 14, `build`: read, resolve and render. -/
def build (date : m String) (settings : Settings) (inputs : List String) : m Exit := do
  match ← prepare disk settings inputs with
  | .error message => return .failure message
  | .ok (registry, files) =>
    if files.isEmpty then return .failure "no input files found"
    match ← (Run.resolve disk registry settings files).run with
    | .error error => return .failure error.message
    | .ok (.report entries) =>
      return { output := lines (entries.map fun e => e.location.text ++ ": " ++ e.message) }
    | .ok (.tree tree) =>
      match ← (Run.render disk registry settings (← date) tree).run with
      | .error _ => return .failure ("failed to render '" ++ settings.renderer ++ "'")
      | .ok () =>
        return { output := lines ["Documented " ++ count tree.size ++ " symbols from "
          ++ count files.length ++ " files into " ++ settings.output.text] }

/-- Section 14, `check`: read and resolve, and list the problems. -/
def check (settings : Settings) (inputs : List String) : m Exit := do
  match ← prepare disk settings inputs with
  | .error message => return .failure message
  | .ok (registry, files) =>
    match ← (Run.resolve disk registry settings files).run with
    | .error error => return .failure error.message
    | .ok (.report _) => return {}
    | .ok (.tree tree) =>
      if tree.diagnostics.isEmpty then
        return { output := lines [count tree.size ++ " symbols, no problems found"] }
      else
        return {
          output := lines (tree.diagnostics.map (·.message))
          complaint := some (.failure (count tree.diagnostics.length ++ " problem(s) found in "
            ++ count files.length ++ " file(s)")) }

/-- Section 14, `main`: run the program. -/
def execute (date : m String) (arguments : List String) : m Exit := do
  match parse? arguments with
  | none => return { complaint := some .usage }
  | some .version => return { output := lines ["doctree " ++ version] }
  | some .help => return { output := usage }
  | some (.run command given) =>
    match ← baseSettings disk (given.value? "config") with
    | .error message => return .failure message
    | .ok base =>
      let settings := override given base
      match command with
      | .build => build disk date settings given.operands
      | .check => check disk settings given.operands

end SymbolTree.CommandLine
