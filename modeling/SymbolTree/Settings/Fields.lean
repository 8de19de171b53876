import SymbolTree.FieldReader
import SymbolTree.Settings

/-!
# The fields of settings

Every option has a name in kebab case and a place in the list of all options. An absent option has
its default, and an unknown name is refused.
-/

namespace SymbolTree.Settings

/-- Read the option `name`. An unknown option has no reader. -/
def readOption? {m : Type → Type} [Monad m] (reader : FieldReader m) (name : String)
    (settings : Settings) : Option (m Settings) :=
  match name with
  | "title" => some do return { settings with title := ← reader.text }
  | "output" => some do return { settings with output := ⟨← reader.text⟩ }
  | "renderer" => some do return { settings with renderer := ← reader.text }
  | "split-by-class" => some do return { settings with splitByClass := ← reader.flag }
  | "split-from-ns" => some do return { settings with splitFromNamespace := ← reader.flag }
  | "prefix" => some do return { settings with namePrefix := ← reader.optional reader.text }
  | "suffix" => some do return { settings with nameSuffix := ← reader.optional reader.text }
  | "report" => some do return { settings with report := ← reader.flag }
  | "report-only" => some do return { settings with reportOnly := ← reader.flag }
  | "broken-links" => some do
    return { settings with
      brokenLinks := ← reader.optional (reader.choice BrokenLinks.ofText?) }
  | "aliases" => some do return { settings with aliases := ← reader.texts }
  | "exclude" => some do return { settings with exclude := ← reader.texts }
  | "global-objects" => some do
    return { settings with globalObjects := ← reader.optional reader.text }
  | "format-json" => some do return { settings with indent := ← reader.flag }
  | "keep-out-dir" => some do return { settings with keepOutput := ← reader.flag }
  | "strict" => some do return { settings with strict := ← reader.flag }
  | _ => none

/-- The names of all options, in the order in which a list gives them. -/
def optionNames : List String :=
  ["title", "output", "renderer", "split-by-class", "split-from-ns", "prefix", "suffix", "report",
    "report-only", "broken-links", "aliases", "exclude", "global-objects", "format-json",
    "keep-out-dir", "strict"]

/-- The options that a value gives: those of an object by their names, those of a list by their
places. A list may end early. -/
def givenOptions? : Json → Option (List (String × Json))
  | .object fields => some fields
  | .array items =>
    if items.length ≤ optionNames.length then some (optionNames.zip items) else none
  | _ => none

/-- The settings that a value describes. -/
def ofJson? (value : Json) : Option Settings := do
  (← givenOptions? value).foldlM
    (fun settings field => (readOption? field.2.fieldReader field.1 settings).bind id)
    ({} : Settings)

/-- Settings as an object with all options. -/
def toJson (settings : Settings) : Json :=
  .object [("title", .string settings.title), ("output", .string settings.output.text),
    ("renderer", .string settings.renderer), ("split-by-class", .bool settings.splitByClass),
    ("split-from-ns", .bool settings.splitFromNamespace), ("prefix", .ofText? settings.namePrefix),
    ("suffix", .ofText? settings.nameSuffix), ("report", .bool settings.report),
    ("report-only", .bool settings.reportOnly),
    ("broken-links", .ofText? (settings.brokenLinks.map (·.text))),
    ("aliases", .ofTexts settings.aliases), ("exclude", .ofTexts settings.exclude),
    ("global-objects", .ofText? settings.globalObjects), ("format-json", .bool settings.indent),
    ("keep-out-dir", .bool settings.keepOutput), ("strict", .bool settings.strict)]

end SymbolTree.Settings
