import SymbolTree.RecordFile
import SymbolTree.Rendering
import SymbolTree.Text.LowerCase
import SymbolTree.Text.Quoted

/-!
# Registries

A registry knows a parser per file extension, a renderer per name, and aliases of extensions.
Extensions are kept in lower case and without leading dots. Aliases are followed until an extension
has none or is an alias of itself; one step more than there are aliases is enough for every chain
that ends.
-/

namespace SymbolTree

/-- Section 6, `Parser`: turns a source file into records, given its path and its content if that
could be read as text. -/
abbrev Parser := SourcePath → (content : Option String) → Except FileError SourceUnit

/-- The parsers, renderers and aliases of a run. -/
structure Registry where
  /-- Parsers by extension. -/
  parsers : KeyMap Parser := .empty
  /-- Renderers by name. -/
  renderers : KeyMap Renderer := .empty
  /-- Extensions by alias. -/
  aliases : KeyMap String := .empty

namespace Registry

/-- Section 6, `normalize`: an extension in lower case, without leading dots. -/
def normalize (ext : String) : String :=
  Text.lowerCase (String.ofList (ext.toList.dropWhile (· == '.')))

/-- Section 6, `register_parser`: register a parser, replacing an earlier one for the same
extension. -/
def addParser (registry : Registry) (ext : String) (parser : Parser) : Registry :=
  { registry with parsers := registry.parsers.insert (normalize ext) parser }

/-- Section 6, `register_renderer`: register a renderer, replacing any other of the same name. -/
def addRenderer (registry : Registry) (name : String) (renderer : Renderer) : Registry :=
  { registry with renderers := registry.renderers.insert name renderer }

/-- Section 6, `extension_alias`: treat files with one extension like those with another. -/
def addAlias (registry : Registry) (aliasName canonical : String) : Registry :=
  { registry with
    aliases := registry.aliases.insert (normalize aliasName) (normalize canonical) }

/-- Section 6, `apply_config`: register the aliases of the settings. -/
def applySettings (registry : Registry) (settings : Settings) : Except SettingsError Registry := do
  return (← settings.aliasPairs).foldl (fun registry pair => registry.addAlias pair.1 pair.2)
    registry

/-- Section 6, `with_builtins`: the registry of the built-in formats. -/
def builtin : Registry :=
  let formats := [RecordFormat.json, .toml].foldl
    (fun registry format => registry.addParser format.extension (readRecordFile format))
    ({} : Registry)
  formats.addRenderer "json" renderDocument

/-- Follow aliases for at most a number of steps. -/
def followAliases (aliases : KeyMap String) : (steps : Nat) → String → String
  | 0, ext => ext
  | steps + 1, ext =>
    match aliases.get? ext with
    | some next => if next = ext then ext else followAliases aliases steps next
    | none => ext

/-- Section 6, `canonical_extension`: the extension that an extension stands for. -/
def canonicalExtension (registry : Registry) (ext : String) : String :=
  followAliases registry.aliases (registry.aliases.size + 1) ext

/-- Section 6, `parser_for`: the parser of a file. -/
def parserFor? (registry : Registry) (path : SourcePath) : Option Parser :=
  path.extension?.bind fun ext =>
    registry.parsers.get? (registry.canonicalExtension (normalize ext))

/-- Section 6, `supports`: whether some parser handles a file. -/
def supports (registry : Registry) (path : SourcePath) : Bool := (registry.parserFor? path).isSome

/-- Section 6, `renderer`: the renderer with a name. -/
def renderer (registry : Registry) (name : String) : Except SettingsError Renderer :=
  match registry.renderers.get? name with
  | some renderer => .ok renderer
  | none => .error (.unknownRenderer name)

/-- Section 6, `extensions`: all extensions and aliases, sorted and without repeats. -/
def extensions (registry : Registry) : List String :=
  (KeyMap.ofList ((registry.parsers.keys ++ registry.aliases.keys).map fun ext => (ext, ()))).keys

/-- A description of the registry for people. -/
def describe (registry : Registry) : String :=
  let names (keys : List String) : String :=
    "[" ++ String.intercalate ", " (keys.map Text.quoted) ++ "]"
  let pairs := registry.aliases.entries.map fun entry =>
    Text.quoted entry.1 ++ ": " ++ Text.quoted entry.2
  "Registry \x7b parsers: " ++ names registry.parsers.keys ++ ", renderers: "
    ++ names registry.renderers.keys ++ ", aliases: \x7b" ++ String.intercalate ", " pairs
    ++ "\x7d \x7d"

end Registry

end SymbolTree
