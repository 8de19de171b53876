import SymbolTree.Settings.Fields
import SymbolTree.Toml.Fields

/-!
# Settings in TOML text

A settings file holds options at its top level, and is checked as a whole once it is read.
-/

namespace SymbolTree.Settings

open SymbolTree.Toml

/-- The options of a settings file. -/
def ofToml? (content : String) : Option Settings := do
  let table ← (Toml.Reader.parse content).toOption
  table.fields.foldlM
    (fun settings entry => do
      let read ← readOption? (Field.reader ⟨entry.1.line, entry.2⟩) entry.1.name settings
      read.toOption)
    {}

/-- Section 12, `parse`: the settings in a settings file. -/
def parse (content : String) : Except SettingsError Settings := do
  match ofToml? content with
  | none => throw .malformed
  | some settings =>
    settings.validate
    return settings

end SymbolTree.Settings
