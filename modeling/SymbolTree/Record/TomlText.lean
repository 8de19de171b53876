import SymbolTree.Record.Fields
import SymbolTree.Toml.Fields

/-!
# Records in TOML text

A record file in TOML holds an array of tables named `record`, and nothing else at its top level.
-/

namespace SymbolTree.Record.TomlText

open SymbolTree.Toml

/-- Read one record. A missing id or type is blamed on the whole record. -/
def record (field : Field) : Except LineFault Record :=
  match field.item with
  | .table _ entries => do
    let gathered ← entries.foldlM
      (fun gathered entry => gathered.read (Field.reader ⟨entry.1.line, entry.2⟩) entry.1.name)
      ({} : PartialRecord)
    match gathered.finish? with
    | some result => return result
    | none => field.fail
  | _ => field.fail

/-- Read one top-level entry. -/
def entry (key : Key) (item : Item) : Except LineFault (List Record) := do
  if key.name = "record" then
    (← Field.elements ⟨key.line, item⟩).mapM record
  else throw ⟨key.line⟩

/-- The records of a TOML file. -/
def parse (content : String) : Except LineFault (List Record) := do
  let table ← Toml.Reader.parse content
  return (← table.fields.mapM fun field => entry field.1 field.2).flatten

end SymbolTree.Record.TomlText
