import SymbolTree.FieldReader
import SymbolTree.Record

/-!
# The fields of a record

A record is written as one flat object: thirteen known fields, and the extra fields beside them. The
known fields may come in any order, so they are gathered in a `PartialRecord`.
-/

namespace SymbolTree

/-- The fields of a record that have been read so far. -/
structure PartialRecord where
  id : Option String := none
  kind : Option RecordKind := none
  «section» : Option (Option String) := none
  description : Option String := none
  summary : Option String := none
  file : Option String := none
  line : Option UInt32 := none
  superclass : Option (Option String) := none
  inherits : Option (List String) := none
  aliasOf : Option (Option String) := none
  bound : Option Bool := none
  «extension» : Option Bool := none
  inheritDoc : Option (Option String) := none
  extra : KeyMap Json := .empty

/-- The names of the known fields. -/
def knownFields : List String :=
  ["id", "type", "section", "description", "short_description", "file", "line", "superclass",
    "inherits", "alias_of", "bound", "extension", "inheritdoc"]

namespace PartialRecord

/-- Whether a known field has been read. -/
def has (partialRecord : PartialRecord) : String → Bool
  | "id" => partialRecord.id.isSome
  | "type" => partialRecord.kind.isSome
  | "section" => partialRecord.section.isSome
  | "description" => partialRecord.description.isSome
  | "short_description" => partialRecord.summary.isSome
  | "file" => partialRecord.file.isSome
  | "line" => partialRecord.line.isSome
  | "superclass" => partialRecord.superclass.isSome
  | "inherits" => partialRecord.inherits.isSome
  | "alias_of" => partialRecord.aliasOf.isSome
  | "bound" => partialRecord.bound.isSome
  | "extension" => partialRecord.extension.isSome
  | "inheritdoc" => partialRecord.inheritDoc.isSome
  | _ => false

/-- Read the field `name`. An unknown field is an extra, and of a repeated extra the last value
counts. -/
def read {m : Type → Type} [Monad m] (reader : FieldReader m) (name : String)
    (partialRecord : PartialRecord) : m PartialRecord :=
  match name with
  | "id" => return { partialRecord with id := some (← reader.text) }
  | "type" => return { partialRecord with kind := some (← reader.choice RecordKind.ofText?) }
  | "section" => return { partialRecord with «section» := some (← reader.optional reader.text) }
  | "description" => return { partialRecord with description := some (← reader.text) }
  | "short_description" => return { partialRecord with summary := some (← reader.text) }
  | "file" => return { partialRecord with file := some (← reader.text) }
  | "line" => return { partialRecord with line := some (← reader.line) }
  | "superclass" => return { partialRecord with superclass := some (← reader.optional reader.text) }
  | "inherits" => return { partialRecord with inherits := some (← reader.texts) }
  | "alias_of" => return { partialRecord with aliasOf := some (← reader.optional reader.text) }
  | "bound" => return { partialRecord with bound := some (← reader.flag) }
  | "extension" => return { partialRecord with «extension» := some (← reader.flag) }
  | "inheritdoc" => return { partialRecord with inheritDoc := some (← reader.optional reader.text) }
  | _ => return { partialRecord with extra := partialRecord.extra.insert name (← reader.anything) }

/-- The record, when its id and its type have been read. All other fields have defaults. -/
def finish? (partialRecord : PartialRecord) : Option Record := do
  let id ← partialRecord.id
  let kind ← partialRecord.kind
  return {
    id
    kind
    «section» := partialRecord.section.getD none
    description := partialRecord.description.getD ""
    summary := partialRecord.summary.getD ""
    file := ⟨partialRecord.file.getD ""⟩
    line := partialRecord.line.getD 0
    superclass := partialRecord.superclass.getD none
    inherits := partialRecord.inherits.getD []
    aliasOf := partialRecord.aliasOf.getD none
    bound := partialRecord.bound.getD false
    «extension» := partialRecord.extension.getD false
    inheritDoc := partialRecord.inheritDoc.getD none
    extra := partialRecord.extra }

end PartialRecord

end SymbolTree
