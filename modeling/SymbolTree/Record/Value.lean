import SymbolTree.Record.Fields

/-!
# Records as structured values

`Record.toJson` writes all known fields, followed by the extras. `Record.ofJson?` reads an object back: known
fields must have the right shape, null stands for an absent text only where a text is optional, and
the kind may also be spelled as an object with a single null field.
-/

namespace SymbolTree

namespace Record

/-- The record that an object describes. -/
def ofJson? : Json → Option Record
  | .object fields => do
    let gathered ← fields.foldlM
      (fun gathered field => gathered.read field.2.fieldReader field.1) ({} : PartialRecord)
    gathered.finish?
  | _ => none

/-- The known fields of a record. -/
def knownEntries (record : Record) : List (String × Json) :=
  [("id", .string record.id),
    ("type", .string record.kind.text),
    ("section", .ofText? record.section),
    ("description", .string record.description),
    ("short_description", .string record.summary),
    ("file", .string record.file.text),
    ("line", .ofNat record.line.toNat),
    ("superclass", .ofText? record.superclass),
    ("inherits", .ofTexts record.inherits),
    ("alias_of", .ofText? record.aliasOf),
    ("bound", .bool record.bound),
    ("extension", .bool record.extension),
    ("inheritdoc", .ofText? record.inheritDoc)]

/-- A record as one flat object. -/
def toJson (record : Record) : Json := .object (record.knownEntries ++ record.extra.entries)

end Record

end SymbolTree
