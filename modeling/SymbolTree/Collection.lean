import SymbolTree.Diagnostic
import SymbolTree.Name

/-!
# Collections of records

A collection gathers the records of all source files under their keys. The record of smaller
precedence keeps a key that two records compete for, whichever of them comes first; of two records
with one precedence the first keeps it. The root section, filed under the empty key, is always
there.
-/

namespace SymbolTree

/-- The records of a run. -/
structure Collection where
  /-- Records by key. -/
  records : KeyMap Record
  /-- Keys of bound methods with the keys of their instance twins. -/
  boundPairs : List (String × String) := []
  /-- Remarks about the source files. -/
  report : List ReportEntry := []
  /-- Clashes between records. -/
  diagnostics : List Diagnostic := []
  /-- The source files, in the order in which they were added. -/
  files : List SourcePath := []

namespace Collection

/-- The root section. -/
def root : Record := { id := "", kind := .section }

/-- Section 2, `new`: the collection that holds only the root section. -/
def empty : Collection where
  records := KeyMap.empty.insert "" root

/-- Section 5, `insert_keyed`: file a record under a key. A record of strictly smaller precedence
takes the key over, and every competition leaves a diagnostic. -/
def file (collection : Collection) (key : String) (record : Record) : Collection :=
  match collection.records.get? key with
  | none => { collection with records := collection.records.insert key record }
  | some holder =>
    if record.precedence.beats holder.precedence then
      { collection with
        records := collection.records.insert key record
        diagnostics :=
          collection.diagnostics ++ [.nameClash key record.location holder.location] }
    else
      { collection with
        diagnostics :=
          collection.diagnostics ++ [.nameClash key holder.location record.location] }

/-- Section 15.2: the instance twin of a bound class method. -/
def twin? (record : Record) : Option Record :=
  if record.kind = .method ∧ record.bound then
    (QualifiedName.parse record.id).instanceTwin?.map fun twin => { record with id := twin.text }
  else none

/-- Section 15.2, `insert`: add a record, after the instance twin that it has when it is a bound
method. -/
def insert (collection : Collection) (record : Record) : Collection :=
  match twin? record with
  | none => collection.file record.key record
  | some twin =>
    let paired :=
      { collection with boundPairs := collection.boundPairs ++ [(record.key, twin.key)] }
    (paired.file twin.key twin).file record.key record

/-- Add records in turn. -/
def insertAll (collection : Collection) (records : List Record) : Collection :=
  records.foldl insert collection

/-- Section 2, `add_file`: add what a source file declares. -/
def addFile (collection : Collection) (path : SourcePath) (unit : SourceUnit) : Collection :=
  { collection with
    files := collection.files ++ [path]
    report := collection.report ++ unit.report }.insertAll unit.records

/-- Section 2, `len`: the number of records, the root section included. -/
def size (collection : Collection) : Nat := collection.records.size

/-- Whether nothing but the root section is there. -/
def isEmpty (collection : Collection) : Bool := collection.size ≤ 1

/-- The record under a key. -/
def get? (collection : Collection) (key : String) : Option Record := collection.records.get? key

end Collection

end SymbolTree
