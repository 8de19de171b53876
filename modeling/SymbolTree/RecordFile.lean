import SymbolTree.Record.JsonText
import SymbolTree.Record.TomlText
import SymbolTree.Text.Blank

/-!
# Record files

A record file carries records that were extracted from source code before. Records that name no file
belong to the record file itself, and every symbol without a description is remarked upon.
-/

namespace SymbolTree

/-- The formats of record files. -/
inductive RecordFormat where
  | json
  | toml
deriving DecidableEq, Repr

/-- Section 7, `ParseError`: why a source file cannot be used. -/
inductive FileError where
  /-- The file cannot be read as text. -/
  | unreadable (path : SourcePath)
  /-- The content is malformed. -/
  | malformed (location : SourceLocation)
  /-- No parser handles the file. -/
  | noParser (path : SourcePath)
deriving DecidableEq, Repr

namespace FileError

/-- The wording of an error. -/
def message : FileError → String
  | .unreadable path =>
    "failed to read '" ++ path.text ++ "': stream did not contain valid UTF-8"
  | .malformed location => location.text ++ ": malformed records"
  | .noParser path => "no parser registered for '" ++ path.text ++ "'"

end FileError

namespace RecordFormat

/-- The extension of the files of a format. -/
def extension : RecordFormat → String
  | .json => "json"
  | .toml => "toml"

/-- The records in a text. -/
def parse (format : RecordFormat) (content : String) : Except LineFault (List Record) :=
  match format with
  | .json => Record.JsonText.parse content
  | .toml => Record.TomlText.parse content

end RecordFormat

/-- Section 15.4: the remark on a symbol without a description. -/
def missingDescription? (record : Record) : Option ReportEntry :=
  if record.kind ≠ .section ∧ Text.isBlank record.description then
    some ⟨record.location,
      record.kind.text ++ " '" ++ record.id ++ "' has no description"⟩
  else none

/-- Section 15.1, `finish`: the content of a record file. -/
def SourceUnit.ofRecords (path : SourcePath) (records : List Record) : SourceUnit :=
  let unit := SourceUnit.withDefaultFile path { records }
  { unit with report := unit.records.filterMap missingDescription? }

/-- A line number of thirty-two bits, as large as the line allows. -/
def lineNumber (line : Nat) : UInt32 := UInt32.ofNat (min line (UInt32.size - 1))

/-- Section 15.1, `parse_json` and `parse_toml`: what a record file declares, given its content if
that could be read as text. -/
def readRecordFile (format : RecordFormat) (path : SourcePath) (content : Option String) :
    Except FileError SourceUnit :=
  match content with
  | none => .error (.unreadable path)
  | some content =>
    match format.parse content with
    | .ok records => .ok (SourceUnit.ofRecords path records)
    | .error fault => .error (.malformed ⟨path, lineNumber fault.line⟩)

end SymbolTree
