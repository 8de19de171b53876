import SymbolTree.Json
import SymbolTree.SourcePath

/-!
# Records

A record is one documented symbol as a source file declares it. Records that compete for one place
are ranked by precedence: the earlier source location wins, and the kind and the documentation
decide between records that share a location.
-/

namespace SymbolTree

/-- A line of a source file. -/
structure SourceLocation where
  /-- The file. -/
  file : SourcePath
  /-- Counted from one; zero when unknown. -/
  line : UInt32
deriving DecidableEq, Repr, Inhabited

namespace SourceLocation

/-- The location as `file:line`. -/
def text (location : SourceLocation) : String :=
  location.file.text ++ ":" ++ String.ofList (Decimal.digitChars location.line.toNat)

/-- Locations compare by file, then by line. -/
def compare (a b : SourceLocation) : Ordering :=
  (a.file.compare b.file).then (Ord.compare a.line b.line)

/-- Whether two locations name the same line of the same file. -/
def same (a b : SourceLocation) : Bool := a.file.same b.file && a.line == b.line

end SourceLocation

/-- What a source file declares a symbol to be. -/
inductive RecordKind where
  | «section»
  | «class»
  | method
  | property
  | constructor
  | event
  | cfg
  | cssVar
  | cssMixin
  | utility
deriving DecidableEq, Repr, Inhabited

namespace RecordKind

/-- Every kind, in declaration order. -/
def all : List RecordKind :=
  [.section, .class, .method, .property, .constructor, .event, .cfg, .cssVar, .cssMixin, .utility]

/-- Section 3, `as_str`: the name of a kind. -/
def text : RecordKind → String
  | .section => "section"
  | .class => "class"
  | .method => "method"
  | .property => "property"
  | .constructor => "constructor"
  | .event => "event"
  | .cfg => "cfg"
  | .cssVar => "css_var"
  | .cssMixin => "css_mixin"
  | .utility => "utility"

/-- The kind with a name. -/
def ofText? (name : String) : Option RecordKind := all.find? (·.text == name)

/-- Section 4.4, `is_generic_member`: methods and properties stay open to a finer classification. -/
def isGeneric (kind : RecordKind) : Bool := kind == .method || kind == .property

end RecordKind

/-- The rank of a symbol among those that compete for one place. -/
structure Precedence where
  /-- Where the symbol is declared. -/
  location : SourceLocation
  /-- The name of its type. -/
  typeName : String
  /-- Its description. -/
  description : String
  /-- Its summary. -/
  summary : String

namespace Precedence

/-- Section 5: the smaller precedence wins. -/
def compare (a b : Precedence) : Ordering :=
  (a.location.compare b.location).then <|
    (Ord.compare a.typeName b.typeName).then <|
      (Ord.compare a.description b.description).then (Ord.compare a.summary b.summary)

/-- Strictly ahead of another precedence. -/
def beats (a b : Precedence) : Bool := a.compare b == .lt

end Precedence

/-- Section 3: one documented symbol. -/
structure Record where
  /-- Id relative to the section, for instance `Button#render`. -/
  id : String
  /-- What the symbol is. -/
  kind : RecordKind
  /-- The owning section, when it is known. -/
  «section» : Option String := none
  /-- Full description. -/
  description : String := ""
  /-- One-line summary. -/
  summary : String := ""
  /-- Source file. -/
  file : SourcePath := ⟨""⟩
  /-- Source line. -/
  line : UInt32 := 0
  /-- The class that this class extends. -/
  superclass : Option String := none
  /-- The classes whose members are merged into this one. -/
  inherits : List String := []
  /-- The record that this one is another name for. -/
  aliasOf : Option String := none
  /-- A method that is also reachable through instances. -/
  bound : Bool := false
  /-- Augments a symbol that another file defines. -/
  «extension» : Bool := false
  /-- The record to copy missing documentation from. -/
  inheritDoc : Option String := none
  /-- Fields that are passed on as they are. -/
  extra : KeyMap Json := .empty
deriving Inhabited

namespace Record

/-- Where the record is declared. -/
def location (record : Record) : SourceLocation := ⟨record.file, record.line⟩

/-- Section 5, `precedence`: the rank of the record in a clash. -/
def precedence (record : Record) : Precedence :=
  ⟨record.location, record.kind.text, record.description, record.summary⟩

/-- Section 2, `key`: the key of the record in a collection, where a section is filed under its id,
any other record under its section and its id. -/
def key (record : Record) : String :=
  if record.kind = .section then record.id
  else record.section.getD "" ++ "." ++ record.id

end Record

/-- A remark about a source file. -/
structure ReportEntry where
  /-- The place that the remark is about. -/
  location : SourceLocation
  /-- The remark. -/
  message : String

/-- Section 6, `ParseOutput`: what one source file declares. -/
structure SourceUnit where
  /-- Records in source order. -/
  records : List Record := []
  /-- Remarks in source order. -/
  report : List ReportEntry := []

namespace SourceUnit

/-- Section 15.1, `default_file`: give `path` to every record that names no file of its own. -/
def withDefaultFile (path : SourcePath) (unit : SourceUnit) : SourceUnit :=
  { unit with
    records := unit.records.map fun record =>
      if record.file.text.isEmpty then { record with file := path } else record }

end SourceUnit

end SymbolTree
