import SymbolTree.Cursor
import SymbolTree.Json

/-!
# Configuration documents

A document in TOML is a tree of tables. Every item remembers the line that it starts on, so a value
of the wrong shape can be pointed at. Tables that only come into being as parents of other tables
have no line of their own.
-/

namespace SymbolTree.Toml

/-- A key with the line on which it stands. -/
structure Key where
  /-- The key without its quotes. -/
  name : String
  /-- The line of the key. -/
  line : Nat
deriving DecidableEq, Repr

/-- How a table came into being. -/
structure TableShape where
  /-- The line of its header or opening brace. -/
  line : Option Nat := none
  /-- Written between braces. -/
  inline : Bool := false
  /-- Only mentioned as the parent of other items so far. -/
  implicit : Bool := false
  /-- Mentioned in a dotted key. -/
  dotted : Bool := false
deriving DecidableEq, Repr

/-- An item of a document. -/
inductive Item where
  | text (line : Nat) (value : String)
  | integer (line : Nat) (value : Int)
  | float (line : Nat) (value : Binary64)
  | boolean (line : Nat) (value : Bool)
  /-- A date, a time or both, in normal form. -/
  | moment (line : Nat) (value : String)
  | array (line : Nat) (items : List Item)
  /-- Tables that share a header. -/
  | tables (items : List Item)
  | table (shape : TableShape) (fields : List (Key × Item))
deriving Inhabited

namespace Item

/-- The line that an item starts on. -/
def line? : Item → Option Nat
  | .text line _ | .integer line _ | .float line _ | .boolean line _ | .moment line _
  | .array line _ => some line
  | .tables items =>
    match items with
    | .table shape _ :: _ => shape.line
    | _ => none
  | .table shape _ => shape.line

mutual

/-- An item as a structured value. Tables become objects with sorted keys, numbers outside the value
format become null, and a date becomes an object of one field. -/
def toJson : Item → Json
  | .text _ value => .string value
  | .integer _ value => .ofInt value
  | .float _ value => if value.isFinite then .number (.float value) else .null
  | .boolean _ value => .bool value
  | .moment _ value => .object [("$__toml_private_datetime", .string value)]
  | .array _ items => .array (listToJson items)
  | .tables items => .array (listToJson items)
  | .table _ fields => .object (fieldsToJson fields)

/-- Items as structured values. -/
def listToJson : List Item → List Json
  | [] => []
  | item :: rest => item.toJson :: listToJson rest

/-- The fields of a table, sorted. -/
def fieldsToJson : List (Key × Item) → List (String × Json)
  | [] => []
  | (key, item) :: rest => insertEntry key.name item.toJson (fieldsToJson rest)

end

end Item

end SymbolTree.Toml
