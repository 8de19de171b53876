import SymbolTree.FieldReader
import SymbolTree.Toml.Reader

/-!
# Fields of tables

How the value of one field is read from an item. A value of the wrong shape is blamed on its own
line, or on the line of its key when it has none.
-/

namespace SymbolTree.Toml

/-- An item under a key. -/
structure Field where
  /-- The line of the key. -/
  keyLine : Nat
  /-- The item. -/
  item : Item

namespace Field

/-- The line to blame: that of the item, or of the key when the item has none. -/
def place (field : Field) : Nat := field.item.line?.getD field.keyLine

/-- Blame the item. -/
def fail {α : Type} (field : Field) : Except LineFault α := throw ⟨field.place⟩

/-- A text. -/
def text (field : Field) : Except LineFault String :=
  match field.item with
  | .text _ value => .ok value
  | _ => field.fail

/-- A truth value. -/
def flag (field : Field) : Except LineFault Bool :=
  match field.item with
  | .boolean _ value => .ok value
  | _ => field.fail

/-- A line number: an integer of thirty-two bits. -/
def line (field : Field) : Except LineFault UInt32 :=
  match field.item with
  | .integer _ n =>
    match lineOfInt? n with
    | some line => .ok line
    | none => field.fail
  | _ => field.fail

/-- The elements of an array, or of an array of tables. -/
def elements (field : Field) : Except LineFault (List Field) :=
  let ofItems (items : List Item) : List Field :=
    items.map fun item => ⟨field.place, item⟩
  match field.item with
  | .array _ items => .ok (ofItems items)
  | .tables items => .ok (ofItems items)
  | _ => field.fail

/-- A list of texts. -/
def texts (field : Field) : Except LineFault (List String) := do
  (← field.elements).mapM text

/-- Whether an item holds nothing. -/
def isEmpty (field : Field) : Bool :=
  match field.item with
  | .array _ items | .tables items => items.isEmpty
  | .table _ fields => fields.isEmpty
  | _ => false

/-- One of several choices, given by its name or as the only key of a table, under which there is an
empty item. A filled item without a line is blamed on the table. -/
def choice {α : Type} (field : Field) (ofText? : String → Option α) : Except LineFault α :=
  match field.item with
  | .text _ name =>
    match ofText? name with
    | some result => .ok result
    | none => field.fail
  | .table _ [(key, item)] =>
    match ofText? key.name with
    | none => throw ⟨key.line⟩
    | some result =>
      let content : Field := ⟨field.place, item⟩
      if content.isEmpty then .ok result else content.fail
  | _ => field.fail

/-- Read fields from an item. A field that is there always has a value. -/
def reader (field : Field) : FieldReader (Except LineFault) where
  text := field.text
  flag := field.flag
  line := field.line
  texts := field.texts
  choice := field.choice
  optional present := some <$> present
  anything := .ok field.item.toJson

end Field

end SymbolTree.Toml
