import SymbolTree.Json.Reader
import SymbolTree.Record.Fields

/-!
# Records in JSON text

A record file in JSON holds one array of record objects. The records are read straight from the
text, so a field of the wrong shape is noticed where it stands, before any fault that follows it.
-/

namespace SymbolTree.Record.JsonText

open SymbolTree.Reader SymbolTree.Json.Reader

/-- Fail on a value of the wrong shape. A scalar is read to its end first; an array or an object is
rejected at its start. -/
def wrongShape {α : Type} : Reader α := do
  match ← peek with
  | some '[' | some '{' => fail
  | _ =>
    -- one level suffices for a scalar
    let _ ← value 1
    fail

/-- Read a text. -/
def text : Reader String := do
  match ← token with
  | some '"' => quotedText
  | none => failAtNext
  | some _ => wrongShape

/-- Read a value or null. -/
def optional {α : Type} (present : Reader α) : Reader (Option α) := do
  match ← token with
  | some 'n' =>
    skip
    keyword ['u', 'l', 'l']
    return none
  | _ => return some (← present)

/-- Read a truth value. -/
def flag : Reader Bool := do
  match ← token with
  | some 't' =>
    skip
    keyword ['r', 'u', 'e']
    return true
  | some 'f' =>
    skip
    keyword ['a', 'l', 's', 'e']
    return false
  | none => failAtNext
  | some _ => wrongShape

/-- Read a line number, an integer of thirty-two bits. -/
def lineNumber : Reader UInt32 := do
  match ← token with
  | none => failAtNext
  | some c =>
    if c == '-' || c.isDigit then
      match ← number with
      | .integer n =>
        match lineOfInt? n with
        | some line => return line
        | none => fail
      | .float _ => fail
    else wrongShape

/-- Read a list of texts. -/
def texts (depth : Nat) : Reader (List String) := do
  match ← token with
  | some '[' =>
    if depth ≤ 1 then failAtNext
    items text
  | none => failAtNext
  | some _ => wrongShape

/-- Read the name of a choice. -/
def choiceName {α : Type} (ofText? : String → Option α) : Reader α := do
  match ofText? (← text) with
  | some result => return result
  | none => fail

/-- Read null. -/
def nothing : Reader Unit := do
  match ← token with
  | some 'n' =>
    skip
    keyword ['u', 'l', 'l']
  | none => failAtNext
  | some _ => wrongShape

/-- Read a choice: its name, or an object that holds null under its name. -/
def choice {α : Type} (depth : Nat) (ofText? : String → Option α) : Reader α := do
  match ← token with
  | some '"' => choiceName ofText?
  | some '{' =>
    if depth ≤ 1 then failAtNext
    skip
    let result ← choiceName ofText?
    colon
    nothing
    if (← token) == some '}' then
      skip
      return result
    else fail
  | _ => failAtNext

/-- Read the fields of a record that stand inside `depth` levels to spare. -/
def fieldReader (depth : Nat) : FieldReader Reader where
  text := text
  flag := flag
  line := lineNumber
  texts := texts depth
  choice := choice depth
  optional := optional
  anything := value depth

/-- Read one field after its key. A known field may occur only once. -/
def member (depth : Nat) (key : String) (gathered : PartialRecord) : Reader PartialRecord := do
  if gathered.has key then
    let _ ← token
    fail
  colon
  gathered.read (fieldReader depth) key

/-- Read one record. A missing id or type is noticed at the closing brace. -/
def record (depth : Nat) : Reader Record := do
  match ← token with
  | some '{' =>
    if depth ≤ 1 then failAtNext
    match (← fields (member (depth - 1)) {}).finish? with
    | some result => return result
    | none => fail
  | none => failAtNext
  | some _ => wrongShape

/-- Read a whole file of records. -/
def file : Reader (List Record) := do
  match ← token with
  | some '[' =>
    let result ← items (record (nesting - 1))
    ending
    return result
  | none => failAtNext
  | some _ => wrongShape

/-- The records of a JSON file. -/
def parse (content : String) : Except LineFault (List Record) := file.run content

end SymbolTree.Record.JsonText
