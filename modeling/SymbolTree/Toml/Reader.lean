import SymbolTree.Toml.Scalar
import SymbolTree.Toml.Table

/-!
# Reading configuration documents

A document is read line by line: comments, headers, and keys with their values. Only arrays and
texts between tripled quotes may span lines. A fault is noticed at the first character that does not
fit; a definition that conflicts with an earlier one is blamed on the line on which it starts.
-/

namespace SymbolTree.Toml.Reader

open SymbolTree.Reader

/-- Brackets may be nested, and keys dotted, to less than this depth. -/
def nesting : Nat := 80

/-- Blanks within a line. -/
def isBlankChar (c : Char) : Bool := c == ' ' || c == '\t'

/-- Characters that may stand in comments and texts: no control characters but the tab. -/
def isPlain (c : Char) : Bool := c == '\t' || (0x20 ≤ c.toNat && c.toNat != 0x7f)

/-- Skip blanks within a line. -/
def blanks : Reader Unit := do
  let _ ← takeWhile isBlankChar

/-- The unread rest of the text. -/
def remaining : Reader (List Char) := do
  return (← get).rest

/-- The current line. -/
def currentLine : Reader Nat := do
  return (← get).line

/-- Fail on a given line. -/
def failOn {α : Type} (line : Nat) : Reader α := throw ⟨line⟩

/-- Read a line break if one follows. -/
def lineBreak? : Reader Bool := do
  match ← remaining with
  | '\n' :: _ =>
    skip
    return true
  | '\r' :: '\n' :: _ =>
    skip
    skip
    return true
  | _ => return false

/-- Read a comment, up to the end of its line. -/
def comment : Reader Unit := do
  let _ ← takeWhile isPlain

/-- A line break or the end of the text has to follow. -/
def lineEnd : Reader Unit := do
  if !(← lineBreak?) && (← peek).isSome then fail

/-- Read what may follow a value or a header on its line. -/
def restOfLine : Reader Unit := do
  blanks
  if (← peek) == some '#' then comment
  lineEnd

/-- Skip blanks, comments and line breaks. `fuel` bounds the number of lines. -/
def gap : (fuel : Nat) → Reader Unit
  | 0 => fail
  | fuel + 1 => do
    blanks
    match ← peek with
    | some '#' =>
      comment
      if ← lineBreak? then gap fuel else fail
    | some '\n' | some '\r' => if ← lineBreak? then gap fuel else fail
    | _ => return

/-- Skip blanks, comments and line breaks. -/
def gaps : Reader Unit := do
  gap (← bound)

/-! ## Texts -/

/-- Read the digits of a code point. -/
def codePoint (count : Nat) : Reader Char := do
  let digits := (← remaining).take count
  let code := Scalar.natOf 16 digits
  if digits.length = count ∧ digits.all (Scalar.isDigitOf 16) ∧ code.isValidChar then
    let cursor ← get
    set (cursor.advance digits (cursor.rest.drop count))
    return Char.ofNat code
  else fail

/-- Read an escape after its backslash. -/
def escape : Reader Char := do
  match ← next with
  | some 'b' => return '\x08'
  | some 'f' => return '\x0c'
  | some 'n' => return '\n'
  | some 'r' => return '\r'
  | some 't' => return '\t'
  | some '"' => return '"'
  | some '\\' => return '\\'
  | some 'u' => codePoint 4
  | some 'U' => codePoint 8
  | _ => fail

/-- Read the rest of a one-line text with escapes, after its opening quote. -/
def escapedTail : (fuel : Nat) → Reader (List Char)
  | 0 => fail
  | fuel + 1 => do
    match ← peek with
    | some '"' =>
      skip
      return []
    | some '\\' =>
      skip
      let c ← escape
      return c :: (← escapedTail fuel)
    | some c =>
      if !isPlain c then fail
      skip
      return c :: (← escapedTail fuel)
    | none => fail

/-- Read the rest of a one-line text without escapes, after its opening quote. -/
def literalTail : Reader (List Char) := do
  let body ← takeWhile fun c => isPlain c && c != '\''
  if (← peek) == some '\'' then skip else fail
  return body

/-- Whether a backslash is followed by nothing but blanks up to a line break. -/
def continuesLine (rest : List Char) : Bool :=
  match rest.dropWhile isBlankChar with
  | '\n' :: _ => true
  | '\r' :: '\n' :: _ => true
  | _ => false

/-- Skip line breaks and blanks. -/
def skipLines : (fuel : Nat) → Reader Unit
  | 0 => return
  | fuel + 1 => do
    blanks
    if ← lineBreak? then skipLines fuel

/-- Read the rest of a text between tripled quotes. Up to two quotes may stand right before the
closing ones. -/
def tripledTail (quote : Char) (escapes : Bool) : (fuel : Nat) → Reader (List Char)
  | 0 => fail
  | fuel + 1 => do
    if ← lineBreak? then return '\n' :: (← tripledTail quote escapes fuel)
    match ← peek with
    | none => fail
    | some c =>
      if c == quote then
        let run := ((← remaining).takeWhile (· == quote)).length
        if 3 ≤ run then
          let count := min run 5
          let cursor ← get
          set (cursor.advance (cursor.rest.take count) (cursor.rest.drop count))
          return List.replicate (count - 3) quote
        skip
        return c :: (← tripledTail quote escapes fuel)
      else if escapes && c == '\\' then
        skip
        let rest ← remaining
        if continuesLine rest then
          skipLines (← bound)
          tripledTail quote escapes fuel
        else
          let c ← escape
          return c :: (← tripledTail quote escapes fuel)
      else
        if !isPlain c then fail
        skip
        return c :: (← tripledTail quote escapes fuel)

/-- Read a text between tripled quotes, after the first quote. A line break right after the opening
quotes is dropped. -/
def tripledText (quote : Char) (escapes : Bool) : Reader (List Char) := do
  skip
  skip
  let _ ← lineBreak?
  tripledTail quote escapes (← bound)

/-- Read a one-line text. -/
def oneLineText : Reader (List Char) := do
  match ← next with
  | some '"' => escapedTail (← bound)
  | _ => literalTail

/-- Read a text of any of the four forms. -/
def quotedText : Reader (List Char) := do
  match ← remaining with
  | '"' :: '"' :: '"' :: _ =>
    skip
    tripledText '"' true
  | '\'' :: '\'' :: '\'' :: _ =>
    skip
    tripledText '\'' false
  | _ => oneLineText

/-! ## Keys -/

/-- Characters of keys without quotes. -/
def isKeyChar (c : Char) : Bool := c.isAlphanum || c == '_' || c == '-'

/-- Read one key. -/
def simpleKey : Reader Key := do
  blanks
  let line ← currentLine
  let name ← match ← peek with
    | some '"' | some '\'' => oneLineText
    | _ => do
      let word ← takeWhile isKeyChar
      if word.isEmpty then fail
      pure word
  blanks
  return ⟨String.ofList name, line⟩

/-- Read the keys that follow dots. -/
def dottedKeys : (fuel : Nat) → Reader (List Key)
  | 0 => fail
  | fuel + 1 => do
    if (← peek) == some '.' then
      skip
      let key ← simpleKey
      return key :: (← dottedKeys fuel)
    else return []

/-- Read a dotted key: the keys on the way, and the last one. -/
def keyPath : Reader (List Key × Key) := do
  let first ← simpleKey
  let rest ← dottedKeys (← bound)
  if nesting ≤ rest.length + 1 then failOn first.line
  return match rest.getLast? with
    | some last => (first :: rest.dropLast, last)
    | none => ([], first)

/-! ## Values -/

/-- Read a scalar without quotes. A time may follow its date after a blank. -/
def word (line : Nat) : Reader Item := do
  let front ← takeWhile Scalar.isWordChar
  let cs ← match ← remaining with
    | ' ' :: c :: _ =>
      if Scalar.isDate front && c.isDigit then do
        skip
        pure (front ++ ' ' :: (← takeWhile Scalar.isWordChar))
      else pure front
    | _ => pure front
  match Scalar.word? cs with
  | some (.integer n) => return .integer line n
  | some (.float x) => return .float line x
  | some (.boolean b) => return .boolean line b
  | some (.moment s) => return .moment line s
  | none => fail

/-- Skip what may stand between an item of an array and the comma or bracket after it. A fault there
is blamed on the line of the item. -/
def gapsAfterItem (line : Nat) : Reader Unit :=
  tryCatch gaps fun _ => failOn line

/-- Read the items of an array, from a place where an item or the end may stand. -/
def arrayItems (value : Reader Item) : (fuel : Nat) → Reader (List Item)
  | 0 => fail
  | fuel + 1 => do
    gaps
    if (← peek) == some ']' then
      skip
      return []
    let line ← currentLine
    let item ← value
    gapsAfterItem line
    match ← next with
    | some ',' => return item :: (← arrayItems value fuel)
    | some ']' => return [item]
    | _ => fail

/-- Read one pair between braces. -/
def pair (value : Reader Item) : Reader (List Key × Key × Item) := do
  let (path, key) ← keyPath
  if (← peek) == some '=' then skip else fail
  blanks
  let item ← value
  blanks
  return (path, key, item)

/-- Read the pairs between braces that follow the first one. -/
def morePairs (value : Reader Item) : (fuel : Nat) → Reader (List (List Key × Key × Item))
  | 0 => fail
  | fuel + 1 => do
    if (← peek) == some ',' then
      skip
      let first ← pair value
      return first :: (← morePairs value fuel)
    else return []

/-- Read the pairs between braces. The closing brace is left unread. -/
def pairs (value : Reader Item) : Reader (List (List Key × Key × Item)) := do
  blanks
  if (← peek) == some '}' then return []
  let first ← pair value
  return first :: (← morePairs value (← bound))

/-- Read a value with room for `depth` open brackets, one of them spare. -/
def value : (depth : Nat) → Reader Item
  | 0 => fail
  | depth + 1 => do
    let line ← currentLine
    match ← peek with
    | some '"' | some '\'' => return .text line (String.ofList (← quotedText))
    | some '[' =>
      if depth = 0 then fail
      skip
      return .array line (← arrayItems (value depth) (← bound))
    | some '{' =>
      if depth = 0 then fail
      skip
      match Table.ofPairs line (← pairs (value depth)) with
      | some table =>
        if (← peek) == some '}' then skip else fail
        return table.toItem
      | none => failOn line
    | some _ => word line
    | none => fail

/-! ## Documents -/

/-- Read a key with its value. -/
def definition (builder : Builder) : Reader Builder := do
  let line ← currentLine
  let (path, key) ← keyPath
  if (← peek) == some '=' then skip else fail
  blanks
  let item ← value nesting
  restOfLine
  match builder.define path key item with
  | some defined => return defined
  | none => failOn line

/-- Read a header. -/
def header (builder : Builder) : Reader Builder := do
  let line ← currentLine
  skip
  let inArray := (← peek) == some '['
  if inArray then skip
  let (path, key) ← keyPath
  if (← peek) == some ']' then skip else fail
  if inArray then
    if (← peek) == some ']' then skip else fail
  restOfLine
  let started :=
    if inArray then builder.startElement line path key else builder.startTable line path key
  match started with
  | some started => return started
  | none => failOn line

/-- Read the lines of a document. `fuel` bounds their number. -/
def lines : (fuel : Nat) → Builder → Reader Builder
  | 0, _ => fail
  | fuel + 1, builder => do
    blanks
    match ← peek with
    | none => return builder
    | some '#' =>
      comment
      lineEnd
      lines fuel builder
    | some '[' => lines fuel (← header builder)
    | some '\n' | some '\r' => if ← lineBreak? then lines fuel builder else fail
    | some _ => lines fuel (← definition builder)

/-- Read a document, after an optional byte order mark. -/
def document : Reader Table := do
  if (← peek) == some '\ufeff' then skip
  let builder ← lines (← bound) {}
  match builder.finish? with
  | some table => return table
  | none => fail

/-- The table that a text holds. -/
def parse (text : String) : Except LineFault Table := document.run text

end SymbolTree.Toml.Reader
