/-!
# Reading text with line numbers

A `Cursor` is the unread rest of a text together with the line it starts on. A reader consumes
characters from the front or fails with the line on which it noticed the fault. The number of
characters that are left is carried along, so that a loop over them has a bound at hand.
-/

namespace SymbolTree

/-- A text that cannot be read, and the line on which that was noticed. -/
structure LineFault where
  /-- Counted from one. -/
  line : Nat
deriving DecidableEq, Repr

/-- The unread rest of a text. -/
structure Cursor where
  /-- What is left to read. -/
  rest : List Char
  /-- One more than the number of line feeds read so far. -/
  line : Nat
  /-- The length of the rest. -/
  left : Nat

/-- A computation that reads from the front of a text. -/
abbrev Reader (α : Type) := StateT Cursor (Except LineFault) α

namespace Cursor

/-- The start of a text. -/
def ofText (text : String) : Cursor :=
  let chars := text.toList
  ⟨chars, 1, chars.length⟩

/-- The cursor after the characters `read` and before `rest`. -/
def advance (cursor : Cursor) (read rest : List Char) : Cursor :=
  ⟨rest, cursor.line + read.count '\n', cursor.left - read.length⟩

/-- Cut off the longest front whose characters all satisfy `p`. -/
def span (p : Char → Bool) (cursor : Cursor) : List Char × Cursor :=
  let front := cursor.rest.takeWhile p
  (front, cursor.advance front (cursor.rest.dropWhile p))

end Cursor

namespace Reader

/-- Fail on the current line. -/
def fail {α : Type} : Reader α := do
  throw ⟨(← get).line⟩

/-- Fail on the line that the next character ends on. -/
def failAtNext {α : Type} : Reader α := do
  let cursor ← get
  throw ⟨cursor.line + (cursor.rest.take 1).count '\n'⟩

/-- The next character, left unread. -/
def peek : Reader (Option Char) := do
  return (← get).rest.head?

/-- Read one character; nothing happens at the end. -/
def next : Reader (Option Char) := do
  let cursor ← get
  match cursor.rest with
  | [] => return none
  | c :: rest =>
    set (cursor.advance [c] rest)
    return some c

/-- More steps than any loop takes that reads a character in each step. -/
def bound : Reader Nat := do
  return (← get).left + 1

/-- Read one character and drop it. -/
def skip : Reader Unit := do
  let _ ← next

/-- Read the longest front whose characters all satisfy `p`. -/
def takeWhile (p : Char → Bool) : Reader (List Char) := do
  let (front, cursor) := (← get).span p
  set cursor
  return front

/-- Run a reader from the start of a text. -/
def run {α : Type} (reader : Reader α) (text : String) : Except LineFault α :=
  (StateT.run reader (Cursor.ofText text)).map (·.1)

end Reader

end SymbolTree
