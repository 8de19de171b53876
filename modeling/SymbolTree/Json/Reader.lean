import SymbolTree.Json
import SymbolTree.Cursor

/-!
# Reading structured values

A strict reader: no trailing commas, no raw control characters in texts, paired surrogates only, and
at most `nesting` levels of brackets. Integers that fit sixty-four bits stay integers; every other
number becomes a double, its significand and its power of ten being rounded one after the other.

The loops over items and fields are shared with readers of more specific shapes, so all of them
notice a fault at the same place.
-/

namespace SymbolTree.Json.Reader

open SymbolTree.Reader

/-- How many brackets may be open at once is one less than this. -/
def nesting : Nat := 128

/-- White space between tokens. -/
def isGap (c : Char) : Bool := c == ' ' || c == '\n' || c == '\t' || c == '\r'

/-- Skip white space and look at the token that follows. -/
def token : Reader (Option Char) := do
  let _ ← takeWhile isGap
  peek

/-- The rest of a keyword. -/
def keyword : List Char → Reader Unit
  | [] => pure ()
  | c :: rest => do
    if (← next) == some c then keyword rest else fail

/-! ## Numbers -/

/-- The value of a decimal digit. -/
def digitValue (c : Char) : Nat := c.toNat - '0'.toNat

/-- The largest significand that is kept exactly. -/
def maxSignificand : Nat := UInt64.size - 1

/-- Extend a significand by digits as long as it stays within bounds. The second component counts
the digits that were left over. -/
def extendSignificand (significand : Nat) : List Char → Nat × Nat
  | [] => (significand, 0)
  | c :: rest =>
    let extended := significand * 10 + digitValue c
    if extended ≤ maxSignificand then extendSignificand extended rest
    else (significand, rest.length + 1)

/-- The largest power of ten that a double can hold. -/
def maxPower : Nat := 308

/-- A power of ten as a double. -/
def powerOfTen (n : Nat) : Binary64 := Binary64.ofDecimal false 1 n

/-- Scale a magnitude by a power of ten, rounding after every step. Powers beyond the range of a
double are reached in several divisions, of which `steps` are allowed. -/
def scaleByTen : (steps : Nat) → Binary64 → Int → Option Binary64
  | 0, x, _ => some x
  | steps + 1, x, power =>
    if power.natAbs ≤ maxPower then
      if 0 ≤ power then x.mul? (powerOfTen power.natAbs) else x.div? (powerOfTen power.natAbs)
    else if x == Binary64.zero then some x
    else if 0 ≤ power then none
    else (x.div? (powerOfTen maxPower)).bind fun y => scaleByTen steps y (power + maxPower)

/-- The double `significand * 10 ^ power`; out of range is a fault. -/
def double (negative : Bool) (significand : Nat) (power : Int) : Reader Number := do
  match (Binary64.nearest? significand 1).bind fun x => scaleByTen 4 x power with
  | some x => return .float (x.withSign negative)
  | none => fail

/-- The largest exponent that is taken at its value. -/
def maxExponent : Nat := 0x7fffffff

/-- Read an exponent, the letter included. -/
def exponent (negative : Bool) (significand : Nat) (power : Int) : Reader Number := do
  skip
  let sign ← peek
  if sign == some '+' || sign == some '-' then skip
  match ← next with
  | none => fail
  | some first =>
    if !first.isDigit then fail
    let value := (← takeWhile Char.isDigit).foldl (fun n c => n * 10 + digitValue c)
      (digitValue first)
    if maxExponent < value then
      if significand ≠ 0 && sign != some '-' then fail
      return .float (Binary64.zero.withSign negative)
    double negative significand (if sign == some '-' then power - value else power + value)

/-- Read an exponent if one follows. -/
def optionalExponent (negative : Bool) (significand : Nat) (power : Int) : Reader Number := do
  match ← peek with
  | some 'e' | some 'E' => exponent negative significand power
  | _ => double negative significand power

/-- Read the digits after a point, the point included. -/
def decimals (negative : Bool) (significand : Nat) (power : Nat) : Reader Number := do
  skip
  let digits ← takeWhile Char.isDigit
  if digits.isEmpty then failAtNext
  let (extended, left) := extendSignificand significand digits
  optionalExponent negative extended ((power + left : Int) - digits.length)

/-- Read what follows the whole digits of a number. -/
def afterWhole (negative : Bool) (significand : Nat) (left : Nat) : Reader Number := do
  match ← peek with
  | some '.' => decimals negative significand left
  | some 'e' | some 'E' => exponent negative significand left
  | _ =>
    if left ≠ 0 then double negative significand left
    else if !negative then return .integer significand
    else if significand = 0 || 0x8000000000000000 < significand then double true significand 0
    else return .integer (-significand)

/-- Read a number from its first digit on. -/
def unsigned (negative : Bool) : Reader Number := do
  match ← next with
  | none => fail
  | some first =>
    if first == '0' then
      match ← peek with
      | some c => if c.isDigit then failAtNext else afterWhole negative 0 0
      | none => afterWhole negative 0 0
    else if first.isDigit then
      let (significand, left) := extendSignificand (digitValue first) (← takeWhile Char.isDigit)
      afterWhole negative significand left
    else fail

/-- Read a number. -/
def number : Reader Number := do
  if (← peek) == some '-' then
    skip
    unsigned true
  else unsigned false

/-! ## Texts -/

/-- The value of a hexadecimal digit. -/
def hexValue? (c : Char) : Option Nat :=
  if c.isDigit then some (c.toNat - '0'.toNat)
  else if 'a' ≤ c ∧ c ≤ 'f' then some (c.toNat - 'a'.toNat + 10)
  else if 'A' ≤ c ∧ c ≤ 'F' then some (c.toNat - 'A'.toNat + 10)
  else none

/-- Cut off characters until `size` bytes of UTF-8 are covered; `none` if the text is too short. -/
def cutBytes : (size : Nat) → List Char → Option (List Char × List Char)
  | 0, cs => some ([], cs)
  | _ + 1, [] => none
  | size + 1, c :: rest =>
    (cutBytes (size + 1 - c.utf8Size) rest).map fun (front, tail) => (c :: front, tail)
termination_by _ cs => cs.length

/-- Read the four hexadecimal digits of an escape. -/
def fourDigits : Reader Nat := do
  let cursor ← get
  match cutBytes 4 cursor.rest with
  | none =>
    set (cursor.advance cursor.rest [])
    fail
  | some (front, rest) =>
    set (cursor.advance front rest)
    match front.mapM hexValue? with
    | some [a, b, c, d] => return ((a * 16 + b) * 16 + c) * 16 + d
    | _ => fail

/-- Read the escape that pairs with a leading surrogate, and give the character of the pair. -/
def surrogatePair (leading : Nat) : Reader Char := do
  if (← next) != some '\\' then fail
  if (← next) != some 'u' then fail
  let trailing ← fourDigits
  if 0xdc00 ≤ trailing && trailing ≤ 0xdfff then
    return Char.ofNat (0x10000 + (leading - 0xd800) * 0x400 + (trailing - 0xdc00))
  else fail

/-- Read a `\u` escape after its letter. -/
def unicodeEscape : Reader Char := do
  let code ← fourDigits
  if 0xdc00 ≤ code && code ≤ 0xdfff then fail
  else if 0xd800 ≤ code && code ≤ 0xdbff then surrogatePair code
  else return Char.ofNat code

/-- Read an escape after its backslash. -/
def escape : Reader Char := do
  match ← next with
  | some '"' => return '"'
  | some '\\' => return '\\'
  | some '/' => return '/'
  | some 'b' => return '\x08'
  | some 'f' => return '\x0c'
  | some 'n' => return '\n'
  | some 'r' => return '\r'
  | some 't' => return '\t'
  | some 'u' => unicodeEscape
  | _ => fail

/-- Read the rest of a text after its opening quote. `fuel` bounds the number of characters. -/
def textTail : (fuel : Nat) → Reader (List Char)
  | 0 => fail
  | fuel + 1 => do
    match ← next with
    | none => fail
    | some '"' => return []
    | some '\\' =>
      let c ← escape
      return c :: (← textTail fuel)
    | some c =>
      if c.toNat < 0x20 then fail
      return c :: (← textTail fuel)

/-- Read a text that starts with the next character, a quote. -/
def quotedText : Reader String := do
  skip
  return String.ofList (← textTail (← bound))

/-! ## Arrays and objects -/

/-- Move to the next item of an array; `false` at its end, which is left unread. -/
def atItem (first : Bool) : Reader Bool := do
  match ← token with
  | some ']' => return false
  | some ',' =>
    if first then return true
    skip
    match ← token with
    | some ']' | none => failAtNext
    | some _ => return true
  | some _ => if first then return true else failAtNext
  | none => failAtNext

/-- Read the items of an array, up to its end. `fuel` bounds their number. -/
def itemsFrom {α : Type} (item : Reader α) : (fuel : Nat) → (first : Bool) → Reader (List α)
  | 0, _ => fail
  | fuel + 1, first => do
    if ← atItem first then
      let x ← item
      return x :: (← itemsFrom item fuel false)
    else return []

/-- Read an array that starts with the next character. -/
def items {α : Type} (item : Reader α) : Reader (List α) := do
  skip
  let result ← itemsFrom item (← bound) true
  skip
  return result

/-- Move to the next key of an object; `false` at its end, which is left unread. -/
def atKey (first : Bool) : Reader Bool := do
  match ← token with
  | some '}' => return false
  | some ',' =>
    if first then failAtNext
    skip
    match ← token with
    | some '"' => return true
    | _ => failAtNext
  | some c => if first && c == '"' then return true else failAtNext
  | none => failAtNext

/-- Read the fields of an object, up to its end. Each field is folded into a state by `member`, which
starts reading right after the key. `fuel` bounds the number of fields. -/
def fieldsFrom {σ : Type} (member : String → σ → Reader σ) :
    (fuel : Nat) → (first : Bool) → σ → Reader σ
  | 0, _, _ => fail
  | fuel + 1, first, state => do
    if ← atKey first then
      let key ← quotedText
      fieldsFrom member fuel false (← member key state)
    else return state

/-- Read an object that starts with the next character. -/
def fields {σ : Type} (member : String → σ → Reader σ) (initial : σ) : Reader σ := do
  skip
  let result ← fieldsFrom member (← bound) true initial
  skip
  return result

/-- Read the colon between a key and its value. -/
def colon : Reader Unit := do
  if (← token) == some ':' then skip else failAtNext

/-- Read any value with room for `depth` open brackets, one of them spare. An object keeps its keys
sorted, and of a repeated key the last value. -/
def value : (depth : Nat) → Reader Json
  | 0 => failAtNext
  | depth + 1 => do
    match ← token with
    | none => failAtNext
    | some c =>
      if c == 'n' then
        skip; keyword ['u', 'l', 'l']; return .null
      else if c == 't' then
        skip; keyword ['r', 'u', 'e']; return .bool true
      else if c == 'f' then
        skip; keyword ['a', 'l', 's', 'e']; return .bool false
      else if c == '-' || c.isDigit then return .number (← number)
      else if c == '"' then return .string (← quotedText)
      else if c == '[' then
        if depth = 0 then failAtNext
        return .array (← items (value depth))
      else if c == '{' then
        if depth = 0 then failAtNext
        let member (key : String) (seen : List (String × Json)) : Reader (List (String × Json)) := do
          colon
          return insertEntry key (← value depth) seen
        return .object (← fields member [])
      else failAtNext

/-- Nothing but white space may follow. -/
def ending : Reader Unit := do
  if (← token).isSome then failAtNext

/-- Read a text that holds one value. -/
def parse (text : String) : Except LineFault Json :=
  Reader.run (do let result ← value nesting; ending; return result) text

end SymbolTree.Json.Reader
