import SymbolTree.Json

/-!
# Writing structured values

Two forms of the same value: compact, without any white space between tokens, and indented, with
every item and every field on a line of its own, four spaces deeper than what holds it.
-/

namespace SymbolTree.Json

/-- Doubles are written with their shortest digits, positionally from `0.00001` up to sixteen digits
before the point, and with the sign of every exponent beyond. -/
def floatLayout : Decimal.Layout := ⟨16, 4, true⟩

/-- The characters of a number. Numbers outside the format are written as null. -/
def Number.chars : Number → List Char
  | .integer n => Decimal.integerChars n
  | .float x =>
    if x.isFinite then
      let magnitude := floatLayout.chars (Decimal.shortest x)
      if x.isNegative then '-' :: magnitude else magnitude
    else ['n', 'u', 'l', 'l']

/-- A hexadecimal digit in lower case. -/
def hexDigit (n : Nat) : Char := Nat.digitChar (n % 16)

/-- A character inside a quoted text. -/
def escapeChar (c : Char) : List Char :=
  if c = '"' then ['\\', '"']
  else if c = '\\' then ['\\', '\\']
  else if c = '\x08' then ['\\', 'b']
  else if c = '\x0c' then ['\\', 'f']
  else if c = '\n' then ['\\', 'n']
  else if c = '\r' then ['\\', 'r']
  else if c = '\t' then ['\\', 't']
  else if c.toNat < 0x20 then ['\\', 'u', '0', '0', hexDigit (c.toNat / 16), hexDigit c.toNat]
  else [c]

/-- A quoted text. -/
def quotedChars (s : String) : List Char := '"' :: s.toList.flatMap escapeChar ++ ['"']

mutual

/-- The compact form of a value. -/
def compactChars : Json → List Char
  | .null => ['n', 'u', 'l', 'l']
  | .bool true => ['t', 'r', 'u', 'e']
  | .bool false => ['f', 'a', 'l', 's', 'e']
  | .number n => n.chars
  | .string s => quotedChars s
  | .array items => '[' :: compactItems items ++ [']']
  | .object fields => '{' :: compactFields fields ++ ['}']

/-- The compact form of the items of an array. -/
def compactItems : List Json → List Char
  | [] => []
  | item :: rest =>
    match rest with
    | [] => compactChars item
    | _ :: _ => compactChars item ++ ',' :: compactItems rest

/-- The compact form of the fields of an object. -/
def compactFields : List (String × Json) → List Char
  | [] => []
  | (name, value) :: rest =>
    match rest with
    | [] => quotedChars name ++ ':' :: compactChars value
    | _ :: _ => quotedChars name ++ ':' :: compactChars value ++ ',' :: compactFields rest

end

/-- A line break followed by the indentation of a level. -/
def lineBreak (level : Nat) : List Char := '\n' :: List.replicate (4 * level) ' '

mutual

/-- The indented form of a value that stands at a level. -/
def indentedChars (level : Nat) : Json → List Char
  | .array [] => ['[', ']']
  | .array (item :: rest) =>
    '[' :: indentedItems (level + 1) (item :: rest) ++ lineBreak level ++ [']']
  | .object [] => ['{', '}']
  | .object (field :: rest) =>
    '{' :: indentedFields (level + 1) (field :: rest) ++ lineBreak level ++ ['}']
  | .null => ['n', 'u', 'l', 'l']
  | .bool true => ['t', 'r', 'u', 'e']
  | .bool false => ['f', 'a', 'l', 's', 'e']
  | .number n => n.chars
  | .string s => quotedChars s

/-- The indented form of the items of an array. -/
def indentedItems (level : Nat) : List Json → List Char
  | [] => []
  | item :: rest =>
    match rest with
    | [] => lineBreak level ++ indentedChars level item
    | _ :: _ => lineBreak level ++ indentedChars level item ++ ',' :: indentedItems level rest

/-- The indented form of the fields of an object. -/
def indentedFields (level : Nat) : List (String × Json) → List Char
  | [] => []
  | (name, value) :: rest =>
    let field := lineBreak level ++ quotedChars name ++ ':' :: ' ' :: indentedChars level value
    match rest with
    | [] => field
    | _ :: _ => field ++ ',' :: indentedFields level rest

end

/-- The compact text of a value. -/
def compact (value : Json) : String := String.ofList (compactChars value)

/-- The indented text of a value. -/
def indented (value : Json) : String := String.ofList (indentedChars 0 value)

end SymbolTree.Json
