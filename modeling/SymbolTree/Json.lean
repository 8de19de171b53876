import SymbolTree.Decimal.Layout
import SymbolTree.KeyMap

/-!
# Structured values

The values that records carry beyond their known fields, and the values that requests and rendered
documents are written in. An object lists its fields in the order in which they are written.
-/

namespace SymbolTree

/-- A number is an integer or a double-precision number; the two are never confused. -/
inductive Json.Number where
  | integer (value : Int)
  | float (value : Binary64)
deriving DecidableEq, Repr

/-- A structured value. -/
inductive Json where
  | null
  | bool (value : Bool)
  | number (value : Json.Number)
  | string (value : String)
  | array (items : List Json)
  | object (fields : List (String × Json))
deriving Repr, BEq, Inhabited

namespace Json

/-- The value of the first field with a name. -/
def field? : Json → String → Option Json
  | .object fields, name => fields.lookup name
  | _, _ => none

/-- An integer as a value. -/
def ofInt (n : Int) : Json := .number (.integer n)

/-- A natural number as a value. -/
def ofNat (n : Nat) : Json := ofInt n

/-- A text or null. -/
def ofText? : Option String → Json
  | some s => .string s
  | none => .null

/-- A list of texts. -/
def ofTexts (texts : List String) : Json := .array (texts.map .string)

/-- An object with sorted fields. -/
def ofMap (map : KeyMap Json) : Json := .object map.entries

end Json

end SymbolTree
