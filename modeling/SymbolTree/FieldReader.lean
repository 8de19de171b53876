import SymbolTree.Json

/-!
# Reading fields

Records and settings are read from several formats. What a format has to provide is how the value of
one field is read: a text, a flag, a line and so on.
-/

namespace SymbolTree

/-- The line with a number, which has to fit thirty-two bits. -/
def lineOfInt? (n : Int) : Option UInt32 :=
  if 0 ≤ n ∧ n < UInt32.size then some (UInt32.ofNat n.toNat) else none

/-- How a format reads the value of a field. -/
structure FieldReader (m : Type → Type) where
  /-- A text. -/
  text : m String
  /-- A truth value. -/
  flag : m Bool
  /-- A line number. -/
  line : m UInt32
  /-- A list of texts. -/
  texts : m (List String)
  /-- One of several named choices. -/
  choice : {α : Type} → (String → Option α) → m α
  /-- A value that may be absent. -/
  optional : {α : Type} → m α → m (Option α)
  /-- Any value. -/
  anything : m Json

namespace Json

/-- A text. -/
def text? : Json → Option String
  | .string s => some s
  | _ => none

/-- A truth value. -/
def flag? : Json → Option Bool
  | .bool b => some b
  | _ => none

/-- A line number: an integer of thirty-two bits. -/
def line? : Json → Option UInt32
  | .number (.integer n) => lineOfInt? n
  | _ => none

/-- A list of texts. -/
def texts? : Json → Option (List String)
  | .array items => items.mapM text?
  | _ => none

/-- One of several choices, given by its name or as the only field of an object, which is null. -/
def choice? {α : Type} (ofText? : String → Option α) : Json → Option α
  | .string s => ofText? s
  | .object [(name, .null)] => ofText? name
  | _ => none

/-- Null stands for an absent value. -/
def optional? {α : Type} (present : Option α) : Json → Option (Option α)
  | .null => some none
  | _ => present.map some

/-- Read a field from a structured value. -/
def fieldReader (value : Json) : FieldReader Option where
  text := value.text?
  flag := value.flag?
  line := value.line?
  texts := value.texts?
  choice ofText? := value.choice? ofText?
  optional present := value.optional? present
  anything := some value

end Json

end SymbolTree
