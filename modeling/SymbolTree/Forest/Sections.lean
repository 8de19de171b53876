import SymbolTree.Forest

/-!
# Guessing sections

A record without a section is moved to the section of a namesake: the first key, in canonical order,
that has a section and the same second segment donates its section. When two sections hold symbols of
one name, the section that sorts first receives every record of that name.
-/

namespace SymbolTree.Forest

/-- The keys other than the root's, in canonical order. -/
def sortedKeys (forest : Forest) : List String :=
  sortByIds id (forest.keys.keys.filter (· ≠ ""))

/-- The section of the first key that has one and whose second segment is `entity`. -/
def donor? (names : List QualifiedName) (entity : String) : Option String :=
  (names.find? fun name => name.head ≠ "" ∧ name.second? = some entity).map (·.head)

/-- The name under which a key without a section is filed instead. -/
def guess? (names : List QualifiedName) (name : QualifiedName) : Option QualifiedName :=
  if name.head = "" then
    (name.second?.bind (donor? names)).map name.withHead
  else none

/-- Move the node of one key to another key, settling a clash with the present holder. -/
def rekey (forest : Forest) (oldKey newKey : String) : Forest :=
  match forest.keys.get? oldKey with
  | none => forest
  | some moving =>
    let freed := { forest with keys := forest.keys.erase oldKey }
    match freed.keys.get? newKey with
    | none => { freed with keys := freed.keys.insert newKey moving }
    | some holder =>
      let (winner, settled) := freed.settleClash newKey holder moving
      { settled with keys := settled.keys.insert newKey winner }

/-- Guess the section of one key. -/
def assignSection (names : List QualifiedName) (forest : Forest) (key : String) : Forest :=
  match guess? names (QualifiedName.parse key) with
  | none => forest
  | some name => forest.rekey key name.text

/-- Guess the section of every key of a list that has none. Earlier keys donate first. -/
def assignSectionsAlong (forest : Forest) (keys : List String) : Forest :=
  keys.foldl (assignSection (keys.map QualifiedName.parse)) forest

/-- Section 4.2, `assign_sections`: guess the section of every key that has none. -/
def assignSections (forest : Forest) : Forest := forest.assignSectionsAlong forest.sortedKeys

end SymbolTree.Forest
