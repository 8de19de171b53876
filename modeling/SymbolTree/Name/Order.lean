import SymbolTree.Text.LowerCase

/-!
# The canonical order of ids

Ids compare by their sort keys, in which letters are lower-cased one by one and every delimiter
becomes U+0000. A delimiter thus sorts below any other character, so an id comes before the ids
nested under it and nothing unrelated comes between them. Ids that share a sort key compare as texts,
which makes the order total.
-/

namespace SymbolTree

/-- What one character contributes to a sort key. -/
def sortChars (c : Char) : List Char :=
  (Text.lowerChar c).map fun l => if l = '.' ∨ l = '#' ∨ l = '@' then '\x00' else l

/-- Section 5, `sort_key`: the sort key of an id. -/
def sortKey (id : String) : List Char := id.toList.flatMap sortChars

/-- Section 5, `compare_ids`: the canonical order of ids. -/
def compareIds (a b : String) : Ordering :=
  (compare (sortKey a) (sortKey b)).then (compare a b)

/-- Sort by an id in canonical order; items with one id keep their order. -/
def sortByIds {α : Type} (id : α → String) (items : List α) : List α :=
  items.mergeSort fun a b => (compareIds (id a) (id b)).isLE

end SymbolTree
