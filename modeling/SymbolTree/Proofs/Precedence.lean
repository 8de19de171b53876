import SymbolTree.Collection

/-!
# The order of precedences

Precedences compare by location, type name, description and summary, each of which is totally
preordered: different spellings of a path compare equal, and nothing else does. A clash therefore
has the same winner whatever the order of the competitors, up to equal precedence. Nothing that
competes with the root section is ahead of it.
-/

namespace SymbolTree

open Std

/-- Items that compare by an attribute inherit its order. -/
theorem transCmp_on {α β : Type} (cmp : β → β → Ordering) [TransCmp cmp] (view : α → β) :
    TransCmp fun a b => cmp (view a) (view b) where
  eq_swap := OrientedCmp.eq_swap
  isLE_trans hab hbc := TransCmp.isLE_trans hab hbc

/-- Components compare by rank, then by name. -/
instance : TransCmp PathComponent.compare :=
  inferInstanceAs <| TransCmp <|
    compareLex (compareOn PathComponent.rank) (compareOn fun component => component.name?.getD "")

namespace SourcePath

/-- Component lists compare lexicographically. -/
theorem compareComponents_eq : compareComponents = List.compareLex PathComponent.compare := by
  funext a b
  induction a generalizing b with
  | nil => cases b <;> rfl
  | cons x xs ih =>
    cases b with
    | nil => rfl
    | cons y ys => rw [compareComponents, ih, List.compareLex_cons_cons]

instance : TransCmp compareComponents :=
  compareComponents_eq ▸ inferInstanceAs (TransCmp (List.compareLex PathComponent.compare))

instance : TransCmp SourcePath.compare := transCmp_on compareComponents components

/-- Nothing comes before the empty list of components. -/
theorem compareComponents_nil_ne_lt (components : List PathComponent) :
    compareComponents components [] ≠ .lt := by
  cases components <;> simp [compareComponents]

end SourcePath

/-- Locations compare by file, then by line. -/
instance : TransCmp SourceLocation.compare :=
  have : TransCmp fun a b : SourceLocation => a.file.compare b.file := transCmp_on _ _
  inferInstanceAs <| TransCmp <|
    compareLex (fun a b : SourceLocation => a.file.compare b.file) (compareOn SourceLocation.line)

namespace Precedence

/-- Precedences compare by location, type name, description and summary, in this order. -/
instance : TransCmp Precedence.compare :=
  have : TransCmp fun a b : Precedence => a.location.compare b.location := transCmp_on _ _
  inferInstanceAs <| TransCmp <|
    compareLex (fun a b : Precedence => a.location.compare b.location) <|
      compareLex (compareOn Precedence.typeName) <|
        compareLex (compareOn Precedence.description) (compareOn Precedence.summary)

/-- Whoever is ahead does not come later. -/
theorem isLE_of_beats {a b : Precedence} (h : a.beats b = true) : (a.compare b).isLE = true := by
  rw [beats, beq_iff_eq] at h
  rw [h]
  rfl

/-- Whoever is not ahead does not come earlier. -/
theorem isLE_of_not_beats {a b : Precedence} (h : ¬ a.beats b = true) :
    (b.compare a).isLE = true := by
  rw [beats, beq_iff_eq] at h
  have hswap : b.compare a = (a.compare b).swap := OrientedCmp.eq_swap
  rw [hswap]
  cases hcompare : a.compare b <;> simp_all

end Precedence

namespace Collection

/-- Nothing sorts before the empty text. -/
private theorem compare_empty_ne_lt (text : String) : compare text "" ≠ .lt := by
  intro hlt
  have hbefore : text < "" := compareOfLessAndEq_eq_lt.mp hlt
  exact List.not_lt_nil _ hbefore

/-- A record that competes for the root's key is not ahead of the root. -/
theorem not_beats_root {record : Record} (hkey : record.key = "") :
    ¬ record.precedence.beats root.precedence = true := by
  have hkind : record.kind = .section := by
    unfold Record.key at hkey
    split at hkey
    · assumption
    · simp at hkey
  have hfile : root.file.components = [] := by decide
  rw [Precedence.beats, beq_iff_eq]
  intro hlt
  simp only [Precedence.compare, Record.precedence, SourceLocation.compare, Record.location,
    SourcePath.compare, hfile, Ordering.then_eq_lt] at hlt
  rcases hlt with (hlt | ⟨_, hlt⟩) | ⟨_, hlt | ⟨_, hlt | ⟨_, hlt⟩⟩⟩
  · exact SourcePath.compareComponents_nil_ne_lt _ hlt
  · have hbefore : record.line < 0 := compareOfLessAndEq_eq_lt.mp hlt
    simp at hbefore
  · rw [hkind] at hlt
    cases hlt
  · exact compare_empty_ne_lt _ hlt
  · exact compare_empty_ne_lt _ hlt

end Collection

end SymbolTree
