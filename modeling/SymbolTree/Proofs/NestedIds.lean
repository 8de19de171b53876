import SymbolTree.Proofs.CanonicalOrder
import SymbolTree.Proofs.Names

/-!
# Nested ids in canonical order

A delimiter contributes U+0000 to a sort key, and no character comes before it. An id thus comes
before all ids nested under it, and whatever stands between it and one of them has its sort key, or
one that continues it with U+0000. Other spellings of the id and what is nested under them stand
there; nothing unrelated does.
-/

namespace SymbolTree

open Std

/-- An id is nested under another one if it consists of that one, a delimiter and any further
text. -/
def NestedUnder (owner id : String) : Prop :=
  ∃ mark rest, isDelimiter mark = true ∧ id.toList = owner.toList ++ mark :: rest

/-- The sort key of an id is that of another one, or continues it with U+0000. -/
def SortsUnder (owner id : String) : Prop :=
  sortKey id = sortKey owner ∨ sortKey owner ++ ['\x00'] <+: sortKey id

instance (owner id : String) : Decidable (SortsUnder owner id) :=
  inferInstanceAs <| Decidable <|
    sortKey id = sortKey owner ∨ sortKey owner ++ ['\x00'] <+: sortKey id

/-- What comes neither before a list nor after some continuation of it continues it. -/
theorem exists_append_of_isLE {α : Type} [Ord α] [TransOrd α] [LawfulEqOrd α]
    {common between rest : List α} (hfrom : (compare common between).isLE = true)
    (hto : (compare between (common ++ rest)).isLE = true) : ∃ more, between = common ++ more := by
  induction common generalizing between with
  | nil => exact ⟨between, rfl⟩
  | cons c common ih =>
    cases between with
    | nil => cases hfrom
    | cons d between =>
      rw [List.compare_cons_cons, Ordering.isLE_then_iff_and] at hfrom
      rw [List.cons_append, List.compare_cons_cons, Ordering.isLE_then_iff_and] at hto
      -- Neither of the first characters comes before the other.
      obtain rfl : c = d := LawfulEqOrd.eq_of_compare (OrientedCmp.isLE_antisymm hfrom.1 hto.1)
      have hself : compare c c ≠ .lt := by simp
      obtain ⟨more, rfl⟩ := ih (hfrom.2.resolve_left hself) (hto.2.resolve_left hself)
      exact ⟨more, rfl⟩

/-- A delimiter contributes U+0000. -/
theorem sortChars_of_isDelimiter {mark : Char} (hmark : isDelimiter mark = true) :
    sortChars mark = ['\x00'] := by
  simp only [isDelimiter, Bool.or_eq_true, beq_iff_eq] at hmark
  obtain (rfl | rfl) | rfl := hmark <;> decide +kernel

/-- The sort key of a nested id continues that of the id that it is nested under with U+0000. -/
theorem NestedUnder.exists_sortKey_eq {owner id : String} (h : NestedUnder owner id) :
    ∃ more, sortKey id = sortKey owner ++ '\x00' :: more := by
  obtain ⟨mark, rest, hmark, hid⟩ := h
  refine ⟨rest.flatMap sortChars, ?_⟩
  rw [sortKey, hid, List.flatMap_append, List.flatMap_cons, sortChars_of_isDelimiter hmark]
  rfl

/-- An id is nested under its structural parent. -/
theorem nestedUnder_of_parent? {id : String} {parent : QualifiedName}
    (hparent : (QualifiedName.parse id).parent? = some parent) : NestedUnder parent.text id := by
  obtain ⟨qualifier, segment, _, hchars⟩ := QualifiedName.chars_eq_of_parent? hparent
  refine ⟨qualifier.mark, segment.toList, by cases qualifier <;> rfl, ?_⟩
  rw [← QualifiedName.chars_parse, hchars, QualifiedName.text, String.toList_ofList]

/-- A text comes before those that it is a proper beginning of. -/
theorem compareIds_of_isPrefix {a b : String} (hbegins : a.toList <+: b.toList) (hne : a ≠ b) :
    compareIds a b = .lt := by
  obtain ⟨rest, hrest⟩ := hbegins
  obtain rfl : b = a ++ String.ofList rest := by
    rw [← String.toList_inj, String.toList_append, String.toList_ofList, hrest]
  refine compareIds_append_lt (fun hempty => hne ?_) a
  rw [hempty, String.append_empty]

/-- Ids in canonical order have their sort keys in order. -/
theorem isLE_compare_sortKey {a b : String} (h : (compareIds a b).isLE = true) :
    (compare (sortKey a) (sortKey b)).isLE = true :=
  (Ordering.isLE_then_iff_and.mp h).1

/-- Different sort keys decide between two ids. -/
theorem compareIds_of_compare_sortKey {a b : String} (h : compare (sortKey a) (sortKey b) = .lt) :
    compareIds a b = .lt := by
  rw [compareIds, h]
  rfl

/-- An id comes before those nested under it, and so do its other spellings. -/
theorem NestedUnder.compareIds_eq_lt {owner id nested : String} (h : NestedUnder owner nested)
    (hkey : sortKey id = sortKey owner) : compareIds id nested = .lt := by
  obtain ⟨more, hnested⟩ := h.exists_sortKey_eq
  refine compareIds_of_compare_sortKey ?_
  calc compare (sortKey id) (sortKey nested)
      _ = compare (sortKey owner ++ []) (sortKey owner ++ '\x00' :: more) := by
        rw [hkey, hnested, List.append_nil]
      _ = compare [] ('\x00' :: more) := compare_append_left ..
      _ = .lt := rfl

/-- All other characters come after U+0000. -/
theorem compare_nul_lt {c : Char} (hc : c ≠ '\x00') : compare '\x00' c = .lt := by
  have hval : c.val ≠ 0 := fun hzero => hc (Char.ext hzero)
  exact compareOfLessAndEq_eq_lt.mpr (Char.lt_def.mpr (UInt32.pos_iff_ne_zero.mpr hval))

/-- What stands between an id and one nested under it has the sort key of the id, or one that
continues it with U+0000. -/
theorem NestedUnder.sortsUnder_of_between {owner id nested : String} (h : NestedUnder owner nested)
    (hfrom : (compareIds owner id).isLE = true) (hto : (compareIds id nested).isLE = true) :
    SortsUnder owner id := by
  obtain ⟨rest, hnested⟩ := h.exists_sortKey_eq
  have hkey := isLE_compare_sortKey hto
  rw [hnested] at hkey
  obtain ⟨more, hid⟩ := exists_append_of_isLE (isLE_compare_sortKey hfrom) hkey
  rw [hid, compare_append_left] at hkey
  -- What continues the sort key of the owner does not come after U+0000 and more.
  cases more with
  | nil => exact .inl (hid.trans (List.append_nil _))
  | cons c more =>
    rw [List.compare_cons_cons, Ordering.isLE_then_iff_and] at hkey
    by_cases hc : c = '\x00'
    · subst hc
      exact .inr ⟨more, by rw [hid, List.append_assoc, List.singleton_append]⟩
    · have hgt : compare c '\x00' = .gt := OrientedCmp.gt_of_lt (compare_nul_lt hc)
      rw [hgt] at hkey
      cases hkey.1

/-- The greatest character. -/
def lastChar : Char := Char.ofNat 0x10ffff

/-- All other characters come before the greatest one. -/
theorem compare_lastChar_lt {c : Char} (hc : c ≠ lastChar) : compare c lastChar = .lt := by
  have hne : c.val.toNat ≠ 0x10ffff := fun hval => hc (Char.ext (UInt32.toNat_inj.mp hval))
  have hlt : c.val.toNat < 0x10ffff := by
    have hvalid := c.valid
    simp only [UInt32.isValidChar, Nat.isValidChar] at hvalid
    omega
  exact compareOfLessAndEq_eq_lt.mpr hlt

/-- Many of the greatest character come after any shorter list. -/
theorem compare_replicate_lastChar (chars : List Char) :
    compare chars (List.replicate (chars.length + 1) lastChar) = .lt := by
  induction chars with
  | nil => rfl
  | cons c rest ih =>
    rw [List.length_cons, List.replicate_succ, List.compare_cons_cons]
    by_cases hc : c = lastChar
    · have hself : compare c c = .eq := ReflCmp.compare_self
      rw [← hc, hself, Ordering.eq_then, hc, ih]
    · rw [compare_lastChar_lt hc]
      rfl

/-- The greatest character has no lower case. -/
theorem flatMap_sortChars_replicate_lastChar (n : Nat) :
    (List.replicate n lastChar).flatMap sortChars = List.replicate n lastChar := by
  have hchar : sortChars lastChar = [lastChar] := by decide +kernel
  induction n with
  | zero => rfl
  | succ n ih => rw [List.replicate_succ, List.flatMap_cons, hchar, ih, List.singleton_append]

/-- An id that has the sort key of another one, or one that continues it with U+0000, comes before
some id nested under that one. -/
theorem SortsUnder.exists_nested {owner id : String} (h : SortsUnder owner id) :
    ∃ nested, NestedUnder owner nested ∧ compareIds id nested = .lt := by
  have hnested (rest : String) : NestedUnder owner (owner ++ "." ++ rest) :=
    ⟨'.', rest.toList, rfl, by simp⟩
  rcases h with hkey | ⟨more, hmore⟩
  · exact ⟨_, hnested "", (hnested "").compareIds_eq_lt hkey⟩
  · let rest := List.replicate (more.length + 1) lastChar
    have hdot : sortKey "." = ['\x00'] := by decide +kernel
    have hrest : sortKey (String.ofList rest) = rest := by
      rw [sortKey, String.toList_ofList, flatMap_sortChars_replicate_lastChar]
    refine ⟨_, hnested (String.ofList rest), compareIds_of_compare_sortKey ?_⟩
    rw [sortKey_append, sortKey_append, hdot, hrest, ← hmore, compare_append_left]
    exact compare_replicate_lastChar more

/-- Wherever an item stands between two others after sorting, and the id of the last is nested under
that of the first, its id has the sort key of the first, or one that continues it with U+0000. -/
theorem sortsUnder_of_sublist {α : Type} {id : α → String} {items : List α} {first item last : α}
    (hsublist : [first, item, last].Sublist (sortByIds id items))
    (hnested : NestedUnder (id first) (id last)) : SortsUnder (id first) (id item) := by
  have hsorted := (pairwise_sortByIds id items).sublist hsublist
  obtain ⟨hfirst, hrest⟩ := List.pairwise_cons.mp hsorted
  exact hnested.sortsUnder_of_between (hfirst item List.mem_cons_self)
    (List.rel_of_pairwise_cons hrest List.mem_cons_self)

/-- Ids with one beginning compare by what follows it, and a text comes before those that it is a
proper beginning of, so every id comes after its structural parent. An id that comes after another
one comes before some id nested under that one exactly if its sort key is that of the other one or
continues it with U+0000. So nothing else can stand between an id and one nested under it, whatever
is sorted. -/
theorem compareIds_respects_nesting :
    (∀ common a b, compareIds (common ++ a) (common ++ b) = compareIds a b) ∧
      (∀ a b : String, a.toList <+: b.toList → a ≠ b → compareIds a b = .lt) ∧
      (∀ id parent, (QualifiedName.parse id).parent? = some parent →
        compareIds parent.text id = .lt) ∧
      (∀ owner id, compareIds owner id = .lt →
        ((∃ nested, NestedUnder owner nested ∧ compareIds id nested = .lt) ↔
          SortsUnder owner id)) ∧
      ∀ (α : Type) (id : α → String) (items : List α) (first item last : α),
        [first, item, last].Sublist (sortByIds id items) → NestedUnder (id first) (id last) →
          SortsUnder (id first) (id item) := by
  refine ⟨compareIds_append_left, fun a b => compareIds_of_isPrefix, fun id parent hparent =>
    (nestedUnder_of_parent? hparent).compareIds_eq_lt rfl, fun owner id hafter =>
    ⟨fun ⟨nested, hnested, hbefore⟩ => ?_, SortsUnder.exists_nested⟩,
    fun α id items first item last => sortsUnder_of_sublist⟩
  exact hnested.sortsUnder_of_between (Ordering.isLE_of_eq_lt hafter)
    (Ordering.isLE_of_eq_lt hbefore)

/-- An id, another spelling of it, what is nested under either, and an id that only begins like
them. -/
def idsAroundBox : List String := ["UI.Boxes", "UI.Box#size", "ui.box@drag", "ui.box", "UI.Box"]

/-- The other spelling and the event nested under it stand between the id and its property. The id
that only begins like them comes after all ids nested under them. -/
theorem compareIds_respects_nesting_of_idsAroundBox :
    sortByIds id idsAroundBox = ["UI.Box", "ui.box", "ui.box@drag", "UI.Box#size", "UI.Boxes"] ∧
      compareIds "UI.Box" "UI.Box#size" = .lt ∧ compareIds "UI.Box" "UI.Boxes" = .lt ∧
      SortsUnder "UI.Box" "ui.box" ∧ SortsUnder "UI.Box" "ui.box@drag" ∧
      ¬ ∃ nested, NestedUnder "UI.Box" nested ∧ compareIds "UI.Boxes" nested = .lt := by
  obtain ⟨_, hbegins, hparent, hbetween, hsort⟩ := compareIds_respects_nesting
  have hsorted : sortByIds id idsAroundBox =
      ["UI.Box", "ui.box", "ui.box@drag", "UI.Box#size", "UI.Boxes"] := by
    rw [sortByIds_eq_insertionSort]
    decide +kernel
  have hnested : NestedUnder "UI.Box" "UI.Box#size" := ⟨'#', "size".toList, rfl, by decide⟩
  have hboxes : compareIds "UI.Box" "UI.Boxes" = .lt :=
    hbegins "UI.Box" "UI.Boxes" (by decide) (by decide)
  have hstands (item : String)
      (hsublist : ["UI.Box", item, "UI.Box#size"].Sublist (sortByIds id idsAroundBox)) :
      SortsUnder "UI.Box" item := hsort String id _ _ item _ hsublist hnested
  refine ⟨hsorted, hparent "UI.Box#size" ⟨"UI", [(.static, "Box")]⟩ (by decide), hboxes,
    hstands "ui.box" (hsorted ▸ by decide), hstands "ui.box@drag" (hsorted ▸ by decide), ?_⟩
  exact mt (hbetween "UI.Box" "UI.Boxes" hboxes).mp (by decide +kernel)

end SymbolTree
