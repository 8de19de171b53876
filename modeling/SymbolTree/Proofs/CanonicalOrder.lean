import SymbolTree.Name.Order
import Mathlib.Data.List.Pairwise
import Mathlib.Data.List.Nodup
import Mathlib.Data.List.Sort

/-!
# The canonical order is total and ignores common beginnings

Ids compare by their sort keys and then as texts, so the order is total and equal ids are one id.
Sort keys are made character by character. A text that two ids begin with makes the same beginning of
both sort keys, and comparing them depends on what follows.
-/

namespace SymbolTree

open Std

/-- Ids compare by their sort keys, then as texts. -/
instance : TransCmp compareIds :=
  inferInstanceAs <| TransCmp <| compareLex (compareOn sortKey) (compare : String → String → Ordering)

/-- Ids that compare equal are one id. -/
theorem eq_of_compareIds_eq {a b : String} (h : compareIds a b = .eq) : a = b := by
  rw [compareIds, Ordering.then_eq_eq] at h
  exact LawfulEqCmp.eq_of_compare h.2

/-- Sort keys are made character by character. -/
theorem sortKey_append (a b : String) : sortKey (a ++ b) = sortKey a ++ sortKey b := by
  rw [sortKey, String.toList_append, List.flatMap_append]
  rfl

/-- Lists with one beginning compare by what follows it. -/
theorem compare_append_left {α : Type} [Ord α] [ReflOrd α] (common a b : List α) :
    compare (common ++ a) (common ++ b) = compare a b := by
  induction common with
  | nil => rfl
  | cons c common ih =>
    have hsame : compare c c = .eq := ReflCmp.compare_self
    rw [List.cons_append, List.cons_append, List.compare_cons_cons, hsame, Ordering.eq_then, ih]

/-- Texts with one beginning are ordered by what follows it. -/
private theorem append_lt_append_left_iff (common a b : String) :
    common ++ a < common ++ b ↔ a < b := by
  simp only [String.lt_iff, String.toList_append]
  induction common.toList with
  | nil => rfl
  | cons c rest ih => rw [List.cons_append, List.cons_append, List.cons_lt_cons_self, ih]

/-- Texts with one beginning compare by what follows it. -/
private theorem compare_text_append_left (common a b : String) :
    compare (common ++ a) (common ++ b) = compare a b := by
  have hunfold (x y : String) : compare x y = compareOfLessAndEq x y := rfl
  simp only [hunfold, compareOfLessAndEq, append_lt_append_left_iff, String.append_right_inj]

/-- Ids with one beginning compare by what follows it. -/
theorem compareIds_append_left (common a b : String) :
    compareIds (common ++ a) (common ++ b) = compareIds a b := by
  rw [compareIds, sortKey_append, sortKey_append, compare_append_left, compare_text_append_left]
  rfl

/-- The empty id comes before all others. -/
theorem compareIds_empty_lt {id : String} (hid : id ≠ "") : compareIds "" id = .lt := by
  have htext : compare "" id = .lt := by
    refine compareOfLessAndEq_eq_lt.mpr (String.lt_iff.mpr ?_)
    cases hchars : id.toList with
    | nil => exact absurd (String.toList_eq_nil_iff.mp hchars) hid
    | cons c rest => exact List.nil_lt_cons c rest
  have hempty : sortKey "" = [] := rfl
  rw [compareIds, hempty]
  cases sortKey id with
  | nil => exact htext
  | cons c rest => rfl

/-- An id comes before those that continue it. -/
theorem compareIds_append_lt {rest : String} (hrest : rest ≠ "") (id : String) :
    compareIds id (id ++ rest) = .lt := by
  have happend := compareIds_append_left id "" rest
  rwa [String.append_empty, compareIds_empty_lt hrest] at happend

/-- Of two ids one comes first. -/
private theorem compareIds_isLE_total (a b : String) :
    ((compareIds a b).isLE || (compareIds b a).isLE) = true := by
  have hswap : compareIds b a = (compareIds a b).swap := OrientedCmp.eq_swap
  rw [hswap]
  cases compareIds a b <;> rfl

/-- A sorted list stands in canonical order. -/
theorem pairwise_sortByIds {α : Type} (id : α → String) (items : List α) :
    (sortByIds id items).Pairwise fun a b => (compareIds (id a) (id b)).isLE = true :=
  List.pairwise_mergeSort (fun a b _ (hab : (compareIds (id a) (id b)).isLE = true) hbc =>
    TransCmp.isLE_trans hab hbc) (fun a b => compareIds_isLE_total (id a) (id b)) items

/-- Sorting is stable: items with one id keep their order. -/
theorem filter_sortByIds {α : Type} (id : α → String) (items : List α) (key : String) :
    (sortByIds id items).filter (fun item => decide (id item = key)) =
      items.filter fun item => decide (id item = key) := by
  let same (item : α) : Bool := decide (id item = key)
  have hequal : (items.filter same).Pairwise fun a b =>
      (compareIds (id a) (id b)).isLE = true := by
    refine List.pairwise_of_forall_mem_list fun a ha b hb => ?_
    have ha : id a = key := by simpa [same] using (List.mem_filter.mp ha).2
    have hb : id b = key := by simpa [same] using (List.mem_filter.mp hb).2
    have hself : compareIds key key = .eq := ReflCmp.compare_self
    rw [ha, hb, hself]
    rfl
  have hsub : (items.filter same).Sublist (sortByIds id items) :=
    List.sublist_mergeSort (fun a b _ (hab : (compareIds (id a) (id b)).isLE = true) hbc =>
      TransCmp.isLE_trans hab hbc) (fun a b => compareIds_isLE_total (id a) (id b)) hequal
      List.filter_sublist
  have hfiltered := hsub.filter same
  rw [List.filter_filter] at hfiltered
  simp only [Bool.and_self] at hfiltered
  have hperm : ((sortByIds id items).filter same).Perm (items.filter same) :=
    (List.mergeSort_perm items _).filter same
  exact (hfiltered.eq_of_length hperm.length_eq.symm).symm

/-- Sorting is inserting one item after another, also where different items compare equal. -/
theorem mergeSort_eq_insertionSort {α : Type} {le : α → α → Bool}
    (htrans : ∀ a b c, le a b = true → le b c = true → le a c = true)
    (htotal : ∀ a b, (le a b || le b a) = true) (items : List α) :
    items.mergeSort le = items.insertionSort fun a b => le a b = true := by
  induction items with
  | nil => exact List.mergeSort_nil
  | cons item items ih =>
    obtain ⟨before, after, hmerged, hrest, hbefore⟩ := List.mergeSort_cons htrans htotal item items
    have hafter : ∀ b ∈ after, le item b = true := by
      have hsorted := List.pairwise_mergeSort htrans htotal (item :: items)
      rw [hmerged, List.pairwise_append] at hsorted
      exact (List.pairwise_cons.mp hsorted.2.1).1
    rw [List.insertionSort_cons, ← ih, hrest, hmerged]
    -- the item goes right behind those that come strictly before it
    clear hmerged hrest ih
    induction before with
    | nil =>
      cases after with
      | nil => rfl
      | cons next after => simp [hafter next]
    | cons first before ih =>
      have hfirst : ¬ le item first = true := by simpa using hbefore first List.mem_cons_self
      rw [List.cons_append, List.cons_append, List.orderedInsert_cons, if_neg hfirst,
        ← ih fun b hb => hbefore b (List.mem_cons_of_mem _ hb)]

/-- Sorting by ids is inserting one item after another. -/
theorem sortByIds_eq_insertionSort {α : Type} (id : α → String) (items : List α) :
    sortByIds id items =
      items.insertionSort fun a b => (compareIds (id a) (id b)).isLE = true :=
  mergeSort_eq_insertionSort (fun a b _ (hab : (compareIds (id a) (id b)).isLE = true) hbc =>
    TransCmp.isLE_trans hab hbc) (fun a b => compareIds_isLE_total (id a) (id b)) items

/-- In canonical order no item comes before the first one. -/
private theorem isLE_first {α : Type} {id : α → String} {first item : α} {items : List α}
    (hsorted : (first :: items).Pairwise fun a b => (compareIds (id a) (id b)).isLE = true)
    (hitem : item ∈ first :: items) : (compareIds (id first) (id item)).isLE = true := by
  rcases List.mem_cons.mp hitem with rfl | hlater
  · have hself : compareIds (id item) (id item) = .eq := ReflCmp.compare_self
    rw [hself]
    rfl
  · exact List.rel_of_pairwise_cons hsorted hlater

/-- Lists with the same items for each id have the same items. -/
private theorem mem_iff_of_filter_eq {α : Type} {id : α → String} {items others : List α}
    (hsame : ∀ key, items.filter (fun item => decide (id item = key)) =
      others.filter fun item => decide (id item = key)) (item : α) :
    item ∈ items ↔ item ∈ others := by
  simpa using congrArg (item ∈ ·) (hsame (id item))

/-- Lists in canonical order are equal if for each id they have the same items in the same order. -/
theorem eq_of_filter_eq {α : Type} (id : α → String) {items others : List α}
    (hitems : items.Pairwise fun a b => (compareIds (id a) (id b)).isLE = true)
    (hothers : others.Pairwise fun a b => (compareIds (id a) (id b)).isLE = true)
    (hsame : ∀ key, items.filter (fun item => decide (id item = key)) =
      others.filter fun item => decide (id item = key)) : items = others := by
  have hmem := mem_iff_of_filter_eq hsame
  induction items generalizing others with
  | nil => exact (List.eq_nil_iff_forall_not_mem.mpr fun item => by simp [← hmem]).symm
  | cons first items ih =>
    cases others with
    | nil => cases (hmem first).mp List.mem_cons_self
    | cons other others =>
      -- Neither first item comes before the other, so they have one id, and then both are the
      -- first item with this id.
      have hids : id first = id other := by
        refine eq_of_compareIds_eq (OrientedCmp.isLE_antisymm ?_ ?_)
        · exact isLE_first hitems ((hmem other).mpr List.mem_cons_self)
        · exact isLE_first hothers ((hmem first).mp List.mem_cons_self)
      have hfirst := hsame (id first)
      simp only [List.filter_cons, hids, decide_true, if_true, List.cons.injEq] at hfirst
      obtain rfl := hfirst.1
      have hrest (key : String) : items.filter (fun item => decide (id item = key)) =
          others.filter fun item => decide (id item = key) := by
        have hkey := hsame key
        rw [List.filter_cons, List.filter_cons] at hkey
        split at hkey
        · exact List.tail_eq_of_cons_eq hkey
        · exact hkey
      rw [ih hitems.of_cons hothers.of_cons hrest (mem_iff_of_filter_eq hrest)]

/-- Where no two items share an id, canonical order is strict. -/
theorem pairwise_lt_of_nodup {α : Type} (id : α → String) {items : List α}
    (hsorted : items.Pairwise fun a b => (compareIds (id a) (id b)).isLE = true)
    (hnodup : (items.map id).Nodup) :
    items.Pairwise fun a b => compareIds (id a) (id b) = .lt := by
  refine hsorted.imp₂ (fun a b hle hne => ?_) (List.pairwise_map.mp hnodup)
  cases hcompare : compareIds (id a) (id b) with
  | lt => rfl
  | eq => exact absurd (eq_of_compareIds_eq hcompare) hne
  | gt =>
    rw [hcompare] at hle
    cases hle

/-- In strict canonical order no two items share an id. -/
theorem nodup_of_pairwise_lt {α : Type} {id : α → String} {items : List α}
    (hsorted : items.Pairwise fun a b => compareIds (id a) (id b) = .lt) :
    (items.map id).Nodup := by
  refine List.pairwise_map.mpr (hsorted.imp fun {a b} hlt heq => ?_)
  have hsame : compareIds (id b) (id b) = .eq := ReflCmp.compare_self
  rw [heq, hsame] at hlt
  cases hlt

/-- Among sorted texts, the first one with a property comes before all others with it. -/
theorem find?_sortByIds_iff {texts : List String} {property : String → Bool} {text : String} :
    (sortByIds id texts).find? property = some text ↔
      text ∈ texts ∧ property text = true ∧
        ∀ other ∈ texts, property other = true → (compareIds text other).isLE = true := by
  have hmem (other : String) : other ∈ sortByIds id texts ↔ other ∈ texts :=
    (List.mergeSort_perm _ _).mem_iff
  have hfound {found : String} (h : (sortByIds id texts).find? property = some found) :
      found ∈ texts ∧ property found = true ∧
        ∀ other ∈ texts, property other = true → (compareIds found other).isLE = true := by
    obtain ⟨hproperty, before, after, hsplit, hbefore⟩ := List.find?_eq_some_iff_append.mp h
    have hsorted := pairwise_sortByIds id texts
    rw [hsplit] at hsorted
    refine ⟨(hmem found).mp (by simp [hsplit]), hproperty, fun other hother hholds => ?_⟩
    rcases List.mem_append.mp (hsplit ▸ (hmem other).mpr hother) with hother | hother
    · have hnot := hbefore other hother
      rw [hholds] at hnot
      cases hnot
    · rcases List.mem_cons.mp hother with rfl | hother
      · exact Std.ReflCmp.isLE_rfl
      · exact List.rel_of_pairwise_cons (List.pairwise_append.mp hsorted).2.1 hother
  refine ⟨hfound, fun ⟨htext, hproperty, hleast⟩ => ?_⟩
  cases hfind : (sortByIds id texts).find? property with
  | none =>
    exact absurd hproperty (List.find?_eq_none.mp hfind text ((hmem text).mpr htext))
  | some found =>
    obtain ⟨hother, hholds, hfirst⟩ := hfound hfind
    rw [eq_of_compareIds_eq (Std.OrientedCmp.isLE_antisymm (hfirst text htext hproperty)
      (hleast found hother hholds))]

end SymbolTree
