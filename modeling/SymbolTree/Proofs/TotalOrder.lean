import SymbolTree.Proofs.CanonicalOrder

/-!
# The canonical order is strict and decides every sort

Sort keys lose case and tell no delimiter from another, so ids with one sort key are compared as
texts. This is a comparison of their bytes: the first byte of a character grows with the number of
its bytes, and among characters of one length the digits to the base 64 stand in the bytes from the
highest on. No two ids compare equal, and items with distinct ids can be sorted in one way only.
-/

namespace SymbolTree

open Std

/-- The bytes of a text in UTF-8. -/
def utf8Bytes (text : String) : List UInt8 := text.toByteArray.data.toList

/-- The bytes of a text are those of its characters. -/
theorem utf8Bytes_eq (text : String) :
    utf8Bytes text = text.toList.flatMap String.utf8EncodeChar := by
  rw [utf8Bytes, ← String.utf8Encode_toList, List.utf8Encode, List.toList_data_toByteArray]

section Bytes

/-- Bytes compare as numbers, and later ones count if the first are the same. -/
private theorem compare_ofNat_cons_lt_iff {m n : Nat} (hm : m < 256) (hn : n < 256)
    (x y : List UInt8) :
    compare (UInt8.ofNat m :: x) (UInt8.ofNat n :: y) = .lt ↔
      m < n ∨ m = n ∧ compare x y = .lt := by
  rw [List.compare_cons_cons, Ordering.then_eq_lt, compare_eq_lt,
    LawfulEqOrd.compare_eq_iff_eq, UInt8.ofNat_lt_iff_lt hm hn, ← UInt8.toNat_inj,
    UInt8.toNat_ofNat_of_lt' hm, UInt8.toNat_ofNat_of_lt' hn]

/-- The last digit to the base 64 counts if the others are the same. -/
private theorem div_lt_or_mod_lt {m n : Nat} (h : m < n) :
    m / 64 < n / 64 ∨ m / 64 = n / 64 ∧ m % 64 < n % 64 := by omega

/-- A smaller character has smaller bytes, whatever follows. -/
theorem compare_utf8EncodeChar_append {c d : Char} (h : c < d) (x y : List UInt8) :
    compare (String.utf8EncodeChar c ++ x) (String.utf8EncodeChar d ++ y) = .lt := by
  have hlt : c.val.toNat < d.val.toNat := h
  have hbound : d.val.toNat < 1114112 := by
    have hvalid := d.valid
    simp only [UInt32.isValidChar, Nat.isValidChar] at hvalid
    omega
  unfold String.utf8EncodeChar
  generalize c.val.toNat = m at *
  generalize d.val.toNat = n at *
  clear h
  -- The numbers differ in one of their digits, and those above it are the same.
  have hlowest := div_lt_or_mod_lt hlt
  have hmiddle (h : m / 64 < n / 64) :
      m / 4096 < n / 4096 ∨ m / 4096 = n / 4096 ∧ m / 64 % 64 < n / 64 % 64 := by
    simpa only [Nat.div_div_eq_div_mul] using div_lt_or_mod_lt h
  have hhighest (h : m / 4096 < n / 4096) :
      m / 262144 < n / 262144 ∨ m / 262144 = n / 262144 ∧ m / 4096 % 64 < n / 4096 % 64 := by
    simpa only [Nat.div_div_eq_div_mul] using div_lt_or_mod_lt h
  -- One case for each two lengths. The first bytes decide between different lengths, and the digits
  -- between bytes of one length.
  simp only
  split_ifs <;>
    simp (disch := omega) only [List.cons_append, List.nil_append, compare_ofNat_cons_lt_iff,
      Nat.mod_eq_of_lt] <;>
    omega

/-- Some byte belongs to every character. -/
private theorem compare_nil_utf8EncodeChar_append (c : Char) (x : List UInt8) :
    compare [] (String.utf8EncodeChar c ++ x) = .lt := by
  unfold String.utf8EncodeChar
  simp only
  split_ifs <;> rfl

/-- Smaller characters have smaller bytes. -/
private theorem compare_flatMap_utf8EncodeChar {a b : List Char} (h : a < b) :
    compare (a.flatMap String.utf8EncodeChar) (b.flatMap String.utf8EncodeChar) = .lt := by
  induction h with
  | nil => exact compare_nil_utf8EncodeChar_append ..
  | rel hlt => exact compare_utf8EncodeChar_append hlt ..
  | cons _ ih => exact (compare_append_left ..).trans ih

/-- A smaller text has smaller bytes. -/
theorem compare_utf8Bytes_of_lt {a b : String} (h : a < b) :
    compare (utf8Bytes a) (utf8Bytes b) = .lt := by
  rw [utf8Bytes_eq, utf8Bytes_eq]
  exact compare_flatMap_utf8EncodeChar (String.lt_iff.mp h)

/-- Texts compare like their bytes. -/
theorem compare_eq_compare_utf8Bytes (a b : String) :
    compare a b = compare (utf8Bytes a) (utf8Bytes b) := by
  have hless {x y : String} (h : compare x y = .lt) : compare (utf8Bytes x) (utf8Bytes y) = .lt :=
    compare_utf8Bytes_of_lt (compareOfLessAndEq_eq_lt.mp h)
  cases h : compare a b with
  | lt => exact (hless h).symm
  | eq =>
    obtain rfl := LawfulEqCmp.eq_of_compare h
    exact ReflCmp.compare_self.symm
  | gt => exact (OrientedCmp.gt_of_lt (hless (OrientedCmp.lt_of_gt h))).symm

/-- Ids that share a sort key compare by their bytes. -/
theorem compareIds_eq_then_compare_utf8Bytes (a b : String) :
    compareIds a b =
      (compare (sortKey a) (sortKey b)).then (compare (utf8Bytes a) (utf8Bytes b)) := by
  rw [compareIds, compare_eq_compare_utf8Bytes]

end Bytes

/-- An id only equals itself. -/
theorem compareIds_eq_iff {a b : String} : compareIds a b = .eq ↔ a = b := by
  refine ⟨eq_of_compareIds_eq, ?_⟩
  rintro rfl
  exact ReflCmp.compare_self

/-- Two comparisons in a row with one outcome have it as a whole. -/
theorem compareIds_trans {order : Ordering} {a b c : String} (hab : compareIds a b = order)
    (hbc : compareIds b c = order) : compareIds a c = order := by
  cases order with
  | lt => exact TransCmp.lt_trans hab hbc
  | eq => exact TransCmp.eq_trans hab hbc
  | gt => exact TransCmp.gt_trans hab hbc

/-- If no two items share an id, the sorted list is the only one in canonical order. -/
theorem eq_sortByIds {α : Type} {id : α → String} {items others : List α}
    (hdistinct : (items.map id).Nodup) (hperm : others.Perm items)
    (hsorted : others.Pairwise fun a b => (compareIds (id a) (id b)).isLE = true) :
    others = sortByIds id items := by
  have hitems : (sortByIds id items).Perm items := List.mergeSort_perm items _
  refine (hperm.trans hitems.symm).eq_of_pairwise (fun a b ha hb hab hba => ?_) hsorted
    (pairwise_sortByIds id items)
  have hids : id a = id b := eq_of_compareIds_eq (OrientedCmp.isLE_antisymm hab hba)
  exact List.inj_on_of_nodup_map hdistinct (hperm.mem_iff.mp ha) (hitems.mem_iff.mp hb) hids

/-- Ids compare equal exactly if they are one id, exchanging them reverses the outcome, and an
outcome that two comparisons in a row have is that of the ends. So items with distinct ids are
sorted to one list in whatever order they come, and no other list of them is in canonical order. -/
theorem compareIds_strictTotalOrder :
    (∀ a b, compareIds a b = .eq ↔ a = b) ∧
      (∀ a b, compareIds b a = (compareIds a b).swap) ∧
      (∀ order a b c, compareIds a b = order → compareIds b c = order → compareIds a c = order) ∧
      ∀ (α : Type) (id : α → String) (items others : List α),
        (items.map id).Nodup → others.Perm items →
          sortByIds id others = sortByIds id items ∧
            (others.Pairwise (fun a b => (compareIds (id a) (id b)).isLE = true) →
              others = sortByIds id items) := by
  refine ⟨fun a b => compareIds_eq_iff, fun a b => OrientedCmp.eq_swap,
    fun order a b c => compareIds_trans, fun α id items others hdistinct hperm =>
    ⟨eq_sortByIds hdistinct ?_ (pairwise_sortByIds id others), eq_sortByIds hdistinct hperm⟩⟩
  exact (List.mergeSort_perm others _).trans hperm

/-- Ids that share a sort key are sorted by their bytes, before those that only begin like them, and
a letter that becomes two in lower case comes after the first of the two. -/
theorem compareIds_strictTotalOrder_of_sharedSortKeys :
    compareIds "A.b" "a.b" = .lt ∧
      sortByIds id ["İ", "ab", "a.b", "i", "A.b", "a#b"] = ["A.b", "a#b", "a.b", "ab", "i", "İ"] ∧
      sortByIds id ["a#b", "i", "ab", "İ", "A.b", "a.b"] =
        sortByIds id ["İ", "ab", "a.b", "i", "A.b", "a#b"] := by
  obtain ⟨_, _, htrans, hsort⟩ := compareIds_strictTotalOrder
  have hdistinct : (["İ", "ab", "a.b", "i", "A.b", "a#b"].map id).Nodup := by decide +kernel
  refine ⟨htrans .lt "A.b" "a#b" "a.b" (by decide +kernel) (by decide +kernel), ?_, ?_⟩
  · exact ((hsort String id _ _ hdistinct (by decide +kernel)).2 (by decide +kernel)).symm
  · exact (hsort String id _ _ hdistinct (by decide +kernel)).1

end SymbolTree
