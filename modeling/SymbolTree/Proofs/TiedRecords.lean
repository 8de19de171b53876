import SymbolTree.Proofs.KeptRecords
import SymbolTree.Proofs.Twins

/-!
# Where the order of insertion shows

A record that asks for a key is compared with the holder only. Two records with different precedences
therefore leave the same record under their key in either order, and so do two that both give way to
the holder. Only a tie is decided by the order: of two records with one precedence, both ahead of the
holder, the first stays, even if they differ in a field that precedences do not compare.
-/

namespace SymbolTree

open Std

variable {α : Type} {rank : α → Precedence} {holder : Option α} {a b : α}

/-- Whoever is ahead of another is not behind it. -/
private theorem not_beats_of_beats {x y : Precedence} (h : x.beats y = true) :
    y.beats x = false := by
  rw [Precedence.beats, beq_iff_eq] at h
  rw [Precedence.beats, OrientedCmp.gt_of_lt h]
  rfl

/-- Of two competitors that are tied and ahead of the holder, the first one stays. -/
theorem nextHolder_of_tie (htie : (rank a).compare (rank b) = .eq)
    (hahead : ∀ other ∈ holder, (rank a).beats (rank other) = true) :
    nextHolder rank (some (nextHolder rank holder a)) b = a := by
  have hfirst : nextHolder rank holder a = a := by
    cases holder with
    | none => rfl
    | some other => exact if_pos (hahead other rfl)
  have hback : (rank b).compare (rank a) = .eq := OrientedCmp.eq_symm htie
  rw [hfirst, nextHolder, Precedence.beats, hback]
  rfl

/-- Of two competitors, one of which is ahead of the other and of the holder, this one stays, whether
it asks first or last. -/
private theorem nextHolder_of_beats (hbeats : (rank a).beats (rank b) = true)
    (hahead : ∀ other ∈ holder, (rank a).beats (rank other) = true) :
    nextHolder rank (some (nextHolder rank holder a)) b = a ∧
      nextHolder rank (some (nextHolder rank holder b)) a = a := by
  have hbehind := not_beats_of_beats hbeats
  cases holder with
  | none => simp [nextHolder, hbeats, hbehind]
  | some other =>
    have hother := hahead other rfl
    constructor
    · simp [nextHolder, hother, hbehind]
    · rcases nextHolder_cases rank (some other) b with hnext | hnext
      · rw [hnext, nextHolder, if_pos hbeats]
      · rw [← hnext, nextHolder, if_pos hother]

/-- A competitor that is not ahead of the holder leaves no trace. -/
private theorem nextHolder_of_behind {other : α}
    (hbehind : (rank a).beats (rank other) = false) :
    nextHolder rank (some (nextHolder rank (some other) a)) b =
      nextHolder rank (some (nextHolder rank (some other) b)) a := by
  have hstays : nextHolder rank (some other) a = other := by simp [nextHolder, hbehind]
  rw [hstays]
  by_cases hahead : (rank b).beats (rank other) = true
  · -- What is ahead of the holder is ahead of whatever the holder keeps out.
    have hle := Precedence.isLE_of_not_beats (Bool.eq_false_iff.mp hbehind)
    have hlt : (rank b).compare (rank other) = .lt := by simpa [Precedence.beats] using hahead
    have hfirst : (rank b).beats (rank a) = true := by
      rw [Precedence.beats, beq_iff_eq]
      exact TransCmp.lt_of_lt_of_isLE hlt hle
    have hnext : nextHolder rank (some other) b = b := if_pos hahead
    rw [hnext, nextHolder, if_neg (by simp [not_beats_of_beats hfirst])]
  · have hnext : nextHolder rank (some other) b = other := if_neg hahead
    rw [hnext, hstays]

/-- Two competitors leave one holder in either order, unless they are tied and both ahead of the
holder. -/
theorem nextHolder_comm (h : (rank a).compare (rank b) ≠ .eq ∨
      ∃ other ∈ holder, (rank a).beats (rank other) = false) :
    nextHolder rank (some (nextHolder rank holder a)) b =
      nextHolder rank (some (nextHolder rank holder b)) a := by
  by_cases hbehindA : ∃ other ∈ holder, (rank a).beats (rank other) = false
  · obtain ⟨other, rfl, hother⟩ := hbehindA
    exact nextHolder_of_behind hother
  by_cases hbehindB : ∃ other ∈ holder, (rank b).beats (rank other) = false
  · obtain ⟨other, rfl, hother⟩ := hbehindB
    exact (nextHolder_of_behind hother).symm
  have hne := h.resolve_right hbehindA
  simp only [not_exists, not_and, Bool.not_eq_false] at hbehindA hbehindB
  cases hcompare : (rank a).compare (rank b) with
  | lt =>
    obtain ⟨hfirst, hlast⟩ := nextHolder_of_beats (b := b) (by simp [Precedence.beats, hcompare])
      hbehindA
    rw [hfirst, hlast]
  | eq => exact absurd hcompare hne
  | gt =>
    have hswapped : (rank b).beats (rank a) = true := by
      rw [Precedence.beats, OrientedCmp.lt_of_gt hcompare]
      rfl
    obtain ⟨hfirst, hlast⟩ := nextHolder_of_beats (b := a) hswapped hbehindB
    rw [hfirst, hlast]

namespace Collection

/-- Inserting a record settles who holds its key. Its twin, if it has one, has another key. -/
theorem get?_insert_key (collection : Collection) (record : Record) :
    (collection.insert record).get? record.key =
      some (nextHolder Record.precedence (collection.get? record.key) record) := by
  have hrecords : (collection.insert record).get? record.key =
      ((filed record).foldl fileOwn collection).records.get? record.key := by
    have hinsert : collection.insert record = collection.insertAll [record] := rfl
    rw [hinsert, insertAll_eq, filings, List.flatMap_singleton]
    rfl
  rw [hrecords, filed]
  cases htwin : twin? record with
  | none =>
    rw [Option.toList_none, List.nil_append, List.foldl_cons, List.foldl_nil, get?_fileOwn,
      if_pos rfl]
    rfl
  | some twin =>
    have hkeys : twinKeys? record = some (record.key, twin.key) := by rw [twinKeys?, htwin]; rfl
    have hne : record.key ≠ twin.key := (isTwinPair_of_twinKeys? hkeys).ne
    simp only [Option.toList_some, List.cons_append, List.nil_append, List.foldl_cons,
      List.foldl_nil]
    rw [get?_fileOwn, if_pos rfl, get?_fileOwn, if_neg hne]
    rfl

/-- Two records of one key, inserted in either order, leave records of one precedence under this key.
They leave the same record exactly when they are equal, have different precedences, or find a holder
that the first of them is not ahead of. -/
theorem insertion_order_shows_iff (collection : Collection) (a b : Record)
    (hkey : a.key = b.key) :
    ∃ forward backward,
      ((collection.insert a).insert b).get? a.key = some forward ∧
      ((collection.insert b).insert a).get? a.key = some backward ∧
      forward.precedence.compare backward.precedence = .eq ∧
      (forward = backward ↔
        a = b ∨ a.precedence.compare b.precedence ≠ .eq ∨
          ∃ holder, collection.get? a.key = some holder ∧
            a.precedence.beats holder.precedence = false) := by
  have hforward : ((collection.insert a).insert b).get? a.key = some (nextHolder Record.precedence
      (some (nextHolder Record.precedence (collection.get? a.key) a)) b) := by
    rw [hkey, get?_insert_key, ← hkey, get?_insert_key]
  have hbackward : ((collection.insert b).insert a).get? a.key = some (nextHolder Record.precedence
      (some (nextHolder Record.precedence (collection.get? a.key) b)) a) := by
    rw [get?_insert_key, hkey, get?_insert_key]
  refine ⟨_, _, hforward, hbackward, ?_⟩
  by_cases hclear : a.precedence.compare b.precedence ≠ .eq ∨
      ∃ holder, collection.get? a.key = some holder ∧
        a.precedence.beats holder.precedence = false
  · rw [nextHolder_comm hclear]
    exact ⟨ReflCmp.compare_self, iff_of_true rfl (.inr hclear)⟩
  · obtain ⟨htie, hnone⟩ := not_or.mp hclear
    rw [not_not] at htie
    have hback : b.precedence.compare a.precedence = .eq := OrientedCmp.eq_symm htie
    have hahead : ∀ holder ∈ collection.get? a.key,
        a.precedence.beats holder.precedence = true := by
      intro holder hholder
      by_contra hbehind
      exact hnone ⟨holder, hholder, Bool.eq_false_iff.mpr hbehind⟩
    have hbothAhead : ∀ holder ∈ collection.get? a.key,
        b.precedence.beats holder.precedence = true := by
      intro holder hholder
      have hbeats := hahead holder hholder
      rw [Precedence.beats, beq_iff_eq] at hbeats ⊢
      exact TransCmp.lt_of_eq_of_lt hback hbeats
    rw [nextHolder_of_tie htie hahead, nextHolder_of_tie hback hbothAhead]
    exact ⟨htie, by simp [hclear]⟩

/-- Two declarations of a class at one place that name different superclasses. -/
def tiedClasses : Record × Record :=
  ({ id := "Ajax", kind := .class, file := ⟨"ajax.js"⟩, line := 4, superclass := some "Base" },
    { id := "Ajax", kind := .class, file := ⟨"ajax.js"⟩, line := 4, superclass := some "Core" })

/-- Once a class is there that is declared earlier, the order of the two makes no difference. -/
theorem insertion_order_shows_iff_of_earlierClass :
    let earlier : Record := { id := "Ajax", kind := .class, file := ⟨"ajax.js"⟩, line := 1 }
    let collection := empty.insert earlier
    tiedClasses.1.key = tiedClasses.2.key ∧
      ((collection.insert tiedClasses.1).insert tiedClasses.2).get? ".Ajax" =
        ((collection.insert tiedClasses.2).insert tiedClasses.1).get? ".Ajax" := by
  intro earlier collection
  obtain ⟨forward, backward, hforward, hbackward, _, hsame⟩ :=
    insertion_order_shows_iff collection tiedClasses.1 tiedClasses.2 rfl
  have hkey : tiedClasses.1.key = ".Ajax" := by decide +kernel
  have hfree : empty.get? earlier.key = none := Option.isNone_iff_eq_none.mp (by decide +kernel)
  have hheld : collection.get? tiedClasses.1.key = some earlier := by
    have hinserted := get?_insert_key empty earlier
    rwa [hfree, show earlier.key = tiedClasses.1.key from rfl] at hinserted
  have hequal : forward = backward := hsame.mpr (.inr (.inr ⟨earlier, hheld, by decide +kernel⟩))
  rw [hkey] at hforward hbackward
  exact ⟨rfl, by rw [hforward, hbackward, hequal]⟩

/-- In an empty collection the class that is inserted first stays. -/
theorem insertion_order_shows_of_tiedClasses :
    tiedClasses.1.key = tiedClasses.2.key ∧
      ((empty.insert tiedClasses.1).insert tiedClasses.2).get? tiedClasses.1.key ≠
        ((empty.insert tiedClasses.2).insert tiedClasses.1).get? tiedClasses.1.key := by
  refine ⟨rfl, fun hsame => ?_⟩
  have hsuperclass := congrArg (Option.bind · Record.superclass) hsame
  revert hsuperclass
  decide +kernel

end Collection

end SymbolTree
