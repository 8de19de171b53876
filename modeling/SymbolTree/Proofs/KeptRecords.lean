import SymbolTree.Proofs.Filing
import SymbolTree.Proofs.Winners

/-!
# A collection is a keyed minimum

Each record that is filed asks for its key. Whatever the records and their order, a key ends with
the first record of least precedence among all that were filed under it, twins included, and each
filing adds a key or a report. The root section was filed before all others and has the least
precedence that there is, so it keeps the empty key.
-/

namespace SymbolTree.Collection

variable {collection : Collection} {seen : List Record}

/-- Filing a record settles who holds its key, and no other key is concerned. -/
theorem get?_fileOwn (collection : Collection) (record : Record) (key : String) :
    (collection.fileOwn record).records.get? key =
      if key = record.key then
        some (nextHolder Record.precedence (collection.records.get? record.key) record)
      else collection.records.get? key := by
  unfold fileOwn
  cases hheld : collection.records.get? record.key with
  | none =>
    rw [file_of_free hheld, KeyMap.get?_insert]
    rfl
  | some holder =>
    by_cases hbeats : record.precedence.beats holder.precedence = true
    · rw [file_of_beats hheld hbeats, KeyMap.get?_insert, nextHolder, if_pos hbeats]
    · rw [file_of_not_beats hheld hbeats, nextHolder, if_neg hbeats]
      by_cases hkey : key = record.key
      · rw [if_pos hkey, hkey, hheld]
      · rw [if_neg hkey]

/-- A report that filing a record adds keeps the earlier location. -/
theorem keepsEarlier_of_fileOwn {record : Record} {diagnostic : Diagnostic}
    (hdiagnostic : diagnostic ∈ (collection.fileOwn record).diagnostics) :
    diagnostic ∈ collection.diagnostics ∨ diagnostic.KeepsEarlier := by
  unfold fileOwn at hdiagnostic
  cases hheld : collection.records.get? record.key with
  | none =>
    rw [file_of_free hheld] at hdiagnostic
    exact .inl hdiagnostic
  | some holder =>
    by_cases hbeats : record.precedence.beats holder.precedence = true
    · rw [file_of_beats hheld hbeats] at hdiagnostic
      have hlocations := Precedence.location_isLE (Precedence.isLE_of_beats hbeats)
      refine (List.mem_append.mp hdiagnostic).imp_right fun hnew => ?_
      rw [List.mem_singleton.mp hnew]
      exact hlocations
    · rw [file_of_not_beats hheld hbeats] at hdiagnostic
      have hlocations := Precedence.location_isLE (Precedence.isLE_of_not_beats hbeats)
      refine (List.mem_append.mp hdiagnostic).imp_right fun hnew => ?_
      rw [List.mem_singleton.mp hnew]
      exact hlocations

/-- What each filing keeps: keys are held by the first records of least precedence among those that
were filed under them, and the reports keep earlier locations. -/
structure KeepsLeast (collection : Collection) (seen : List Record) : Prop where
  /-- The records that were filed under a key settle who holds it. -/
  heldBy : ∀ key, HeldBy Record.precedence (seen.filter fun record => record.key = key)
    (collection.records.get? key)
  /-- The reports are clashes that keep earlier locations. -/
  keepsEarlier : ∀ diagnostic ∈ collection.diagnostics, diagnostic.KeepsEarlier

/-- At the start only the root section is filed. -/
theorem keepsLeast_empty : KeepsLeast empty [root] where
  heldBy key := by
    have hroot : root.key = "" := rfl
    rw [empty, KeyMap.get?_insert, List.filter_singleton, hroot]
    by_cases hkey : key = ""
    · rw [hkey]
      exact .held ⟨[], [], rfl, by simp, by simp⟩
    · rw [if_neg hkey]
      simp only [Ne.symm hkey, decide_false, cond_false]
      exact .free
  keepsEarlier diagnostic hdiagnostic := by cases hdiagnostic

/-- Filing one more record. -/
theorem KeepsLeast.fileOwn (h : KeepsLeast collection seen) (record : Record) :
    KeepsLeast (collection.fileOwn record) (seen ++ [record]) where
  heldBy key := by
    rw [get?_fileOwn, List.filter_append, List.filter_singleton]
    by_cases hkey : key = record.key
    · rw [if_pos hkey]
      simp only [hkey, decide_true, cond_true]
      exact (h.heldBy record.key).next record
    · rw [if_neg hkey]
      simp only [Ne.symm hkey, decide_false, cond_false, List.append_nil]
      exact h.heldBy key
  keepsEarlier diagnostic hdiagnostic :=
    (keepsEarlier_of_fileOwn hdiagnostic).elim (h.keepsEarlier diagnostic) fun hnew => hnew

/-- Filing some more records, one after another. -/
theorem KeepsLeast.foldl (h : KeepsLeast collection seen) (records : List Record) :
    KeepsLeast (records.foldl Collection.fileOwn collection) (seen ++ records) := by
  induction records generalizing collection seen with
  | nil => simpa using h
  | cons record records ih =>
    have hrest := ih (h.fileOwn record)
    rwa [List.append_assoc] at hrest

/-- What a collection keeps over any sequence of insertions. -/
theorem keepsLeast_insertAll (records : List Record) :
    KeepsLeast (empty.insertAll records) (root :: filings records) := by
  have hall := keepsLeast_empty.foldl (filings records)
  rw [insertAll_eq]
  exact ⟨hall.heldBy, hall.keepsEarlier⟩

/-- After any sequence of insertions, twins counted as insertions right before their records, a
collection is a keyed minimum. Under every key but the empty one it holds the first record of least
precedence that was inserted under this key, and some record if there was any. Each insertion has
added a record or a report, and each report is a clash that keeps no later location than it drops.
The empty key is still held by the root section as it was at the start. -/
theorem holds_first_least_per_key (records : List Record) :
    let collection := empty.insertAll records
    let inserted := filings records
    (∀ key ≠ "",
      (∀ record, collection.get? key = some record ↔
        FirstLeast Record.precedence (inserted.filter fun other => other.key = key) record) ∧
      ((collection.get? key).isSome = true ↔ ∃ record ∈ inserted, record.key = key)) ∧
    collection.size + collection.diagnostics.length = 1 + inserted.length ∧
    (∀ diagnostic ∈ collection.diagnostics, diagnostic.KeepsEarlier) ∧
    collection.get? "" = some root := by
  intro collection inserted
  have hkept := keepsLeast_insertAll records
  have hfiled := filed_insertAll records
  refine ⟨fun key hkey => ?_, ?_, hkept.keepsEarlier, hfiled.root_held⟩
  · -- The root section is filed under the empty key, so it does not compete here.
    have hroot : root.key ≠ key := Ne.symm hkey
    have hheld := hkept.heldBy key
    rw [List.filter_cons_of_neg (by simpa using hroot)] at hheld
    refine ⟨fun record => hheld.eq_some_iff, ?_⟩
    have hsome : (collection.get? key).isSome = true ↔ _ := hheld.isSome_iff
    rw [hsome]
    simp only [List.mem_filter, decide_eq_true_eq]
    rfl
  · have hclashes : collection.diagnostics.length =
        (droppedLocations collection.diagnostics).length := by
      rw [← countP_isNameClash, eq_comm, List.countP_eq_length]
      exact fun diagnostic hdiagnostic => (hkept.keepsEarlier diagnostic hdiagnostic).isNameClash
    have hsize : collection.size + (droppedLocations collection.diagnostics).length =
        inserted.length + 1 := hfiled.size_eq
    omega

/-- An instance method, and a bound method whose twin has the same key and stands earlier. -/
def laterInstanceMethod : List Record :=
  [{ id := "A#b", kind := .method, file := ⟨"b"⟩, line := 3 },
    { id := "A.b", kind := .method, file := ⟨"a"⟩, line := 9, bound := true },
    { id := "", kind := .section, file := ⟨"a"⟩, line := 1 }]

/-- The twin displaces the instance method, which is reported, and a section without an id is
dropped in favour of the root. -/
theorem holds_first_least_of_laterInstanceMethod :
    let collection := empty.insertAll laterInstanceMethod
    ".A#b" ≠ "" ∧
      collection.get? ".A#b" =
        some { id := "A#b", kind := .method, file := ⟨"a"⟩, line := 9, bound := true } ∧
      collection.size + collection.diagnostics.length = 5 ∧ collection.get? "" = some root := by
  intro collection
  obtain ⟨hkeys, hsize, _, hroot⟩ := holds_first_least_per_key laterInstanceMethod
  refine ⟨by decide, ((hkeys ".A#b" (by decide)).1 _).mpr ?_, hsize, hroot⟩
  refine ⟨[{ id := "A#b", kind := .method, file := ⟨"b"⟩, line := 3 }], [], rfl, ?_, by simp⟩
  intro other hother
  obtain rfl := List.mem_singleton.mp hother
  decide +kernel

end SymbolTree.Collection
