import SymbolTree.Proofs.Clashes
import SymbolTree.Proofs.Precedence

/-!
# What a collection holds

Inserting records files each of them after its twin, if it has one. After any sequence of insertions
a key is held by a record of least precedence among all that were filed under it, every other one of
these is reported as dropped, and each filing has added a key or a report. The root section keeps
the empty key throughout.
-/

namespace SymbolTree.Collection

open Std

/-- What the insertion of a record files, in order. -/
def filed (record : Record) : List Record := (twin? record).toList ++ [record]

/-- What the insertion of records files, in order. -/
def filings (records : List Record) : List Record := records.flatMap filed

/-- The keys of a bound method and of its twin. -/
def twinKeys? (record : Record) : Option (String × String) :=
  (twin? record).map fun twin => (record.key, twin.key)

/-- File a record under its own key. -/
def fileOwn (collection : Collection) (record : Record) : Collection :=
  collection.file record.key record

/-- Filing leaves the bound pairs alone. -/
private theorem file_setBoundPairs (collection : Collection) (pairs : List (String × String))
    (key : String) (record : Record) :
    ({ collection with boundPairs := pairs } : Collection).file key record =
      { collection.file key record with boundPairs := pairs } := by
  unfold file
  simp only
  split
  · rfl
  · split <;> rfl

private theorem foldl_fileOwn_setBoundPairs (collection : Collection)
    (pairs : List (String × String)) (records : List Record) :
    records.foldl fileOwn { collection with boundPairs := pairs } =
      { records.foldl fileOwn collection with boundPairs := pairs } :=
  List.foldl_hom (fun collection : Collection => { collection with boundPairs := pairs })
    fun collection record => file_setBoundPairs collection pairs record.key record

private theorem boundPairs_file (collection : Collection) (key : String) (record : Record) :
    (collection.file key record).boundPairs = collection.boundPairs := by
  unfold file
  split
  · rfl
  · split <;> rfl

private theorem insert_eq (collection : Collection) (record : Record) :
    collection.insert record =
      { (filed record).foldl fileOwn collection with
        boundPairs := collection.boundPairs ++ (twinKeys? record).toList } := by
  unfold insert filed twinKeys?
  cases htwin : twin? record with
  | none =>
    have hpairs := boundPairs_file collection record.key record
    simp [fileOwn, ← hpairs]
  | some twin =>
    simp only [file_setBoundPairs]
    rfl

/-- Inserting records files them and their twins in turn and notes the pairs. -/
theorem insertAll_eq (collection : Collection) (records : List Record) :
    collection.insertAll records =
      { (filings records).foldl fileOwn collection with
        boundPairs := collection.boundPairs ++ records.filterMap twinKeys? } := by
  induction records generalizing collection with
  | nil => simp [insertAll, filings]
  | cons record records ih =>
    have hstep : collection.insertAll (record :: records) =
        (collection.insert record).insertAll records := rfl
    have hfilings : filings (record :: records) = filed record ++ filings records :=
      List.flatMap_cons
    have hpairs : (record :: records).filterMap twinKeys? =
        (twinKeys? record).toList ++ records.filterMap twinKeys? := by
      cases htwin : twinKeys? record <;> simp [htwin]
    rw [hstep, ih, insert_eq, foldl_fileOwn_setBoundPairs, hfilings, List.foldl_append, hpairs,
      List.append_assoc]

/-- A free key goes to the record. -/
theorem file_of_free {collection : Collection} {key : String}
    (hfree : collection.records.get? key = none) (record : Record) :
    collection.file key record =
      { collection with records := collection.records.insert key record } := by
  unfold file
  rw [hfree]

/-- A record that is ahead of the holder takes the key over. -/
theorem file_of_beats {collection : Collection} {key : String} {holder record : Record}
    (hheld : collection.records.get? key = some holder)
    (hbeats : record.precedence.beats holder.precedence = true) :
    collection.file key record =
      { collection with
        records := collection.records.insert key record
        diagnostics :=
          collection.diagnostics ++ [.nameClash key record.location holder.location] } := by
  unfold file
  rw [hheld]
  simp only [hbeats, if_true]

/-- A record that is not ahead of the holder is dropped. -/
theorem file_of_not_beats {collection : Collection} {key : String} {holder record : Record}
    (hheld : collection.records.get? key = some holder)
    (hbeats : ¬ record.precedence.beats holder.precedence = true) :
    collection.file key record =
      { collection with
        diagnostics :=
          collection.diagnostics ++ [.nameClash key holder.location record.location] } := by
  unfold file
  rw [hheld]
  simp only [hbeats]
  rfl

/-- A filing adds one key or reports one clash. -/
theorem size_file (collection : Collection) (key : String) (record : Record) :
    (collection.file key record).records.size
        + (droppedLocations (collection.file key record).diagnostics).length =
      collection.records.size + (droppedLocations collection.diagnostics).length + 1 := by
  cases hheld : collection.records.get? key with
  | none =>
    rw [file_of_free hheld]
    have hsize := KeyMap.size_insert_of_get?_eq_none record hheld
    simp only
    omega
  | some holder =>
    have hsize := KeyMap.size_insert_of_get? record hheld
    by_cases hbeats : record.precedence.beats holder.precedence = true
    · rw [file_of_beats hheld hbeats]
      simp only [droppedLocations_append, droppedLocations_nameClash, List.length_append,
        List.length_singleton]
      omega
    · rw [file_of_not_beats hheld hbeats]
      simp only [droppedLocations_append, droppedLocations_nameClash, List.length_append,
        List.length_singleton]
      omega

/-- What filing a record under its key comes to: a winner among the record and the holder. -/
structure Settled (before after : Collection) (record winner : Record) : Prop where
  /-- The winner holds the key, and no other key is concerned. -/
  get?_eq : ∀ key, after.records.get? key =
    if key = record.key then some winner else before.records.get? key
  /-- The winner is the record or the holder. -/
  competes : winner = record ∨ before.records.get? record.key = some winner
  /-- The winner does not come after the record. -/
  le_record : (winner.precedence.compare record.precedence).isLE = true
  /-- The winner does not come after the holder. -/
  le_holder : ∀ {holder}, before.records.get? record.key = some holder →
    (winner.precedence.compare holder.precedence).isLE = true
  /-- Whoever competes wins or is dropped. -/
  wins_or_dropped : ∀ {competitor},
    competitor = record ∨ before.records.get? record.key = some competitor →
      competitor = winner ∨ competitor.location ∈ droppedLocations after.diagnostics
  /-- Earlier reports stay. -/
  reports_subset : droppedLocations before.diagnostics ⊆ droppedLocations after.diagnostics

/-- Filing a record settles who holds its key. -/
theorem exists_settled_fileOwn (collection : Collection) (record : Record) :
    ∃ winner, Settled collection (collection.fileOwn record) record winner := by
  have hrefl (other : Record) : (other.precedence.compare other.precedence).isLE = true := by
    have hself : other.precedence.compare other.precedence = .eq := ReflCmp.compare_self
    rw [hself]
    rfl
  unfold fileOwn
  cases hheld : collection.records.get? record.key with
  | none =>
    rw [file_of_free hheld]
    exact ⟨record, fun key => KeyMap.get?_insert _ _ _ key, .inl rfl, hrefl record,
      by simp [hheld], by simp [hheld], List.Subset.refl _⟩
  | some holder =>
    by_cases hbeats : record.precedence.beats holder.precedence = true
    · rw [file_of_beats hheld hbeats]
      refine ⟨record, fun key => KeyMap.get?_insert _ _ _ key, .inl rfl, hrefl record, ?_, ?_, ?_⟩
      · intro other hother
        obtain rfl : holder = other := by simpa [hheld] using hother
        exact Precedence.isLE_of_beats hbeats
      · rintro competitor (rfl | hcompetes)
        · exact .inl rfl
        · obtain rfl : holder = competitor := by simpa [hheld] using hcompetes
          simp
      · simp
    · rw [file_of_not_beats hheld hbeats]
      refine ⟨holder, fun key => ?_, .inr hheld, Precedence.isLE_of_not_beats hbeats, ?_, ?_, ?_⟩
      · by_cases hkey : key = record.key
        · rw [if_pos hkey, hkey, hheld]
        · rw [if_neg hkey]
      · intro other hother
        obtain rfl : holder = other := by simpa [hheld] using hother
        exact hrefl holder
      · rintro competitor (rfl | hcompetes)
        · simp
        · obtain rfl : holder = competitor := by simpa [hheld] using hcompetes
          exact .inl rfl
      · simp

/-- What holds after some records were filed. -/
structure Filed (collection : Collection) (seen : List Record) : Prop where
  /-- A holder was filed under its key. -/
  mem_of_get? : ∀ {key holder}, collection.records.get? key = some holder →
    holder ∈ seen ∧ holder.key = key
  /-- A key is held by a record of least precedence. -/
  least : ∀ {record}, record ∈ seen → ∃ holder,
    collection.records.get? record.key = some holder ∧
      (holder.precedence.compare record.precedence).isLE = true
  /-- A record holds its key or is dropped. -/
  held_or_dropped : ∀ {record}, record ∈ seen →
    collection.records.get? record.key = some record ∨
      record.location ∈ droppedLocations collection.diagnostics
  /-- The root section keeps the empty key. -/
  root_held : collection.records.get? "" = some root
  /-- Every record has a key or a report. -/
  size_eq : collection.records.size + (droppedLocations collection.diagnostics).length = seen.length

/-- At the start only the root section is filed. -/
theorem filed_empty : Filed empty [root] where
  mem_of_get? {key holder} hheld := by
    rw [empty, KeyMap.get?_insert] at hheld
    split at hheld
    · obtain rfl := Option.some.inj hheld
      exact ⟨List.mem_singleton_self _, by simp_all [root, Record.key]⟩
    · cases hheld
  least {record} hrecord := by
    obtain rfl := List.mem_singleton.mp hrecord
    exact ⟨root, rfl, by decide⟩
  held_or_dropped {record} hrecord := by
    obtain rfl := List.mem_singleton.mp hrecord
    exact .inl rfl
  root_held := rfl
  size_eq := rfl

/-- Filing one more record. -/
theorem Filed.fileOwn {collection : Collection} {seen : List Record} (h : Filed collection seen)
    (record : Record) : Filed (collection.fileOwn record) (seen ++ [record]) := by
  obtain ⟨winner, hsettled⟩ := exists_settled_fileOwn collection record
  have hwinner : winner ∈ seen ++ [record] ∧ winner.key = record.key := by
    rcases hsettled.competes with rfl | hheld
    · simp
    · obtain ⟨hseen, hkey⟩ := h.mem_of_get? hheld
      exact ⟨List.mem_append_left _ hseen, hkey⟩
  have hget {other : Record} (hkey : other.key = record.key) :
      (collection.fileOwn record).records.get? other.key = some winner := by
    rw [hsettled.get?_eq, if_pos hkey]
  refine ⟨fun {key holder} hheld => ?_, fun {other} hother => ?_, fun {other} hother => ?_, ?_, ?_⟩
  · rw [hsettled.get?_eq] at hheld
    split at hheld
    · rename_i hkey
      obtain rfl := Option.some.inj hheld
      exact ⟨hwinner.1, hwinner.2.trans hkey.symm⟩
    · exact ⟨List.mem_append_left _ (h.mem_of_get? hheld).1, (h.mem_of_get? hheld).2⟩
  · rcases List.mem_append.mp hother with hseen | hnew
    · obtain ⟨holder, hheld, hle⟩ := h.least hseen
      by_cases hkey : other.key = record.key
      · rw [hkey] at hheld
        exact ⟨winner, hget hkey, TransCmp.isLE_trans (hsettled.le_holder hheld) hle⟩
      · exact ⟨holder, by rw [hsettled.get?_eq, if_neg hkey, hheld], hle⟩
    · obtain rfl := List.mem_singleton.mp hnew
      exact ⟨winner, hget rfl, hsettled.le_record⟩
  · rcases List.mem_append.mp hother with hseen | hnew
    · rcases h.held_or_dropped hseen with hheld | hdropped
      · by_cases hkey : other.key = record.key
        · rw [hkey] at hheld
          rcases hsettled.wins_or_dropped (.inr hheld) with rfl | hdropped
          · exact .inl (hget hkey)
          · exact .inr hdropped
        · exact .inl (by rw [hsettled.get?_eq, if_neg hkey, hheld])
      · exact .inr (hsettled.reports_subset hdropped)
    · obtain rfl := List.mem_singleton.mp hnew
      rcases hsettled.wins_or_dropped (.inl rfl) with heq | hdropped
      · exact .inl ((hget rfl).trans (congrArg some heq.symm))
      · exact .inr hdropped
  · by_cases hkey : record.key = ""
    · have hroot := h.root_held
      unfold Collection.fileOwn
      rw [hkey, file_of_not_beats hroot (not_beats_root hkey)]
      exact hroot
    · rw [hsettled.get?_eq, if_neg (Ne.symm hkey), h.root_held]
  · have hsize := size_file collection record.key record
    have hbefore := h.size_eq
    rw [List.length_append, List.length_singleton, Collection.fileOwn]
    omega

/-- Filing some more records, one after another. -/
theorem filed_foldl (records : List Record) {collection : Collection} {seen : List Record}
    (h : Filed collection seen) : Filed (records.foldl fileOwn collection) (seen ++ records) := by
  induction records generalizing collection seen with
  | nil => simpa using h
  | cons record records ih =>
    have hrest := ih (h.fileOwn record)
    rwa [List.append_assoc] at hrest

/-- What a collection holds after any sequence of insertions. -/
theorem filed_insertAll (records : List Record) :
    Filed (empty.insertAll records) (root :: filings records) := by
  have hall := filed_foldl (filings records) filed_empty
  rw [insertAll_eq]
  exact ⟨hall.mem_of_get?, hall.least, hall.held_or_dropped, hall.root_held, hall.size_eq⟩

/-- A record that was filed under the root's key is dropped: the root section never gives way. -/
theorem dropped_of_key_empty {records : List Record} {record : Record}
    (hrecord : record ∈ filings records) (hkey : record.key = "") :
    record.location ∈ droppedLocations (empty.insertAll records).diagnostics := by
  obtain ⟨before, rest, hsplit⟩ := List.append_of_mem hrecord
  have hkeep : ∀ later : List Record, ∀ collection : Collection,
      record.location ∈ droppedLocations collection.diagnostics →
        record.location ∈ droppedLocations (later.foldl fileOwn collection).diagnostics := by
    intro later collection hdropped
    refine List.foldlRecOn (motive := fun later : Collection =>
      record.location ∈ droppedLocations later.diagnostics) later fileOwn hdropped
      fun collection hdropped other _ => ?_
    obtain ⟨winner, hsettled⟩ := exists_settled_fileOwn collection other
    exact hsettled.reports_subset hdropped
  have hroot : (before.foldl fileOwn empty).records.get? "" = some root :=
    (filed_foldl before filed_empty).root_held
  rw [insertAll_eq, hsplit, List.foldl_append, List.foldl_cons]
  refine hkeep rest _ ?_
  rw [fileOwn, hkey, file_of_not_beats hroot (not_beats_root hkey)]
  simp

/-- A filed record is an inserted one, save perhaps for its id. -/
theorem exists_source_of_mem_filings {records : List Record} {record : Record}
    (hrecord : record ∈ filings records) :
    ∃ source ∈ records, ∃ id, record = { source with id } := by
  obtain ⟨source, hsource, hfiled⟩ := List.mem_flatMap.mp hrecord
  refine ⟨source, hsource, ?_⟩
  rcases List.mem_append.mp hfiled with htwin | hself
  · have hfound := Option.mem_toList.mp htwin
    unfold twin? at hfound
    split at hfound
    · obtain ⟨twin, _, rfl⟩ := Option.map_eq_some_iff.mp hfound
      exact ⟨twin.text, rfl⟩
    · cases hfound
  · obtain rfl := List.mem_singleton.mp hself
    exact ⟨record.id, rfl⟩

/-- The record at a position was filed, or is the root section, and holds its key there. -/
theorem held_of_value {records : List Record} {position : Nat} {record : Record}
    (hrecord : (empty.insertAll records).records.values[position]? = some record) :
    record ∈ root :: filings records ∧
      (empty.insertAll records).records.get? record.key = some record ∧
      (empty.insertAll records).records.indices.get? record.key = some position := by
  rw [KeyMap.values, List.getElem?_map] at hrecord
  obtain ⟨⟨key, held⟩, hentry, rfl⟩ := Option.map_eq_some_iff.mp hrecord
  have hget := KeyMap.mem_entries_iff.mp (List.mem_of_getElem? hentry)
  obtain ⟨hfiled, rfl⟩ := (filed_insertAll records).mem_of_get? hget
  exact ⟨hfiled, hget, KeyMap.get?_indices_iff.mpr ⟨held, hentry⟩⟩

end SymbolTree.Collection
