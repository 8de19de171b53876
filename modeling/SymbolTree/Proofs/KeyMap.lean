import SymbolTree.KeyMap
import Mathlib.Data.List.Perm.Lattice
import Mathlib.Data.List.Sort

/-!
# Bindings of key maps

A key map is determined by its bindings, and an update changes the list of entries by one
entry up to order. The stages of a resolution account for nodes and clashes through these
permutations, so they are stated for whole entries.
-/

namespace SymbolTree.KeyMap

variable {α : Type}

/-- No key is listed twice. -/
theorem nodup_keys (map : KeyMap α) : map.keys.Nodup := by
  have hincreasing : map.keys.Pairwise (· < ·) := List.pairwise_map.mpr map.increasing
  refine hincreasing.imp ?_
  rintro a _ hlt rfl
  exact String.lt_irrefl a hlt

/-- No entry is listed twice. -/
theorem nodup_entries (map : KeyMap α) : map.entries.Nodup := map.nodup_keys.of_map _

private theorem lookup_eq_some_iff_mem {entries : List (String × α)}
    (hnodup : (entries.map (·.1)).Nodup) {key : String} {value : α} :
    entries.lookup key = some value ↔ (key, value) ∈ entries := by
  induction entries with
  | nil => simp
  | cons entry rest ih =>
    obtain ⟨held, bound⟩ := entry
    obtain ⟨hfresh, hrest⟩ := List.nodup_cons.mp hnodup
    by_cases heq : key = held
    · subst heq
      have hnone : (key, value) ∉ rest := fun hmem =>
        hfresh (List.mem_map.mpr ⟨(key, value), hmem, rfl⟩)
      simp [hnone, eq_comm]
    · have hne : (key == held) = false := by simpa using heq
      rw [List.lookup_cons, hne, ih hrest]
      simp [heq]

/-- The entries are exactly the bindings. -/
theorem mem_entries_iff {map : KeyMap α} {key : String} {value : α} :
    (key, value) ∈ map.entries ↔ map.get? key = some value :=
  (lookup_eq_some_iff_mem map.nodup_keys).symm

/-- The values are those that some key is bound to. -/
theorem mem_values_iff {map : KeyMap α} {value : α} :
    value ∈ map.values ↔ ∃ key, map.get? key = some value := by
  simp [values, ← mem_entries_iff]

/-- A key is listed exactly when it is bound. -/
theorem mem_keys_iff {map : KeyMap α} {key : String} :
    key ∈ map.keys ↔ ∃ value, map.get? key = some value := by
  simp [keys, ← mem_entries_iff]

/-- Whether a key is bound can be read off the keys. -/
theorem contains_iff_mem_keys {map : KeyMap α} {key : String} :
    map.contains key = true ↔ key ∈ map.keys := by
  rw [contains, Option.isSome_iff_exists, mem_keys_iff]

/-- The empty map binds nothing. -/
@[simp] theorem get?_empty (key : String) : (empty : KeyMap α).get? key = none := rfl

/-- Maps with the same bindings are equal. -/
theorem ext_get? {a b : KeyMap α} (h : ∀ key, a.get? key = b.get? key) : a = b := by
  have hperm : a.entries.Perm b.entries := by
    refine (List.perm_ext_iff_of_nodup a.nodup_entries b.nodup_entries).mpr ?_
    rintro ⟨key, value⟩
    rw [mem_entries_iff, mem_entries_iff, h]
  refine KeyMap.ext (hperm.eq_of_pairwise ?_ a.increasing b.increasing)
  intro x y _ _ hxy hyx
  exact absurd (String.lt_trans hxy hyx) (String.lt_irrefl _)

/-- Removing a key leaves the other bindings alone. -/
theorem get?_erase (map : KeyMap α) (key k : String) :
    (map.erase key).get? k = if k = key then none else map.get? k := by
  refine Option.ext fun value => ?_
  rw [← mem_entries_iff]
  by_cases hk : k = key <;> simp [erase, filter, hk, mem_entries_iff]

/-- Removing a key that is not bound changes nothing. -/
theorem erase_eq_self {map : KeyMap α} {key : String} (h : map.get? key = none) :
    map.erase key = map := by
  refine ext_get? fun k => ?_
  by_cases hk : k = key <;> simp [get?_erase, hk, h]

/-- Binding a key that may be bound already changes nothing but this key, and that only if it is
not. -/
theorem get?_insertIfNew (map : KeyMap α) (key : String) (value : α) (k : String) :
    (map.insertIfNew key value).get? k = (map.get? k).or (if k = key then some value else none) := by
  unfold insertIfNew contains
  cases hbound : map.get? key with
  | none => by_cases hk : k = key <;> simp [get?_insert, hk, hbound]
  | some held => by_cases hk : k = key <;> simp [hk, hbound]

/-- Entries whose keys may be bound already are bound where they are not, the first of each key. -/
theorem get?_foldl_insertIfNew (entries : List (String × α)) (map : KeyMap α) (k : String) :
    (entries.foldl (fun map entry => map.insertIfNew entry.1 entry.2) map).get? k =
      (map.get? k).or (entries.lookup k) := by
  induction entries generalizing map with
  | nil => simp
  | cons entry entries ih =>
    rw [List.foldl_cons, ih, get?_insertIfNew, Option.or_assoc, List.lookup_cons]
    by_cases hk : k = entry.1
    · simp [hk]
    · have hne : (k == entry.1) = false := by simpa using hk
      rw [if_neg hk, hne, Option.none_or]

/-- An entry whose key is larger than all others comes last. -/
private theorem insertEntry_of_forall_lt {key : String} {entries : List (String × α)}
    (hlt : ∀ entry ∈ entries, entry.1 < key) (value : α) :
    insertEntry key value entries = entries ++ [(key, value)] := by
  induction entries with
  | nil => rfl
  | cons entry entries ih =>
    obtain ⟨hentry, hrest⟩ := List.forall_mem_cons.mp hlt
    have hne : entry.1 ≠ key := fun heq => String.lt_irrefl key (heq ▸ hentry)
    rw [insertEntry, if_neg (String.lt_asymm hentry), if_neg hne, ih hrest, List.cons_append]

/-- Entries whose keys go on increasing come behind those that are there already. -/
private theorem entries_foldl_insert {entries : List (String × α)} {map : KeyMap α}
    (hincreasing : KeysIncrease (map.entries ++ entries)) :
    (entries.foldl (fun map entry => map.insert entry.1 entry.2) map).entries =
      map.entries ++ entries := by
  induction entries generalizing map with
  | nil => simp
  | cons entry entries ih =>
    have hlast : (map.insert entry.1 entry.2).entries = map.entries ++ [entry] :=
      insertEntry_of_forall_lt (fun held hheld =>
        (List.pairwise_append.mp hincreasing).2.2 held hheld entry List.mem_cons_self) entry.2
    have hsplit : map.entries ++ entry :: entries =
        (map.insert entry.1 entry.2).entries ++ entries := by simp [hlast]
    rw [List.foldl_cons, hsplit]
    exact ih (hsplit ▸ hincreasing)

/-- A map is rebuilt from its entries. -/
theorem ofList_entries (map : KeyMap α) : ofList map.entries = map := by
  have hentries : (ofList map.entries).entries = empty.entries ++ map.entries :=
    entries_foldl_insert map.increasing
  exact KeyMap.ext hentries

/-- A bound key contributes one entry. -/
theorem entries_perm_of_get? {map : KeyMap α} {key : String} {value : α}
    (h : map.get? key = some value) :
    map.entries.Perm ((key, value) :: (map.erase key).entries) := by
  have hfresh : (key, value) ∉ (map.erase key).entries := by
    simp [mem_entries_iff, get?_erase]
  refine (List.perm_ext_iff_of_nodup map.nodup_entries
    (List.nodup_cons.mpr ⟨hfresh, nodup_entries _⟩)).mpr ?_
  rintro ⟨k, bound⟩
  rw [List.mem_cons, mem_entries_iff, mem_entries_iff, get?_erase]
  by_cases hk : k = key
  · subst hk
    simp [h, eq_comm]
  · simp [hk]

/-- An insertion adds one entry to what the other keys are bound to. -/
theorem entries_insert_perm (map : KeyMap α) (key : String) (value : α) :
    (map.insert key value).entries.Perm ((key, value) :: (map.erase key).entries) := by
  have herase : (map.insert key value).erase key = map.erase key := by
    refine ext_get? fun k => ?_
    by_cases hk : k = key <;> simp [get?_erase, get?_insert, hk]
  rw [← herase]
  exact entries_perm_of_get? (by simp [get?_insert])

/-- A bound key contributes one value. -/
theorem values_perm_of_get? {map : KeyMap α} {key : String} {value : α}
    (h : map.get? key = some value) : map.values.Perm (value :: (map.erase key).values) :=
  (entries_perm_of_get? h).map Prod.snd

/-- An insertion adds one value to those of the other keys. -/
theorem values_insert_perm (map : KeyMap α) (key : String) (value : α) :
    (map.insert key value).values.Perm (value :: (map.erase key).values) :=
  (map.entries_insert_perm key value).map Prod.snd

/-- A bound key counts for one. -/
theorem size_erase_of_get? {map : KeyMap α} {key : String} {value : α}
    (h : map.get? key = some value) : map.size = (map.erase key).size + 1 :=
  (entries_perm_of_get? h).length_eq

/-- After an insertion the key counts for one. -/
theorem size_insert (map : KeyMap α) (key : String) (value : α) :
    (map.insert key value).size = (map.erase key).size + 1 :=
  (map.entries_insert_perm key value).length_eq

/-- Binding a new key makes a map larger by one. -/
theorem size_insert_of_get?_eq_none {map : KeyMap α} {key : String} (value : α)
    (h : map.get? key = none) : (map.insert key value).size = map.size + 1 := by
  rw [size_insert, erase_eq_self h]

/-- Binding a bound key again keeps the size. -/
theorem size_insert_of_get? {map : KeyMap α} {key : String} {held : α} (value : α)
    (h : map.get? key = some held) : (map.insert key value).size = map.size := by
  rw [size_insert, size_erase_of_get? h]

/-- A map whose values are distinct binds no two keys to one value. -/
theorem get?_inj_of_nodup_values {map : KeyMap α} (hnodup : map.values.Nodup)
    {a b : String} {value : α} (ha : map.get? a = some value) (hb : map.get? b = some value) :
    a = b := by
  have hpair : (a, value) = (b, value) :=
    List.inj_on_of_nodup_map hnodup (mem_entries_iff.mpr ha) (mem_entries_iff.mpr hb) rfl
  exact congrArg Prod.fst hpair

/-- The positions of the keys are numbered from zero. -/
theorem values_indices (map : KeyMap α) : map.indices.values = List.range map.size := by
  have hcomp : (fun entry : String × Nat => entry.2) ∘
      (fun entry : (String × α) × Nat => (entry.1.1, entry.2)) = Prod.snd := rfl
  simp [values, indices, hcomp, List.zipIdx_map_snd, size, List.range_eq_range']

/-- A key has the position of its entry. -/
theorem get?_indices_iff {map : KeyMap α} {key : String} {position : Nat} :
    map.indices.get? key = some position ↔
      ∃ value, map.entries[position]? = some (key, value) := by
  rw [← mem_entries_iff]
  simp [indices, List.mem_zipIdx_iff_getElem?]

end SymbolTree.KeyMap
