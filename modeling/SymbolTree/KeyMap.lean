/-!
# Finite maps keyed by text

A `KeyMap` lists its entries in strictly increasing key order. Two maps with the same bindings are
therefore the same value, and reading the entries from left to right is reading them in key order.
Keys are ordered by Unicode scalar values, which is also the order of their UTF-8 bytes.
-/

namespace SymbolTree

/-- Entries in strictly increasing key order. -/
def KeysIncrease {α : Type} (entries : List (String × α)) : Prop :=
  entries.Pairwise fun a b => a.1 < b.1

/-- Bind `key` to `value` in an increasing list, replacing an earlier binding. -/
def insertEntry {α : Type} (key : String) (value : α) : List (String × α) → List (String × α)
  | [] => [(key, value)]
  | entry :: rest =>
    if key < entry.1 then (key, value) :: entry :: rest
    else if entry.1 = key then (key, value) :: rest
    else entry :: insertEntry key value rest

/-- Every entry after an insertion is the new one or an old one. -/
theorem mem_insertEntry {α : Type} {key : String} {value : α} {entries : List (String × α)}
    {entry : String × α} (h : entry ∈ insertEntry key value entries) :
    entry = (key, value) ∨ entry ∈ entries := by
  induction entries with
  | nil => simpa [insertEntry] using h
  | cons first rest ih =>
    simp only [insertEntry] at h
    split at h
    · simpa using h
    · split at h
      · rcases List.mem_cons.mp h with h | h
        · exact .inl h
        · exact .inr (List.mem_cons_of_mem _ h)
      · rcases List.mem_cons.mp h with h | h
        · exact .inr (h ▸ List.mem_cons_self)
        · exact (ih h).imp_right (List.mem_cons_of_mem _)

/-- Insertion keeps the keys increasing. -/
theorem keysIncrease_insertEntry {α : Type} {key : String} {value : α}
    {entries : List (String × α)} (h : KeysIncrease entries) :
    KeysIncrease (insertEntry key value entries) := by
  induction entries with
  | nil => simp [insertEntry, KeysIncrease]
  | cons first rest ih =>
    obtain ⟨hfirst, hrest⟩ := List.pairwise_cons.mp h
    simp only [insertEntry]
    split
    · rename_i hlt
      refine List.pairwise_cons.mpr ⟨fun entry hentry => ?_, h⟩
      rcases List.mem_cons.mp hentry with rfl | hmem
      · exact hlt
      · exact String.lt_trans hlt (hfirst entry hmem)
    · split
      · rename_i heq
        exact List.pairwise_cons.mpr ⟨fun entry hentry => heq ▸ hfirst entry hentry, hrest⟩
      · rename_i hnlt hne
        refine List.pairwise_cons.mpr ⟨fun entry hentry => ?_, ih hrest⟩
        rcases mem_insertEntry hentry with rfl | hmem
        · exact Decidable.byContradiction fun hnot =>
            hne (String.le_antisymm (String.not_lt.mp hnlt) (String.not_lt.mp hnot))
        · exact hfirst entry hmem

/-- After an insertion the new key has the new value, and other keys have what they had. -/
theorem lookup_insertEntry {α : Type} (key : String) (value : α) (entries : List (String × α))
    (k : String) :
    (insertEntry key value entries).lookup k
      = if k = key then some value else entries.lookup k := by
  induction entries with
  | nil =>
    by_cases hk : k = key
    · simp [insertEntry, hk]
    · have hkey : (k == key) = false := by simpa using hk
      simp [insertEntry, List.lookup_cons, hk, hkey]
  | cons entry rest ih =>
    obtain ⟨held, old⟩ := entry
    by_cases hk : k = key
    · subst hk
      by_cases hlt : k < held
      · simp [insertEntry, hlt]
      · by_cases heq : held = k
        · simp [insertEntry, heq]
        · have hne : (k == held) = false := by simpa using Ne.symm heq
          simpa [insertEntry, hlt, heq, List.lookup_cons, hne] using ih
    · have hkey : (k == key) = false := by simpa using hk
      by_cases hlt : key < held
      · simp [insertEntry, hlt, List.lookup_cons, hk, hkey]
      · by_cases heq : held = key
        · simp [insertEntry, heq, List.lookup_cons, hk, hkey]
        · simp [insertEntry, hlt, heq, List.lookup_cons, hk, ih]

/-- A key that can be looked up occurs in the list. -/
theorem mem_map_fst_of_lookup {α : Type} {key : String} {value : α} {entries : List (String × α)}
    (h : entries.lookup key = some value) : key ∈ entries.map (·.1) := by
  induction entries with
  | nil => simp at h
  | cons entry rest ih =>
    by_cases heq : key = entry.1
    · simp [heq]
    · have hne : (key == entry.1) = false := by simpa using heq
      rw [List.lookup_cons, hne] at h
      exact List.mem_cons_of_mem _ (ih h)

/-- A finite map from text to values, its entries listed by increasing key. -/
structure KeyMap (α : Type) where
  /-- The bindings, by increasing key. -/
  entries : List (String × α)
  /-- No key occurs twice, and later keys are larger. -/
  increasing : KeysIncrease entries

namespace KeyMap

variable {α β : Type}

/-- Maps with the same entries are equal. -/
@[ext] theorem ext {a b : KeyMap α} (h : a.entries = b.entries) : a = b := by
  cases a
  cases b
  cases h
  rfl

/-- The map without bindings. -/
def empty : KeyMap α := ⟨[], List.Pairwise.nil⟩

instance : Inhabited (KeyMap α) := ⟨empty⟩

instance [BEq α] : BEq (KeyMap α) := ⟨fun a b => a.entries == b.entries⟩

/-- The keys in increasing order. -/
def keys (map : KeyMap α) : List String := map.entries.map (·.1)

/-- The bound values, in the order of their keys. -/
def values (map : KeyMap α) : List α := map.entries.map (·.2)

/-- The number of bindings. -/
def size (map : KeyMap α) : Nat := map.entries.length

/-- The value bound to `key`. -/
def get? (map : KeyMap α) (key : String) : Option α := map.entries.lookup key

/-- Whether `key` is bound. -/
def contains (map : KeyMap α) (key : String) : Bool := (map.get? key).isSome

/-- Bind `key` to `value`, replacing an earlier binding. -/
def insert (map : KeyMap α) (key : String) (value : α) : KeyMap α :=
  ⟨insertEntry key value map.entries, keysIncrease_insertEntry map.increasing⟩

/-- Looking up after an insertion. -/
theorem get?_insert (map : KeyMap α) (key : String) (value : α) (k : String) :
    (map.insert key value).get? k = if k = key then some value else map.get? k :=
  lookup_insertEntry key value map.entries k

/-- A key that is bound occurs among the keys. -/
theorem mem_keys_of_get? {map : KeyMap α} {key : String} {value : α}
    (h : map.get? key = some value) : key ∈ map.keys :=
  mem_map_fst_of_lookup h

/-- Bind `key` to `value` unless it is bound already. -/
def insertIfNew (map : KeyMap α) (key : String) (value : α) : KeyMap α :=
  if map.contains key then map else map.insert key value

/-- Keep the bindings that satisfy `keep`. -/
def filter (keep : String → α → Bool) (map : KeyMap α) : KeyMap α :=
  ⟨map.entries.filter fun entry => keep entry.1 entry.2,
    List.Pairwise.sublist List.filter_sublist map.increasing⟩

/-- Remove the binding of `key`. -/
def erase (map : KeyMap α) (key : String) : KeyMap α := map.filter fun k _ => k != key

/-- Each key with its position. -/
def indices (map : KeyMap α) : KeyMap Nat :=
  ⟨map.entries.zipIdx.map fun entry => (entry.1.1, entry.2), by
    have h := map.increasing
    unfold KeysIncrease at h ⊢
    rw [← List.zipIdx_map_fst 0 map.entries, List.pairwise_map] at h
    exact List.pairwise_map.mpr h⟩

/-- Bind every pair in turn, so the last pair with a key decides. -/
def ofList (pairs : List (String × α)) : KeyMap α :=
  pairs.foldl (fun map pair => map.insert pair.1 pair.2) empty

end KeyMap

end SymbolTree
