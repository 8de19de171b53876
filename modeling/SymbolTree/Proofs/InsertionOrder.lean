import SymbolTree.Proofs.Origins
import SymbolTree.Proofs.Reports
import SymbolTree.Proofs.Twins

/-!
# The order of insertion

The holder of a key has least precedence among all records filed under it, whatever their order, so
records that share a key and a precedence only when they are equal leave the same collection. The
pairs of twins are then reordered, which makes no difference to their links, and the reports of the
collection differ, which no stage of a resolution reads.
-/

namespace SymbolTree.Collection

open Std
open scoped List

/-- Records with one key and one precedence are the same record. -/
def Unambiguous (records : List Record) : Prop :=
  ∀ a ∈ records, ∀ b ∈ records,
    a.key = b.key → a.precedence.compare b.precedence = .eq → a = b

/-- Two collections resolve alike: to the same nodes, top and lookup, with as many clashes between
records and the same diagnostics after these. -/
structure ResolveAlike (settings : Settings) (a b : Collection) : Prop where
  /-- The nodes are the same. -/
  nodes_eq : (a.resolve settings).nodes = (b.resolve settings).nodes
  /-- The top is the same. -/
  top_eq : (a.resolve settings).top = (b.resolve settings).top
  /-- The same ids are entered for the same nodes. -/
  lookup_eq : (a.resolve settings).lookup = (b.resolve settings).lookup
  /-- There are as many clashes between records. -/
  clashes_eq : a.diagnostics.countP (·.isNameClash) = b.diagnostics.countP (·.isNameClash)
  /-- The diagnostics after those of the collections are the same. -/
  later_eq : ∃ later, (a.resolve settings).diagnostics = a.diagnostics ++ later ∧
    (b.resolve settings).diagnostics = b.diagnostics ++ later

/-- A holder in one collection holds the same key in another one of the same records. -/
private theorem Filed.get?_of_perm {a b : Collection} {seen reordered : List Record}
    (ha : Filed a (root :: seen)) (hb : Filed b (root :: reordered)) (hperm : seen ~ reordered)
    (hunique : Unambiguous seen) {key : String} {holder : Record}
    (hheld : a.records.get? key = some holder) : b.records.get? key = some holder := by
  by_cases hroot : key = ""
  · subst hroot
    rw [hb.root_held, ← hheld, ha.root_held]
  have hseen {collection : Collection} {filed : List Record}
      (h : Filed collection (root :: filed)) {record : Record}
      (hget : collection.records.get? key = some record) : record ∈ filed := by
    obtain ⟨hmem, hkey⟩ := h.mem_of_get? hget
    rcases List.mem_cons.mp hmem with rfl | hmem
    · exact absurd hkey.symm hroot
    · exact hmem
  obtain ⟨_, hkey⟩ := ha.mem_of_get? hheld
  have hholder := hseen ha hheld
  obtain ⟨other, hother, hle⟩ :=
    hb.least (List.mem_cons_of_mem _ (hperm.mem_iff.mp hholder))
  rw [hkey] at hother
  obtain ⟨_, hotherKey⟩ := hb.mem_of_get? hother
  have hotherSeen := hperm.mem_iff.mpr (hseen hb hother)
  obtain ⟨least, hleast, hge⟩ := ha.least (List.mem_cons_of_mem _ hotherSeen)
  rw [hotherKey, hheld] at hleast
  obtain rfl := Option.some.inj hleast
  have hequal : holder = other :=
    hunique holder hholder other hotherSeen (hkey.trans hotherKey.symm)
      (OrientedCmp.isLE_antisymm hge hle)
  rw [hother, hequal]

/-- Reordering unambiguous records leaves the same records. -/
theorem records_insertAll_perm {records reordered : List Record} (hperm : records ~ reordered)
    (hunique : Unambiguous (filings records)) :
    (empty.insertAll records).records = (empty.insertAll reordered).records := by
  have hfilings : filings records ~ filings reordered := hperm.flatMap_right filed
  have hunique' : Unambiguous (filings reordered) := fun a ha b hb =>
    hunique a (hfilings.mem_iff.mpr ha) b (hfilings.mem_iff.mpr hb)
  refine KeyMap.ext_get? fun key => Option.ext fun holder => ⟨fun hheld => ?_, fun hheld => ?_⟩
  · exact (filed_insertAll records).get?_of_perm (filed_insertAll reordered) hfilings hunique hheld
  · exact (filed_insertAll reordered).get?_of_perm (filed_insertAll records) hfilings.symm hunique'
      hheld

/-- Reordering records keeps the number of clashes between them, if they leave the same records. -/
theorem clashes_insertAll_perm {records reordered : List Record} (hperm : records ~ reordered)
    (hrecords : (empty.insertAll records).records = (empty.insertAll reordered).records) :
    (empty.insertAll records).diagnostics.countP (·.isNameClash) =
      (empty.insertAll reordered).diagnostics.countP (·.isNameClash) := by
  have hsize := (filed_insertAll records).size_eq
  have hsize' := (filed_insertAll reordered).size_eq
  have hlength : (filings records).length = (filings reordered).length :=
    (hperm.flatMap_right filed).length_eq
  rw [hrecords] at hsize
  rw [List.length_cons] at hsize hsize'
  rw [countP_isNameClash, countP_isNameClash]
  omega

/-- The forest of a collection without the clashes between its records. -/
def cleanForest (collection : Collection) : Forest :=
  Forest.ofCollection { collection with diagnostics := [] }

/-- Clashes between records come before all other reports and have no influence on them. -/
theorem resolve_cleanForest (collection : Collection) (settings : Settings) :
    (Forest.ofCollection collection).resolve settings =
      Forest.after collection.diagnostics (collection.cleanForest.resolve settings) := by
  have hclean : Forest.ofCollection collection =
      Forest.after collection.diagnostics collection.cleanForest := by
    unfold cleanForest Forest.ofCollection
    rw [← Forest.foldl_after _ _ (Forest.linkTwins_after collection.diagnostics)]
    simp only [Forest.unlinked, Forest.after, List.append_nil]
  rw [hclean, Forest.resolve_after]

/-- Collections that start from the same forest, up to clashes between records, resolve alike. -/
theorem ResolveAlike.of_cleanForest_eq {a b : Collection} (settings : Settings)
    (hclean : a.cleanForest = b.cleanForest)
    (hclashes : a.diagnostics.countP (·.isNameClash) = b.diagnostics.countP (·.isNameClash)) :
    ResolveAlike settings a b := by
  have ha := a.resolve_cleanForest settings
  have hb := b.resolve_cleanForest settings
  rw [← hclean] at hb
  refine ⟨?_, ?_, ?_, hclashes, (a.cleanForest.resolve settings).diagnostics, ?_, ?_⟩ <;>
    simp only [resolve, ha, hb] <;> rfl

/-- Reordering unambiguous records makes no difference to where a resolution starts. -/
theorem cleanForest_insertAll_perm {records reordered : List Record} (hperm : records ~ reordered)
    (hunique : Unambiguous (filings records)) :
    (empty.insertAll records).cleanForest = (empty.insertAll reordered).cleanForest := by
  have hrecords := records_insertAll_perm hperm hunique
  have hpairs : (empty.insertAll records).boundPairs ~ (empty.insertAll reordered).boundPairs := by
    rw [boundPairs_insertAll, boundPairs_insertAll]
    exact hperm.filterMap twinKeys?
  unfold cleanForest Forest.ofCollection Forest.unlinked
  simp only [hrecords]
  refine Forest.foldl_linkTwins_perm hpairs (fun pair => isTwinPair_of_mem_boundPairs) ?_
  simp only [KeyMap.values_indices]
  exact List.nodup_range

/-- The collection of some source files, added in turn. -/
def ofFiles (files : List (SourcePath × SourceUnit)) : Collection :=
  files.foldl (fun collection file => collection.addFile file.1 file.2) empty

/-- A collection without what it knows about source files. -/
private def bare (collection : Collection) : Collection :=
  { collection with report := [], files := [] }

private theorem bare_file (collection : Collection) (key : String) (record : Record) :
    bare (collection.file key record) = (bare collection).file key record := by
  unfold file bare
  simp only
  split
  · rfl
  · split <;> rfl

private theorem bare_insert (collection : Collection) (record : Record) :
    bare (collection.insert record) = (bare collection).insert record := by
  unfold insert
  cases twin? record with
  | none => exact bare_file collection _ _
  | some twin =>
    simp only
    rw [bare_file, bare_file]
    rfl

/-- Adding source files inserts what they declare, one file after another. -/
private theorem bare_ofFiles (files : List (SourcePath × SourceUnit)) :
    bare (ofFiles files) = empty.insertAll (files.flatMap (·.2.records)) := by
  have hinsertAll (collection : Collection) (records : List Record) :
      bare (collection.insertAll records) = (bare collection).insertAll records :=
    (List.foldl_hom bare fun collection record => (bare_insert collection record).symm).symm
  have hrun : ∀ collection : Collection, bare (files.foldl
      (fun collection file => collection.addFile file.1 file.2) collection) =
        (bare collection).insertAll (files.flatMap (·.2.records)) := by
    induction files with
    | nil => exact fun _ => rfl
    | cons file files ih =>
      intro collection
      rw [List.foldl_cons, ih, addFile, hinsertAll, List.flatMap_cons, insertAll, insertAll,
        insertAll, List.foldl_append]
      rfl
  exact hrun empty

/-- What a collection knows about source files has no influence on its resolution. -/
private theorem ResolveAlike.of_bare {settings : Settings} {a b : Collection}
    (h : ResolveAlike settings (bare a) (bare b)) : ResolveAlike settings a b :=
  ⟨h.nodes_eq, h.top_eq, h.lookup_eq, h.clashes_eq, h.later_eq⟩

private theorem resolveAlike_insertAll {records reordered : List Record}
    (hperm : records ~ reordered) (hunique : Unambiguous (filings records)) (settings : Settings) :
    ResolveAlike settings (empty.insertAll records) (empty.insertAll reordered) :=
  .of_cleanForest_eq settings (cleanForest_insertAll_perm hperm hunique)
    (clashes_insertAll_perm hperm (records_insertAll_perm hperm hunique))

/-- Resolution does not depend on the order in which records are inserted or source files are added,
as long as two records or twins that share a key and a precedence are equal. -/
theorem resolve_ignores_order (settings : Settings) :
    (∀ records reordered : List Record, records ~ reordered → Unambiguous (filings records) →
      ResolveAlike settings (empty.insertAll records) (empty.insertAll reordered)) ∧
    (∀ files reordered : List (SourcePath × SourceUnit), files ~ reordered →
      Unambiguous (filings (files.flatMap (·.2.records))) →
      ResolveAlike settings (ofFiles files) (ofFiles reordered)) := by
  refine ⟨fun records reordered hperm hunique => resolveAlike_insertAll hperm hunique settings,
    fun files reordered hperm hunique => .of_bare ?_⟩
  rw [bare_ofFiles, bare_ofFiles]
  exact resolveAlike_insertAll (hperm.flatMap_right _) hunique settings

/-- A bound method, whose twin has the key of the next record. -/
def boundMethod : Record := { id := "A.b", kind := .method, line := 1, bound := true }

/-- An instance method. -/
def instanceMethod : Record := { id := "A#b", kind := .method, line := 2 }

/-- A bound method and an instance method that competes with its twin. -/
theorem resolve_ignores_order_of_competing_twin :
    Unambiguous (filings [boundMethod, instanceMethod]) ∧
      ResolveAlike {} (empty.insertAll [boundMethod, instanceMethod])
        (empty.insertAll [instanceMethod, boundMethod]) ∧
      ResolveAlike {} (ofFiles [(⟨"a"⟩, ⟨[boundMethod], []⟩), (⟨"b"⟩, ⟨[instanceMethod], []⟩)])
        (ofFiles [(⟨"b"⟩, ⟨[instanceMethod], []⟩), (⟨"a"⟩, ⟨[boundMethod], []⟩)]) := by
  have hfilings : filings [boundMethod, instanceMethod] =
      [{ boundMethod with id := "A#b" }, boundMethod, instanceMethod] := by rfl
  have hunique : Unambiguous (filings [boundMethod, instanceMethod]) := by
    rw [hfilings]
    intro a ha b hb hkey hequal
    simp only [List.mem_cons, List.not_mem_nil, or_false] at ha hb
    rcases ha with rfl | rfl | rfl <;> rcases hb with rfl | rfl | rfl <;>
      first
      | rfl
      | exact absurd hkey (by decide)
      | exact absurd hequal (by decide)
  exact ⟨hunique, (resolve_ignores_order {}).1 _ _ (.swap _ _ _) hunique,
    (resolve_ignores_order {}).2 _ _ (.swap _ _ _) hunique⟩

end SymbolTree.Collection
