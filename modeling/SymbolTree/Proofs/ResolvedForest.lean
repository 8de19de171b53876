import SymbolTree.Proofs.Declarations
import SymbolTree.Proofs.Evaluation
import SymbolTree.Proofs.Filing
import SymbolTree.Proofs.Ownership.Lifting

/-!
# A resolved tree is a forest

Nesting makes a forest of owned edges, classification touches no edge, and every later stage keeps a
well-linked forest with the same members. The members are all nodes but the root section and those
that lost their key when sections were guessed.
-/

namespace SymbolTree

open scoped List

namespace Forest

variable {forest : Forest} {root : NodeId}

private theorem top_enter (forest : Forest) (id : String) (incoming : NodeId) :
    (forest.enter id incoming).top = forest.top := by
  cases hheld : forest.lookup.get? id with
  | none => rw [enter_of_free hheld]
  | some holder => rw [enter_of_held hheld]

private theorem top_renameEntry (forest : Forest) (rename : String × NodeId) :
    (forest.renameEntry rename).top = forest.top := by
  unfold renameEntry
  split
  · exact top_enter _ _ _
  · rfl

/-- Classification leaves the top alone. -/
theorem top_classify (forest : Forest) : forest.classify.top = forest.top := by
  unfold classify classifyAlong
  simp only
  rw [foldl_keeps top fun forest rename _ => top_renameEntry forest rename]
  exact foldl_keeps top
    (fun forest id _ => show (forest.modify id classifyNode).top = forest.top from rfl) forest

/-- Nested and classified nodes form a forest of owned edges. -/
theorem Nestable.allOwned_classify (h : forest.Nestable root) :
    forest.nest.classify.AllOwned forest.seated forest.keyLength := by
  have hnested : forest.nest.AllOwned forest.seated forest.keyLength :=
    ⟨h.isForest_nest, h.isOwned_top_nest, h.isOwned_nest⟩
  exact hnested.of_children_eq (top_classify _)
    (column_classify (view_classifyNode fun _ _ _ => rfl) _)

/-- A resolution whose sections are guessed ends with a well-linked forest of the seated nodes. -/
theorem Nestable.wellLinked (h : forest.Nestable root) (settings : Settings) :
    (forest.nest.classify.linkRelations.assignPartitions settings).WellLinked
      forest.seated forest.keyLength :=
  h.allOwned_classify.linkRelations.assignPartitions settings

end Forest

namespace Collection

/-- The nodes of a collection before output files are assigned. -/
def linked (collection : Collection) : Forest :=
  (Forest.ofCollection collection).assignSections.nest.classify.linkRelations

/-- The linked nodes of a collection, along orders that are sorted by insertion. -/
theorem linked_eval (collection : Collection) :
    collection.linked = (Forest.ofCollection collection).linkedByInsertion :=
  Forest.linked_eval _

/-- Before output files are assigned, the seated nodes form a well-linked forest. -/
theorem wellLinked_linked {collection : Collection} {root : NodeId}
    (hroot : (Forest.ofCollection collection).keys.get? "" = some root) :
    collection.linked.WellLinked (Forest.ofCollection collection).assignSections.seated
      (Forest.ofCollection collection).assignSections.keyLength :=
  (Forest.nestable_assignSections hroot).allOwned_classify.linkRelations

/-- The root section has a node. -/
theorem exists_root (records : List Record) :
    ∃ id, (Forest.ofCollection (empty.insertAll records)).keys.get? "" = some id ∧
      (empty.insertAll records).records.values[id]? = some root :=
  Forest.exists_position (filed_insertAll records).root_held

/-- The nodes that can be reached are the seated ones. -/
theorem reachable_resolve_iff {collection : Collection} {root id : NodeId}
    (hroot : (Forest.ofCollection collection).keys.get? "" = some root) (settings : Settings) :
    (collection.resolve settings).ownership.Reachable id ↔
      id ∈ (Forest.ofCollection collection).assignSections.seated :=
  ((Forest.nestable_assignSections hroot).wellLinked settings).isForest.reachable_iff

/-- A node that can be reached has a filed record, which is not the root section. -/
theorem exists_record_of_reachable {records : List Record} {settings : Settings} {id : NodeId}
    (hreachable : ((empty.insertAll records).resolve settings).ownership.Reachable id) :
    ∃ record, (empty.insertAll records).records.values[id]? = some record ∧
      record ∈ filings records := by
  obtain ⟨rootId, hroot, _⟩ := exists_root records
  have hseated := (reachable_resolve_iff hroot settings).mp hreachable
  obtain ⟨hlt, hne, _⟩ := (Forest.mem_seated_iff hroot).mp hseated
  have hsize : id < (empty.insertAll records).records.values.length := by
    simpa [KeyMap.values, KeyMap.size] using hlt
  obtain ⟨record, hrecord⟩ :
      ∃ record, (empty.insertAll records).records.values[id]? = some record :=
    ⟨_, List.getElem?_eq_getElem hsize⟩
  refine ⟨record, hrecord, ?_⟩
  obtain ⟨hfiled, _, hindex⟩ := held_of_value hrecord
  rcases List.mem_cons.mp hfiled with rfl | hfiled
  · rw [Forest.keys_ofCollection] at hroot
    exact absurd (Option.some.inj (hindex.symm.trans hroot)) hne
  · exact hfiled

/-- Whether a node gets no place: it is the root section, or it loses its key to another node when
sections are guessed. -/
def Unplaced (collection : Collection) (id : NodeId) : Prop :=
  (Forest.ofCollection collection).keys.get? "" = some id ∨
    id ∈ (Forest.ofCollection collection).sectionLosers

/-- After any sequence of insertions and for all settings, the owned edges of the resolved tree form
a forest. Exactly one path of owned edges leads to every node, save the root section and the nodes
that lose a clash when sections are guessed, to which none leads. No chain of owned edges returns to
its start, and every edge leads to a node. -/
theorem resolve_isForest (records : List Record) (settings : Settings) :
    let collection := empty.insertAll records
    let tree := collection.resolve settings
    (∀ id < tree.nodes.size, ¬ collection.Unplaced id → ∃! path, tree.ownership.Path path id) ∧
    (∀ id < tree.nodes.size, collection.Unplaced id → ¬ ∃ path, tree.ownership.Path path id) ∧
    (∀ id, ¬ Relation.TransGen tree.ownership.Owns id id) ∧
    (∀ edge ∈ tree.top, edge.isOwned = true ∧ edge.child < tree.nodes.size) ∧
    (∀ id, ∀ edge ∈ (tree.node id).children, edge.child < tree.nodes.size) := by
  intro collection tree
  obtain ⟨root, hroot, _⟩ := exists_root records
  have hlinked := (Forest.nestable_assignSections hroot).wellLinked settings
  have hforest : tree.ownership.IsForest _ _ := hlinked.isForest
  have hsize : tree.nodes.size = collection.records.size := Forest.size_resolve settings collection
  have hmember {id : NodeId} (hid : id < tree.nodes.size) :
      id ∈ (Forest.ofCollection collection).assignSections.seated ↔ ¬ collection.Unplaced id := by
    rw [Forest.mem_seated_iff hroot, Unplaced, hroot, Option.some.injEq, not_or, ← hsize,
      eq_comm]
    exact ⟨fun h => h.2, fun h => ⟨hid, h⟩⟩
  refine ⟨fun id hid hplaced => ?_, fun id hid hunplaced => ?_, hforest.acyclic, ?_, ?_⟩
  · exact hforest.existsUnique_path ((hmember hid).mpr hplaced)
  · rintro ⟨path, hpath⟩
    exact (hmember hid).mp (hforest.mem_of_path hpath) hunplaced
  · intro edge hedge
    exact ⟨hlinked.isOwned_top hedge, hforest.lt_size (hforest.top_mem (List.mem_map_of_mem hedge))⟩
  · intro id edge hedge
    exact hlinked.child_lt_size hedge

end Collection

end SymbolTree
