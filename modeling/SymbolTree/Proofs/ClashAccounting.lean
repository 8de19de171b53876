import SymbolTree.Proofs.Entries
import Mathlib.Data.Set.Card

/-!
# Exact clash accounting

Each filing of a record ends as a node or as a clash of the collection. Each node is the root
section, loses its key in a clash when sections are guessed, is a section with a place, or requests
an id; and each request ends as an entry of the lookup or as a clash. Adding up these equations
leaves the number of clashes as what the filings exceed the entries and the placed sections by.
-/

namespace SymbolTree

namespace Forest

/-- Guessing sections ends no request but reports the nodes that lose their key. -/
theorem requests_assignSections (forest : Forest) :
    forest.assignSections.requests = forest.requests + forest.sectionLosers.length := by
  rw [requests, requests, lookup_assignSections, droppedLocations_assignSections,
    List.length_append, List.length_map, Nat.add_assoc]

/-- A resolution requests an id for every node that keeps its key and is no section. -/
theorem requests_resolve (settings : Settings) (forest : Forest) :
    (forest.resolve settings).requests =
      forest.requests + forest.sectionLosers.length +
        forest.assignSections.keys.values.countP fun id => !(forest.node id).isSection := by
  have hlater : (forest.resolve settings).requests =
      forest.assignSections.nest.classify.requests :=
    requests_eq_of_account_eq ((account_assignPartitions settings _).trans
      (account_linkRelations _))
  rw [hlater, requests_classify, requests_nest, requests_assignSections]
  simp only [node_assignSections]

end Forest

namespace Collection

/-- The root section is a section. -/
private theorem isSection_root {collection : Collection} {id : NodeId}
    (hroot : collection.records.values[id]? = some root) :
    ((Forest.ofCollection collection).node id).isSection = true :=
  Forest.view_node_ofCollection (fun _ _ => rfl) hroot

/-- After any sequence of insertions and for all settings, the clashes in the resolved tree, its
entries and the sections that can be reached in it add up to the records that were filed: the
inserted ones and their twins. -/
theorem clash_accounting (records : List Record) (settings : Settings) :
    let tree := (empty.insertAll records).resolve settings
    tree.diagnostics.countP (·.isNameClash) + tree.size +
        Set.ncard {id | tree.ownership.Reachable id ∧ (tree.node id).isSection = true} =
      (filings records).length := by
  intro tree
  obtain ⟨rootId, hkey, hrecord⟩ := exists_root records
  let collection := empty.insertAll records
  let forest := Forest.ofCollection collection
  let seated := forest.assignSections.seated
  let isSection (id : NodeId) : Bool := (forest.node id).isSection
  have hnestable := Forest.nestable_assignSections hkey
  -- What the collection has done, and who is left for nesting.
  have hfiled : collection.records.size + (droppedLocations collection.diagnostics).length =
      (filings records).length + 1 := (filed_insertAll records).size_eq
  have hnodes : seated.length + 1 + forest.sectionLosers.length = collection.records.size := by
    have hperm := (Forest.seated_perm hkey).length_eq
    rwa [List.length_append, List.length_cons, List.length_range] at hperm
  have hstart : forest.requests = (droppedLocations collection.diagnostics).length := by
    rw [Forest.requests, Forest.lookup_ofCollection, Forest.diagnostics_ofCollection]
    exact Nat.zero_add _
  have hasked : forest.assignSections.keys.values.countP (fun id => !isSection id) =
      seated.countP fun id => !isSection id := by
    have hroot : isSection rootId = true := isSection_root hrecord
    rw [hnestable.values_perm.countP_eq, List.countP_cons_of_neg]
    simp [hroot]
  have hrequests : tree.size + tree.diagnostics.countP (·.isNameClash) =
      forest.requests + forest.sectionLosers.length + seated.countP fun id => !isSection id := by
    rw [countP_isNameClash, ← hasked]
    exact Forest.requests_resolve settings forest
  have hsections : Set.ncard {id | tree.ownership.Reachable id ∧ (tree.node id).isSection = true} =
      seated.countP isSection := by
    have hset : {id | tree.ownership.Reachable id ∧ (tree.node id).isSection = true} =
        ((seated.filter isSection).toFinset : Set NodeId) := by
      ext id
      have hsame : (tree.node id).isSection = isSection id :=
        Forest.isSection_resolve settings forest id
      have hreach : tree.ownership.Reachable id ↔ id ∈ seated :=
        reachable_resolve_iff hkey settings
      simp [hsame, hreach]
    rw [hset, Set.ncard_coe_finset, List.toFinset_card_of_nodup (hnestable.nodup_seated.filter _),
      List.countP_eq_length_filter]
  have hsplit := List.length_eq_countP_add_countP isSection (l := seated)
  simp only [Bool.not_eq_true, Bool.decide_eq_false] at hsplit
  omega

end Collection

end SymbolTree
