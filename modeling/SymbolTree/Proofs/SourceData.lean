import SymbolTree.Proofs.Evaluation
import SymbolTree.Proofs.NothingLost

/-!
# Source data

Every node that can be reached stands for one collected record. A resolution names the node and
places it, but does not rewrite what the record says: only documentation that the record leaves out
is filled in, and only where the record names a source for it.
-/

namespace SymbolTree.Collection

/-- After any sequence of insertions and for all settings, every node that can be reached carries
exactly one collected record. It declares what the record declares: location, superclass, inherited
classes, alias, extension and source of documentation. Documentation that is there stays as it is,
and all documentation does unless the record names a source for it. -/
theorem source_data_kept (records : List Record) (settings : Settings) :
    let collection := empty.insertAll records
    let tree := collection.resolve settings
    ∀ id, tree.ownership.Reachable id →
      ∃! record, (collection.records.values[id]? = some record ∧ record ∈ filings records ∧
          collection.get? record.key = some record) ∧
        (tree.node id).Carries record ∧
        (record.inheritDoc = none →
          (tree.node id).description = record.description ∧
          (tree.node id).summary = record.summary ∧ (tree.node id).extra = record.extra) := by
  intro collection tree id hreachable
  obtain ⟨record, hrecord, hfiled⟩ := exists_record_of_reachable hreachable
  refine ⟨record, ⟨⟨hrecord, hfiled, (held_of_value hrecord).2.1⟩,
    Forest.carries_resolve hrecord settings, fun hnone => ?_⟩, fun other hother => ?_⟩
  · have hsource : ((Forest.ofCollection collection).node id).inheritDoc = none :=
      (Forest.view_node_ofCollection (fun _ _ => rfl) hrecord).trans hnone
    have hdocumented :=
      (Forest.documentation_resolve_of_inheritDoc_eq_none settings hsource).trans
        (Forest.view_node_ofCollection (fun _ _ => rfl) hrecord)
    obtain ⟨hdescription, hrest⟩ := Prod.mk.inj hdocumented
    obtain ⟨hsummary, hextra⟩ := Prod.mk.inj hrest
    exact ⟨hdescription, hsummary, hextra⟩
  · exact Option.some.inj (hother.1.1.symm.trans hrecord)

/-- A class with a description, and a class within it that copies its documentation. -/
def copiedDescription : List Record :=
  [{ id := "Ajax", kind := .class, description := "Talks to servers." },
    { id := "Ajax.Request", kind := .class, summary := "One request.", inheritDoc := some "Ajax" }]

/-- The outer class keeps its description, and the inner one copies it and keeps its own summary. -/
theorem source_data_kept_of_copiedDescription :
    let tree := (empty.insertAll copiedDescription).resolve {}
    tree.ownership.Reachable 1 ∧ (tree.node 1).description = "Talks to servers." ∧
      tree.ownership.Reachable 2 ∧ (tree.node 2).description = "Talks to servers." ∧
      (tree.node 2).summary = "One request." := by
  intro tree
  let collection := empty.insertAll copiedDescription
  let docs (record : Record) : String × String × Option String :=
    (record.description, record.summary, record.inheritDoc)
  have hcomputed : (Forest.ofCollection collection).assignSections.seated = [1, 2] ∧
      collection.records.values.map docs =
        [("", "", none), ("Talks to servers.", "", none), ("", "One request.", some "Ajax")] ∧
      (tree.node 2).description = "Talks to servers." := by
    simp only [tree, collection, docs, Forest.assignSections_eval, resolve, Forest.resolve_eval]
    decide +kernel
  obtain ⟨hseated, hdocs, hcopied⟩ := hcomputed
  obtain ⟨root, hroot, _⟩ := exists_root copiedDescription
  have hreach (id : NodeId) (hid : id ∈ [1, 2]) : tree.ownership.Reachable id :=
    (reachable_resolve_iff hroot {}).mpr (hseated ▸ hid)
  obtain ⟨outer, ⟨⟨houter, _⟩, _, hkept⟩, _⟩ :=
    source_data_kept copiedDescription {} 1 (hreach 1 (by decide))
  obtain ⟨inner, ⟨⟨hinner, _⟩, hcarries, _⟩, _⟩ :=
    source_data_kept copiedDescription {} 2 (hreach 2 (by decide))
  have houterDocs : (collection.records.values.map docs)[1]? = some (docs outer) := by
    rw [List.getElem?_map, houter, Option.map_some]
  have hinnerDocs : (collection.records.values.map docs)[2]? = some (docs inner) := by
    rw [List.getElem?_map, hinner, Option.map_some]
  rw [hdocs] at houterDocs hinnerDocs
  simp only [docs, List.getElem?_cons_succ, List.getElem?_cons_zero, Option.some.injEq,
    Prod.mk.injEq] at houterDocs hinnerDocs
  obtain ⟨hdescription, _, hnone⟩ := houterDocs
  obtain ⟨_, hsummary, _⟩ := hinnerDocs
  have hsummaryKept : (tree.node 2).summary = inner.summary :=
    hcarries.documents.summary_eq fun hempty => absurd (hsummary.trans hempty) (by decide)
  exact ⟨hreach 1 (by decide), (hkept hnone.symm).1.trans hdescription.symm, hreach 2 (by decide),
    hcopied, hsummaryKept.trans hsummary.symm⟩

end SymbolTree.Collection
