import SymbolTree.Proofs.Entries
import SymbolTree.Proofs.Reports

/-!
# Nothing is lost silently

A record can lose its key to another record when it is filed or to another node when sections are
guessed, and a node can lose its id when it is entered or renamed. Each loss is a clash that drops
the location of the loser, and no report is ever taken back.
-/

namespace SymbolTree

/-- A node carries a record: it declares the same and keeps the documentation that is there. -/
structure Node.Carries (node : Node) (record : Record) : Prop where
  /-- The node declares what the record declares. -/
  declaration_eq : node.declaration = record.declaration
  /-- The documentation of the record stays. -/
  documents : node.Documents (.ofRecord record)

namespace Forest

/-- The node of a record carries it to the end of a resolution. -/
theorem carries_resolve {collection : Collection} {id : NodeId} {record : Record}
    (hrecord : collection.records.values[id]? = some record) (settings : Settings) :
    (((ofCollection collection).resolve settings).node id).Carries record where
  declaration_eq :=
    (view_node_eq_of_column_eq (column_declaration_resolve settings _) id).trans
      (view_node_ofCollection (fun _ _ => rfl) hrecord)
  documents :=
    (documents_resolve settings _ id).trans
      (documents_of_eq (view_node_ofCollection (fun _ _ => rfl) hrecord))

/-- A seated node that is no section holds its final id or is dropped. -/
theorem Nestable.holdsOrDropped_resolve {forest : Forest} {root id : NodeId}
    (h : forest.Nestable root) (settings : Settings) (hid : id ∈ forest.seated)
    (hsection : (forest.node id).isSection = false) :
    let resolved := forest.nest.classify.linkRelations.assignPartitions settings
    resolved.HoldsOrDropped (resolved.node id).id id := by
  intro resolved
  have hnested : (forest.nest.node id).isSection = false := by
    rw [isSection_eq forest.types_nest, hsection]
  have hperm := placed_perm h.isForest_nest
  have hplaced : id ∈ forest.nest.placed :=
    hperm.mem_iff.mpr (List.mem_filter.mpr ⟨hid, by simp [hnested]⟩)
  have hnodup : forest.nest.placed.Nodup := hperm.nodup_iff.mpr (h.nodup_seated.filter _)
  have hclassified := HoldsOrDropped.classify hnodup hplaced (h.lt_size_of_seated hid)
    (h.holdsOrDropped_nest hid hnested)
  have hids : resolved.column Node.id = forest.nest.classify.column Node.id :=
    column_placed (fun _ _ => rfl) (fun _ _ _ _ _ _ _ => rfl) settings _
  have hlocations : resolved.column Node.location = forest.nest.classify.column Node.location :=
    column_placed (fun _ _ => rfl) (fun _ _ _ _ _ _ _ => rfl) settings _
  rw [view_node_eq_of_column_eq hids id]
  refine hclassified.of_account_eq ?_ (view_node_eq_of_column_eq hlocations id)
  exact (account_assignPartitions settings _).trans (account_linkRelations _)

end Forest

namespace Collection

/-- What is dropped before nodes are nested is reported in the resolved tree. -/
private theorem dropped_of_assignSections {collection : Collection} {location : SourceLocation}
    (hdropped : location ∈
      droppedLocations (Forest.ofCollection collection).assignSections.diagnostics)
    (settings : Settings) :
    location ∈ droppedLocations (collection.resolve settings).diagnostics := by
  obtain ⟨later, hlater⟩ :=
    (Forest.ofCollection collection).assignSections.exists_later_reports settings
  have htree : (collection.resolve settings).diagnostics =
      (Forest.ofCollection collection).assignSections.diagnostics ++ later := hlater
  rw [htree, droppedLocations_append]
  exact List.mem_append_left _ hdropped

/-- A clash between records is reported in the resolved tree. -/
private theorem dropped_of_collection {collection : Collection} {location : SourceLocation}
    (hdropped : location ∈ droppedLocations collection.diagnostics) (settings : Settings) :
    location ∈ droppedLocations (collection.resolve settings).diagnostics := by
  refine dropped_of_assignSections ?_ settings
  rw [Forest.droppedLocations_assignSections, Forest.diagnostics_ofCollection]
  exact List.mem_append_left _ hdropped

/-- A record that holds its key is carried by a node that can be reached, unless the key is the
root's or is lost when sections are guessed. -/
private theorem carried_or_dropped_of_held {records : List Record} {record : Record}
    (hheld : (empty.insertAll records).records.get? record.key = some record)
    (hkey : record.key ≠ "") (settings : Settings) :
    (∃ id, ((empty.insertAll records).resolve settings).ownership.Reachable id ∧
      (empty.insertAll records).records.values[id]? = some record) ∨
    record.location ∈
      droppedLocations ((empty.insertAll records).resolve settings).diagnostics := by
  let forest := Forest.ofCollection (empty.insertAll records)
  obtain ⟨rootId, hroot, _⟩ := exists_root records
  obtain ⟨id, hid, hvalue⟩ := Forest.exists_position hheld
  have hnodup : forest.keys.values.Nodup := by
    rw [Forest.keys_ofCollection, KeyMap.values_indices]
    exact List.nodup_range
  have hne : id ≠ rootId := by
    rintro rfl
    exact hkey (KeyMap.get?_inj_of_nodup_values hnodup hid hroot)
  have hsize : id < (empty.insertAll records).records.size := by
    simpa [KeyMap.values, KeyMap.size] using (List.getElem?_eq_some_iff.mp hvalue).1
  by_cases hlost : id ∈ forest.sectionLosers
  · right
    have hlocation : (forest.node id).location = record.location :=
      Forest.view_node_ofCollection (fun _ _ => rfl) hvalue
    refine dropped_of_assignSections ?_ settings
    rw [Forest.droppedLocations_assignSections]
    exact List.mem_append_right _ (List.mem_map.mpr ⟨id, hlost, hlocation⟩)
  · left
    have hseated := (Forest.mem_seated_iff hroot).mpr ⟨hsize, hne, hlost⟩
    exact ⟨id, (reachable_resolve_iff hroot settings).mpr hseated, hvalue⟩

/-- After any sequence of insertions and for all settings, every filed record, inserted or a twin,
is carried by a node that can be reached or has its location dropped by a clash; and every node that
can be reached and is no section is found under its id or has its location dropped by a clash. -/
theorem nothing_lost_silently (records : List Record) (settings : Settings) :
    let collection := empty.insertAll records
    let tree := collection.resolve settings
    (∀ record ∈ filings records,
      (∃ id, tree.ownership.Reachable id ∧ collection.records.values[id]? = some record ∧
        (tree.node id).Carries record) ∨
      ∃ key kept, Diagnostic.nameClash key kept record.location ∈ tree.diagnostics) ∧
    (∀ id, tree.ownership.Reachable id → (tree.node id).isSection = false →
      tree.lookup.get? (tree.node id).id = some id ∨
      ∃ key kept, Diagnostic.nameClash key kept (tree.node id).location ∈ tree.diagnostics) := by
  intro collection tree
  simp only [← mem_droppedLocations]
  refine ⟨fun record hrecord => ?_, fun id hreachable hsection => ?_⟩
  · rcases (filed_insertAll records).held_or_dropped (List.mem_cons_of_mem _ hrecord) with
      hheld | hdropped
    · by_cases hkey : record.key = ""
      · exact .inr (dropped_of_collection (dropped_of_key_empty hrecord hkey) settings)
      · refine (carried_or_dropped_of_held hheld hkey settings).imp_left ?_
        rintro ⟨id, hreachable, hvalue⟩
        exact ⟨id, hreachable, hvalue, Forest.carries_resolve hvalue settings⟩
    · exact .inr (dropped_of_collection hdropped settings)
  · obtain ⟨rootId, hroot, _⟩ := exists_root records
    have hseated := (reachable_resolve_iff hroot settings).mp hreachable
    have hnode : ((Forest.ofCollection collection).assignSections.node id).isSection = false := by
      rw [Forest.node_assignSections]
      exact (Forest.isSection_resolve settings _ id).symm.trans hsection
    exact (Forest.nestable_assignSections hroot).holdsOrDropped_resolve settings hseated hnode

end Collection

end SymbolTree
