import SymbolTree.Proofs.Nesting

/-!
# From records to nodes

A forest starts with one node per collected record, at the position of its key. Linking the bound
twins changes nothing but siblings, so any other attribute of a node is that of its record. Guessing
sections leaves the nodes that it does not drop ready for nesting.
-/

namespace SymbolTree.Forest

open scoped List

variable {α : Type} {view : Node → α} {collection : Collection}

/-- A forest starts with the keys and the clashes of the collection and with no place for a node. -/
theorem rest_ofCollection (collection : Collection) :
    (ofCollection collection).rest =
      { nodes := #[]
        keys := collection.records.indices
        top := []
        lookup := .empty
        diagnostics := collection.diagnostics } := by
  unfold ofCollection
  rw [foldl_keeps rest fun forest pair _ => rest_linkTwins forest pair]
  rfl

/-- The keys are those of the collection. -/
@[simp] theorem keys_ofCollection (collection : Collection) :
    (ofCollection collection).keys = collection.records.indices :=
  congrArg keys (rest_ofCollection collection)

/-- Clashes between records come first. -/
@[simp] theorem diagnostics_ofCollection (collection : Collection) :
    (ofCollection collection).diagnostics = collection.diagnostics :=
  congrArg diagnostics (rest_ofCollection collection)

/-- No id is entered yet. -/
@[simp] theorem lookup_ofCollection (collection : Collection) :
    (ofCollection collection).lookup = .empty :=
  congrArg lookup (rest_ofCollection collection)

/-- Every attribute but the sibling is that of the record. -/
theorem column_ofCollection (hsibling : ∀ node sibling,
      view { node with boundSibling := sibling } = view node) (collection : Collection) :
    (ofCollection collection).column view =
      (collection.records.values.map fun record => view (.ofRecord record)).toArray := by
  unfold ofCollection
  rw [foldl_keeps (column view) fun forest pair _ => column_linkTwins hsibling forest pair]
  simp [column, unlinked, Function.comp_def]

/-- There is one node per record. -/
@[simp] theorem size_ofCollection (collection : Collection) :
    (ofCollection collection).nodes.size = collection.records.size := by
  have hcolumn : (ofCollection collection).column Node.location = _ :=
    column_ofCollection (fun _ _ => rfl) collection
  simpa [KeyMap.values, KeyMap.size] using congrArg Array.size hcolumn

/-- A node has the attributes of its record. -/
theorem view_node_ofCollection (hsibling : ∀ node sibling,
      view { node with boundSibling := sibling } = view node) {id : NodeId} {record : Record}
    (hrecord : collection.records.values[id]? = some record) :
    view ((ofCollection collection).node id) = view (.ofRecord record) := by
  have hentry := congrArg (·[id]?) (column_ofCollection hsibling collection)
  simp only [column, Array.getElem?_map, List.getElem?_toArray, List.getElem?_map, hrecord]
    at hentry
  obtain ⟨node, hnode, hview⟩ := Option.map_eq_some_iff.mp hentry
  rw [Forest.node, Array.getD_eq_getD_getElem?, hnode, Option.getD_some, hview]

/-- A record has its node at the position of its key. -/
theorem exists_position {key : String} {record : Record}
    (hrecord : collection.records.get? key = some record) :
    ∃ id, (ofCollection collection).keys.get? key = some id ∧
      collection.records.values[id]? = some record := by
  obtain ⟨id, hid⟩ := List.mem_iff_getElem?.mp (KeyMap.mem_entries_iff.mpr hrecord)
  refine ⟨id, ?_, ?_⟩
  · rw [keys_ofCollection]
    exact KeyMap.get?_indices_iff.mpr ⟨_, hid⟩
  · rw [KeyMap.values, List.getElem?_map, hid]
    rfl

/-- What holds for every new node holds for every position. -/
theorem view_node_ofCollection_eq (hsibling : ∀ node sibling,
      view { node with boundSibling := sibling } = view node) {value : α}
    (hrecord : ∀ record, view (.ofRecord record) = value) (hdefault : view default = value)
    (collection : Collection) (id : NodeId) :
    view ((ofCollection collection).node id) = value := by
  cases hfound : collection.records.values[id]? with
  | some record => exact (view_node_ofCollection hsibling hfound).trans (hrecord record)
  | none =>
    have hsize := List.getElem?_eq_none_iff.mp hfound
    rw [node_eq_default, hdefault]
    simpa [KeyMap.values, KeyMap.size] using hsize

/-- No node has children yet. -/
theorem children_ofCollection (collection : Collection) (id : NodeId) :
    ((ofCollection collection).node id).children = [] :=
  view_node_ofCollection_eq (fun _ _ => rfl) (fun _ => rfl) rfl collection id

/-- Every node holds one key, after guessing, or lost one. -/
theorem keyed_or_lost_perm (collection : Collection) :
    (ofCollection collection).assignSections.keys.values
      ++ (ofCollection collection).sectionLosers ~ List.range collection.records.size := by
  have hperm := values_assignSections_perm (ofCollection collection)
  rwa [keys_ofCollection, KeyMap.values_indices] at hperm

/-- A collection with a root section is ready for nesting once its sections are guessed. -/
theorem nestable_assignSections {root : NodeId}
    (hroot : (ofCollection collection).keys.get? "" = some root) :
    (ofCollection collection).assignSections.Nestable root where
  nodup_values :=
    (List.nodup_append.mp ((keyed_or_lost_perm collection).nodup_iff.mpr List.nodup_range)).1
  lt_size {id} hid := by
    rw [nodes_assignSections, size_ofCollection]
    exact List.mem_range.mp
      ((keyed_or_lost_perm collection).mem_iff.mp (List.mem_append_left _ hid))
  children_eq id := by rw [node_assignSections, children_ofCollection]
  root_key := by rw [get?_keys_assignSections_root, hroot]

/-- The nodes are the root, the seated nodes and those that lost their key, once each. -/
theorem seated_perm {root : NodeId} (hroot : (ofCollection collection).keys.get? "" = some root) :
    root :: (ofCollection collection).assignSections.seated ++
      (ofCollection collection).sectionLosers ~ List.range collection.records.size :=
  ((nestable_assignSections hroot).values_perm.symm.append_right _).trans
    (keyed_or_lost_perm collection)

/-- A node is seated unless it is the root or lost its key. -/
theorem mem_seated_iff {root : NodeId} (hroot : (ofCollection collection).keys.get? "" = some root)
    {id : NodeId} :
    id ∈ (ofCollection collection).assignSections.seated ↔
      id < collection.records.size ∧ id ≠ root ∧ id ∉ (ofCollection collection).sectionLosers := by
  have hperm := seated_perm hroot
  have hnodup := hperm.nodup_iff.mpr List.nodup_range
  obtain ⟨hheld, _, hdisjoint⟩ := List.nodup_append.mp hnodup
  have hmem := hperm.mem_iff (a := id)
  rw [List.mem_append, List.mem_cons, List.mem_range] at hmem
  constructor
  · intro hid
    refine ⟨hmem.mp (.inl (.inr hid)), ?_, ?_⟩
    · rintro rfl
      exact (List.nodup_cons.mp hheld).1 hid
    · exact fun hlost => hdisjoint id (List.mem_cons_of_mem _ hid) id hlost rfl
  · rintro ⟨hlt, hne, hkept⟩
    rcases hmem.mpr hlt with (heq | hid) | hlost
    · exact absurd heq hne
    · exact hid
    · exact absurd hlost hkept

end SymbolTree.Forest
