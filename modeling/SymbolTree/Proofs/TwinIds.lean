import SymbolTree.Proofs.Addresses
import SymbolTree.Proofs.Twins

/-!
# The ids of bound twins

Twins are linked by their keys before any node has a place, and each is told the id of the other when
nodes are nested. Links are mutual because the pairs of keys form a matching. The ids are final unless
one of the keys is held by a constructor, which is renamed later, and both twins have a place unless
one of them loses its key when sections are guessed. Otherwise they refer to each other.
-/

namespace SymbolTree

open scoped List

namespace Forest

variable {forest : Forest} {root id sibling : NodeId}

/-- The two keys of a pair have the two nodes, in some order. -/
def PairHolds (keys : KeyMap NodeId) (pair : String × String) (id sibling : NodeId) : Prop :=
  keys.get? pair.1 = some id ∧ keys.get? pair.2 = some sibling ∨
    keys.get? pair.1 = some sibling ∧ keys.get? pair.2 = some id

/-- The order of the two nodes does not matter. -/
theorem PairHolds.symm {keys : KeyMap NodeId} {pair : String × String}
    (h : PairHolds keys pair id sibling) : PairHolds keys pair sibling id :=
  Or.symm h

/-- A sibling after linking a pair was there before or comes from the pair. -/
private theorem sibling_of_linkTwins {pair : String × String}
    (hsibling : ((forest.linkTwins pair).node id).boundSibling = some sibling) :
    (forest.node id).boundSibling = some sibling ∨ PairHolds forest.keys pair id sibling := by
  unfold linkTwins at hsibling
  split at hsibling
  · rename_i a b ha hb
    rw [node_modify] at hsibling
    split at hsibling
    · rename_i hsecond
      obtain rfl := Option.some.inj hsibling
      exact .inr (.inr ⟨ha, hsecond.1 ▸ hb⟩)
    · rw [node_modify] at hsibling
      split at hsibling
      · rename_i hfirst
        obtain rfl := Option.some.inj hsibling
        exact .inr (.inl ⟨hfirst.1 ▸ ha, hb⟩)
      · exact .inl hsibling
  · exact .inl hsibling

/-- Linking a pair gives its two nodes each other as siblings. -/
private theorem sibling_linkTwins {pair : String × String} (hne : id ≠ sibling)
    (hid : id < forest.nodes.size) (h : PairHolds forest.keys pair id sibling) :
    ((forest.linkTwins pair).node id).boundSibling = some sibling := by
  unfold linkTwins
  rcases h with ⟨hfirst, hsecond⟩ | ⟨hfirst, hsecond⟩
  · simp only [hfirst, hsecond]
    rw [node_modify_of_ne hne, node_modify_self hid]
  · simp only [hfirst, hsecond]
    rw [node_modify_self (by rwa [size_modify])]

/-- No node has a sibling before twins are linked. -/
private theorem boundSibling_unlinked (collection : Collection) (id : NodeId) :
    ((unlinked collection).node id).boundSibling = none := by
  rw [node, Array.getD_eq_getD_getElem?, unlinked, List.getElem?_toArray, List.getElem?_map]
  cases collection.records.values[id]? <;> rfl

/-- A sibling comes from a pair of twins. -/
private theorem exists_pair_of_boundSibling {collection : Collection}
    (hsibling : ((ofCollection collection).node id).boundSibling = some sibling) :
    ∃ pair ∈ collection.boundPairs, PairHolds collection.records.indices pair id sibling := by
  let Explained (later : Forest) : Prop := later.keys = collection.records.indices ∧
    ∀ id sibling, (later.node id).boundSibling = some sibling →
      ∃ pair ∈ collection.boundPairs, PairHolds collection.records.indices pair id sibling
  have hstart : Explained (unlinked collection) := by
    refine ⟨rfl, fun id sibling hfound => ?_⟩
    rw [boundSibling_unlinked] at hfound
    cases hfound
  have hend : Explained (ofCollection collection) := by
    refine List.foldlRecOn (motive := Explained) collection.boundPairs linkTwins hstart
      fun later hlater pair hpair => ?_
    obtain ⟨hkeys, hexplained⟩ := hlater
    refine ⟨(keys_eq_of_rest_eq (rest_linkTwins later pair)).trans hkeys,
      fun id sibling hfound => ?_⟩
    rcases sibling_of_linkTwins hfound with hold | hnew
    · exact hexplained id sibling hold
    · exact ⟨pair, hpair, hkeys ▸ hnew⟩
  exact hend.2 id sibling hsibling

/-- Linking twins keeps the keys and the number of nodes. -/
private theorem foldl_linkTwins_unlinked (collection : Collection)
    (pairs : List (String × String)) :
    (pairs.foldl linkTwins (unlinked collection)).keys = collection.records.indices ∧
      (pairs.foldl linkTwins (unlinked collection)).nodes.size = collection.records.size := by
  have hrest : (pairs.foldl linkTwins (unlinked collection)).rest = (unlinked collection).rest :=
    foldl_keeps rest (fun forest pair _ => rest_linkTwins forest pair) _
  have hcolumn : (pairs.foldl linkTwins (unlinked collection)).column Node.location =
      (unlinked collection).column Node.location :=
    foldl_keeps (column Node.location)
      (fun forest pair _ => column_linkTwins (fun _ _ => rfl) forest pair) _
  refine ⟨keys_eq_of_rest_eq hrest, ?_⟩
  rw [size_eq_of_column_eq hcolumn]
  simp [unlinked, KeyMap.values, KeyMap.size]

/-- The nodes of a pair of twins are siblings. -/
private theorem boundSibling_of_pair {collection : Collection}
    (hpairs : ∀ pair ∈ collection.boundPairs, Collection.IsTwinPair pair)
    {pair : String × String} (hpair : pair ∈ collection.boundPairs)
    (hholds : PairHolds collection.records.indices pair id sibling) :
    ((ofCollection collection).node id).boundSibling = some sibling := by
  have hnodup : collection.records.indices.values.Nodup := by
    rw [KeyMap.values_indices]
    exact List.nodup_range
  have hkeyed : id ∈ collection.records.indices.values := by
    rcases hholds with ⟨hkey, _⟩ | ⟨_, hkey⟩ <;> exact KeyMap.mem_values_iff.mpr ⟨_, hkey⟩
  have hne : id ≠ sibling := by
    rintro rfl
    have hkeys : pair.1 = pair.2 := by
      rcases hholds with ⟨hfirst, hsecond⟩ | ⟨hfirst, hsecond⟩ <;>
        exact KeyMap.get?_inj_of_nodup_values hnodup hfirst hsecond
    exact (hpairs pair hpair).ne hkeys
  -- Twins may be linked in any order, so this pair may as well come last.
  let others := collection.boundPairs.erase pair
  have hlast : collection.boundPairs ~ others ++ [pair] :=
    (List.perm_cons_erase hpair).trans (List.perm_append_singleton _ _).symm
  obtain ⟨hkeys, hsize⟩ := foldl_linkTwins_unlinked collection others
  rw [ofCollection, foldl_linkTwins_perm hlast hpairs hnodup, List.foldl_append]
  apply sibling_linkTwins hne
  · rw [hsize]
    exact List.mem_range.mp (KeyMap.values_indices _ ▸ hkeyed)
  · rw [hkeys]
    exact hholds

/-- A node has a sibling exactly when some pair of twins has their two nodes. -/
theorem boundSibling_ofCollection_iff {collection : Collection}
    (hpairs : ∀ pair ∈ collection.boundPairs, Collection.IsTwinPair pair) :
    ((ofCollection collection).node id).boundSibling = some sibling ↔
      ∃ pair ∈ collection.boundPairs, PairHolds collection.records.indices pair id sibling := by
  constructor
  · exact exists_pair_of_boundSibling
  · rintro ⟨pair, hpair, hholds⟩
    exact boundSibling_of_pair hpairs hpair hholds

/-- Siblings are mutual. -/
theorem boundSibling_symm {collection : Collection}
    (hpairs : ∀ pair ∈ collection.boundPairs, Collection.IsTwinPair pair)
    (h : ((ofCollection collection).node id).boundSibling = some sibling) :
    ((ofCollection collection).node sibling).boundSibling = some id := by
  obtain ⟨pair, hpair, hholds⟩ := (boundSibling_ofCollection_iff hpairs).mp h
  exact (boundSibling_ofCollection_iff hpairs).mpr ⟨pair, hpair, hholds.symm⟩

/-- A keyed node with a sibling is told its id, and no other node is told anything. -/
private theorem bound_nameTwin {seat : Seat} (hsize : seat.id < forest.nodes.size) (id : NodeId) :
    ((forest.nameTwin seat).node id).bound =
      if id = seat.id then
        ((forest.node id).boundSibling.map fun sibling => (forest.node sibling).id).or
          (forest.node id).bound
      else (forest.node id).bound := by
  unfold nameTwin
  by_cases hid : id = seat.id
  · rw [if_pos hid, ← hid]
    cases hsibling : (forest.node id).boundSibling with
    | none => rfl
    | some sibling =>
      simp only [Option.map_some, Option.some_or]
      rw [node_modify_self (hid ▸ hsize)]
  · rw [if_neg hid]
    split
    · rw [node_modify_of_ne hid]
    · rfl

/-- After naming twins, exactly the keyed nodes with siblings have been told their ids. -/
private theorem bound_foldl_nameTwin {seats : List Seat}
    (hsize : ∀ seat ∈ seats, seat.id < forest.nodes.size) (id : NodeId) :
    ((seats.foldl nameTwin forest).node id).bound =
      if id ∈ seats.map (·.id) then
        ((forest.node id).boundSibling.map fun sibling => (forest.node sibling).id).or
          (forest.node id).bound
      else (forest.node id).bound := by
  induction seats generalizing forest with
  | nil => rfl
  | cons seat seats ih =>
    have hids : (forest.nameTwin seat).column Node.id = forest.column Node.id :=
      column_nameTwin (fun _ _ => rfl) forest seat
    have hsiblings : (forest.nameTwin seat).column Node.boundSibling =
        forest.column Node.boundSibling := column_nameTwin (fun _ _ => rfl) forest seat
    have hrest (other : Seat) (hother : other ∈ seats) :
        other.id < (forest.nameTwin seat).nodes.size :=
      size_eq_of_column_eq hids ▸ hsize other (List.mem_cons_of_mem _ hother)
    rw [List.foldl_cons, ih hrest]
    simp only [view_node_eq_of_column_eq hids, view_node_eq_of_column_eq hsiblings,
      bound_nameTwin (hsize seat List.mem_cons_self), List.map_cons, List.mem_cons]
    by_cases hid : id = seat.id
    · simp only [hid, true_or, if_true]
      split
      · cases (forest.node seat.id).boundSibling <;> rfl
      · rfl
    · simp only [hid, false_or, if_false]

/-- Before twins are named, nesting keeps every attribute that depends neither on children nor on
names. -/
private theorem column_withTop {α : Type} {view : Node → α}
    (hchildren : ∀ node children, view { node with children } = view node)
    (hname : ∀ node id name ownerText path,
      view { node with id, name, ownerText, path } = view node) (forest : Forest) :
    forest.withTop.column view = forest.column view := by
  have hseated : forest.withChildren.column view = forest.column view :=
    foldl_keeps (column view)
      (fun forest seat _ => column_modify (fun node => hchildren node _) forest seat.id) forest
  have hnamed : forest.withNames.column view = forest.withChildren.column view :=
    foldl_keeps (column view)
      (fun forest seat _ => column_modify (view_nameNode hname seat.key) forest seat.id)
      forest.withChildren
  have hentered : forest.withEntries.column view = forest.withNames.column view :=
    foldl_keeps (column view)
      (fun forest seat _ => column_eq_of_nodes_eq (nodes_enterSeat forest seat)) forest.withNames
  exact (column_clearRoot hchildren _).trans (hentered.trans (hnamed.trans hseated))

/-- After nesting, a keyed node has the id of its sibling as bound id. -/
theorem Nestable.bound_nest (h : forest.Nestable root)
    (hbound : ∀ id, (forest.node id).bound = none) (hid : id ∈ forest.keys.values) :
    (forest.nest.node id).bound =
      (forest.node id).boundSibling.map fun sibling => (forest.nest.node sibling).id := by
  have hids : forest.nest.column Node.id = forest.withTop.column Node.id :=
    foldl_keeps (column Node.id)
      (fun forest seat _ => column_nameTwin (fun _ _ => rfl) forest seat) forest.withTop
  have hsiblings : forest.withTop.column Node.boundSibling = forest.column Node.boundSibling :=
    column_withTop (fun _ _ => rfl) (fun _ _ _ _ _ => rfl) forest
  have hbounds : forest.withTop.column Node.bound = forest.column Node.bound :=
    column_withTop (fun _ _ => rfl) (fun _ _ _ _ _ => rfl) forest
  have hsize : ∀ seat ∈ forest.seats, seat.id < forest.withTop.nodes.size := by
    intro seat hseat
    rw [size_eq_of_column_eq hbounds]
    exact h.lt_size_of_key (get?_keys_of_mem_seats hseat)
  have hmem : id ∈ forest.seats.map (·.id) := forest.seats_map_id_perm.mem_iff.mpr hid
  have hnamed : (forest.nest.node id).bound =
      ((forest.seats.foldl nameTwin forest.withTop).node id).bound := rfl
  rw [hnamed, bound_foldl_nameTwin hsize, if_pos hmem, view_node_eq_of_column_eq hsiblings,
    view_node_eq_of_column_eq hbounds, hbound, Option.or_none]
  simp only [view_node_eq_of_column_eq hids]

/-- Renaming a constructor changes its id: the new id has one `.` less or is longer. -/
theorem constructorId_ne (id : String) : constructorId id ≠ id := by
  unfold constructorId stripEnding?
  split
  · rename_i hsuffix
    obtain ⟨base, hbase⟩ := hsuffix
    intro heq
    have hdots := congrArg (List.count '.' ∘ String.toList) heq
    rw [Function.comp_apply, Function.comp_apply, ← hbase] at hdots
    simp at hdots
  · intro heq
    have hlength := congrArg String.length heq
    simp at hlength

end Forest

namespace Collection

/-- The nodes that keep the id that nesting gives them are those that are no constructors. -/
private theorem final_id_eq_iff {records : List Record} {settings : Settings} {id : NodeId}
    (hreachable : ((empty.insertAll records).resolve settings).ownership.Reachable id) :
    (((empty.insertAll records).resolve settings).node id).id =
        ((empty.insertAll records).nested.node id).id ↔
      (((empty.insertAll records).resolve settings).node id).type ≠ .constructor := by
  rw [final_id_eq hreachable]
  split
  · rename_i htype
    exact iff_of_false (Forest.constructorId_ne _) (not_not_intro htype)
  · rename_i htype
    exact iff_of_true rfl htype

/-- Resolving a collection changes no sibling. -/
private theorem boundSibling_resolve (collection : Collection) (settings : Settings) (id : NodeId) :
    ((collection.resolve settings).node id).boundSibling =
      ((Forest.ofCollection collection).node id).boundSibling :=
  Forest.view_node_eq_of_column_eq
    (Forest.column_resolve (fun _ _ _ _ _ => rfl) (Forest.view_classifyNode fun _ _ _ => rfl)
      (fun _ _ => rfl) (fun _ _ _ _ _ _ _ _ => rfl) settings _) id

/-- The bound id of a node that can be reached is the id that nesting gives its sibling. -/
theorem bound_eq_of_reachable {records : List Record} {settings : Settings} {id : NodeId}
    (hreachable : ((empty.insertAll records).resolve settings).ownership.Reachable id) :
    let collection := empty.insertAll records
    let tree := collection.resolve settings
    (tree.node id).bound =
      (tree.node id).boundSibling.map fun sibling => (collection.nested.node sibling).id := by
  intro collection tree
  obtain ⟨root, hroot, h⟩ := exists_unentered records
  let forest := (Forest.ofCollection collection).assignSections
  have hseated : id ∈ forest.seated := (reachable_resolve_iff hroot settings).mp hreachable
  have hunbound (id : NodeId) : (forest.node id).bound = none := by
    rw [Forest.node_assignSections]
    exact Forest.view_node_ofCollection_eq (fun _ _ => rfl) (fun _ => rfl) rfl collection id
  have hbounds : (forest.nest.classify.linkRelations.assignPartitions settings).column Node.bound =
      forest.nest.column Node.bound :=
    (Forest.column_placed (fun _ _ => rfl) (fun _ _ _ _ _ _ _ => rfl) settings _).trans
      (Forest.column_classify (Forest.view_classifyNode fun _ _ _ => rfl) _)
  have hnested := h.bound_nest hunbound (h.values_perm.mem_iff.mpr (List.mem_cons_of_mem _ hseated))
  rw [Forest.node_assignSections] at hnested
  rw [boundSibling_resolve]
  exact (Forest.view_node_eq_of_column_eq hbounds id).trans hnested

/-- Siblings are mutual to the end of a resolution. -/
theorem boundSibling_resolve_symm {records : List Record} {settings : Settings}
    {id sibling : NodeId} (h : (((empty.insertAll records).resolve settings).node id).boundSibling =
      some sibling) :
    (((empty.insertAll records).resolve settings).node sibling).boundSibling = some id := by
  rw [boundSibling_resolve] at h ⊢
  exact Forest.boundSibling_symm (fun _ => isTwinPair_of_mem_boundPairs) h

/-- After any sequence of insertions and for all settings, a node that can be reached and has a bound
id has a sibling whose sibling it is. The sibling can be reached, has this id and has the final id of
the node as bound id exactly when it can be reached and neither of the two is a constructor. -/
theorem twins_name_each_other_iff (records : List Record) (settings : Settings) (id : NodeId)
    (name : String)
    (hreachable : ((empty.insertAll records).resolve settings).ownership.Reachable id)
    (hbound : (((empty.insertAll records).resolve settings).node id).bound = some name) :
    let tree := (empty.insertAll records).resolve settings
    ∃ sibling, (tree.node id).boundSibling = some sibling ∧
      (tree.node sibling).boundSibling = some id ∧
      (tree.ownership.Reachable sibling ∧ (tree.node sibling).id = name ∧
          (tree.node sibling).bound = some (tree.node id).id ↔
        tree.ownership.Reachable sibling ∧ (tree.node id).type ≠ .constructor ∧
          (tree.node sibling).type ≠ .constructor) := by
  intro tree
  rw [bound_eq_of_reachable hreachable] at hbound
  obtain ⟨sibling, hsibling, rfl⟩ := Option.map_eq_some_iff.mp hbound
  have hback : (tree.node sibling).boundSibling = some id := boundSibling_resolve_symm hsibling
  refine ⟨sibling, hsibling, hback, and_congr_right fun hplaced => ?_⟩
  have hnamed : (tree.node sibling).bound =
      some ((empty.insertAll records).nested.node id).id := by
    rw [bound_eq_of_reachable hplaced]
    exact congrArg _ hback
  have hkept := final_id_eq_iff hreachable
  have hsiblingKept := final_id_eq_iff hplaced
  rw [hnamed, Option.some.injEq, eq_comm (b := (tree.node id).id)]
  exact (and_congr hsiblingKept hkept).trans and_comm

/-- A class with a bound method. -/
def boundMethodInClass : List Record :=
  [{ id := "Element", kind := .class }, { id := "Element.foo", kind := .method, bound := true }]

/-- The method and its instance twin name each other. -/
theorem twins_name_each_other_of_boundMethodInClass :
    let tree := (empty.insertAll boundMethodInClass).resolve {}
    tree.ownership.Reachable 2 ∧ (tree.node 2).bound = some "Element.foo" ∧
      ∃ sibling, tree.ownership.Reachable sibling ∧ (tree.node sibling).id = "Element.foo" ∧
        (tree.node sibling).bound = some (tree.node 2).id := by
  intro tree
  obtain ⟨hseated, hsibling, hid, hfirst, hsecond⟩ :
      (Forest.ofCollection (empty.insertAll boundMethodInClass)).assignSections.seated = [1, 2, 3] ∧
      ((Forest.ofCollection (empty.insertAll boundMethodInClass)).node 2).boundSibling = some 3 ∧
      ((empty.insertAll boundMethodInClass).nested.node 3).id = "Element.foo" ∧
      ((empty.insertAll boundMethodInClass).nested.node 2).type ≠ .constructor ∧
      ((empty.insertAll boundMethodInClass).nested.node 3).type ≠ .constructor := by
    simp only [nested_eval, Forest.assignSections_eval]
    decide +kernel
  obtain ⟨root, hroot, _⟩ := exists_unentered boundMethodInClass
  have hreach (id : NodeId) (hmem : id ∈ [1, 2, 3]) : tree.ownership.Reachable id :=
    (reachable_resolve_iff hroot {}).mpr (hseated ▸ hmem)
  have htwin : tree.ownership.Reachable 2 := hreach 2 (by decide)
  have hmethod : tree.ownership.Reachable 3 := hreach 3 (by decide)
  rw [← boundSibling_resolve _ {}] at hsibling
  have hbound : (tree.node 2).bound = some "Element.foo" := by
    rw [bound_eq_of_reachable htwin, hsibling, Option.map_some, hid]
  obtain ⟨sibling, hfound, _, hnamed⟩ :=
    twins_name_each_other_iff boundMethodInClass {} 2 "Element.foo" htwin hbound
  obtain rfl := Option.some.inj (hsibling.symm.trans hfound)
  refine ⟨htwin, hbound, 3, hnamed.mpr ⟨hmethod, ?_, ?_⟩⟩
  · intro htype
    exact hfirst ((Forest.isConstructor_placed {} _ 2).mp htype)
  · intro htype
    exact hsecond ((Forest.isConstructor_placed {} _ 3).mp htype)

/-- A class with a constructor, and a bound method of the same id that is declared later. -/
def boundMethodAfterConstructor : List Record :=
  [{ id := "Widget", kind := .class, line := 1 },
    { id := "Widget.new", kind := .constructor, line := 2 },
    { id := "Widget.new", kind := .method, bound := true, line := 3 }]

/-- The instance twin of a method whose key goes to a constructor has a bound id that no node has:
the constructor is renamed after the twin is told its id. -/
theorem bound_id_missing_of_boundMethodAfterConstructor :
    let tree := (empty.insertAll boundMethodAfterConstructor).resolve {}
    ∃ id name, tree.ownership.Reachable id ∧ (tree.node id).bound = some name ∧
      ¬ ∃ other, tree.ownership.Reachable other ∧ (tree.node other).id = name := by
  intro tree
  let collection := empty.insertAll boundMethodAfterConstructor
  obtain ⟨hseated, hsibling, hid, hids⟩ :
      (Forest.ofCollection collection).assignSections.seated = [1, 2, 3] ∧
      ((Forest.ofCollection collection).node 2).boundSibling = some 3 ∧
      (collection.nested.node 3).id = "Widget.new" ∧
      ∀ id ∈ [1, 2, 3], (if (collection.nested.node id).type = .constructor then
        Forest.constructorId (collection.nested.node id).id
        else (collection.nested.node id).id) ≠ "Widget.new" := by
    simp only [collection, nested_eval, Forest.assignSections_eval]
    decide +kernel
  obtain ⟨root, hroot, _⟩ := exists_unentered boundMethodAfterConstructor
  have hreach {id : NodeId} : tree.ownership.Reachable id ↔ id ∈ [1, 2, 3] :=
    hseated ▸ reachable_resolve_iff hroot {}
  have htwin : tree.ownership.Reachable 2 := hreach.mpr (by decide)
  refine ⟨2, "Widget.new", htwin, ?_, ?_⟩
  · rw [bound_eq_of_reachable htwin, boundSibling_resolve, hsibling, Option.map_some, hid]
  · rintro ⟨other, hother, hname⟩
    have htype := Forest.isConstructor_placed {} collection.nested other
    apply hids other (hreach.mp hother)
    rw [← hname, final_id_eq hother]
    exact if_congr htype.symm rfl rfl

end Collection

end SymbolTree
