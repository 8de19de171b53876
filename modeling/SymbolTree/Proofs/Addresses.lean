import SymbolTree.Proofs.Entries
import SymbolTree.Proofs.Evaluation

/-!
# Which symbols are addressable

Nesting enters every keyed node that is no section under its id. Classification then gives all
constructors their new ids and moves their entries afterwards, one by one, so that meanwhile an entry
may still name a constructor that is to be moved. In the end every entry names the node with its id.
The converse holds with care: a node that lost its id while nodes were nested is never entered again,
so its final id is bound only if the holder that it lost to ends with the same id.
-/

namespace SymbolTree

namespace Forest

variable {forest : Forest} {root id : NodeId} {key : String}

/-- An entry that stands after an id is entered stood before or is the new one. -/
theorem entry_of_enter {other : String} {incoming : NodeId}
    (hentry : (forest.enter other incoming).lookup.get? key = some id) :
    forest.lookup.get? key = some id ∨ key = other ∧ id = incoming := by
  by_cases hkey : key = other
  · subst hkey
    cases hheld : forest.lookup.get? key with
    | none =>
      rw [enter_of_free hheld, KeyMap.get?_insert, if_pos rfl] at hentry
      exact .inr ⟨rfl, (Option.some.inj hentry).symm⟩
    | some holder =>
      rw [enter_of_held hheld, KeyMap.get?_insert, if_pos rfl] at hentry
      obtain rfl := Option.some.inj hentry
      rcases forest.clash_cases holder incoming with ⟨hwinner, _⟩ | ⟨hwinner, _⟩
      · exact .inr ⟨rfl, hwinner⟩
      · exact .inl (congrArg some hwinner.symm)
  · rw [get?_lookup_enter_of_ne forest hkey] at hentry
    exact .inl hentry

/-- An id that is entered is bound. -/
theorem isSome_enter_self (forest : Forest) (key : String) (incoming : NodeId) :
    ((forest.enter key incoming).lookup.get? key).isSome := by
  cases hheld : forest.lookup.get? key with
  | none => rw [enter_of_free hheld, KeyMap.get?_insert, if_pos rfl, Option.isSome_some]
  | some holder => rw [enter_of_held hheld, KeyMap.get?_insert, if_pos rfl, Option.isSome_some]

/-- Entering an id leaves no id unbound. -/
theorem isSome_enter (hbound : (forest.lookup.get? key).isSome) (other : String)
    (incoming : NodeId) : ((forest.enter other incoming).lookup.get? key).isSome := by
  by_cases hkey : key = other
  · rw [hkey]
    exact isSome_enter_self forest other incoming
  · rwa [get?_lookup_enter_of_ne forest hkey]

/-- Naming the twins and setting the top leave the entries alone. -/
theorem lookup_nest (forest : Forest) : forest.nest.lookup = forest.withEntries.lookup :=
  (Prod.mk.inj forest.account_nest).1

/-- Nesting sets ids while it names the keyed nodes. -/
theorem ids_nest (forest : Forest) :
    forest.nest.column Node.id = forest.withNames.column Node.id :=
  column_nest_withNames (fun _ _ => rfl) (fun _ _ => rfl) forest

/-- After nesting, every entry names a keyed node that has this id and is no section. -/
theorem entry_of_nest (hempty : forest.lookup = .empty)
    (hentry : forest.nest.lookup.get? key = some id) :
    (forest.nest.node id).id = key ∧ id ∈ forest.keys.values ∧
      (forest.node id).isSection = false := by
  let EntriesNamed (later : Forest) : Prop := later.nodes = forest.withNames.nodes ∧
    ∀ key id, later.lookup.get? key = some id → (forest.withNames.node id).id = key ∧
      id ∈ forest.keys.values ∧ (forest.withNames.node id).isSection = false
  have hstart : EntriesNamed forest.withNames := by
    refine ⟨rfl, fun key id hfound => ?_⟩
    rw [lookup_eq_of_rest_eq forest.rest_withNames, hempty, KeyMap.get?_empty] at hfound
    cases hfound
  have hend : EntriesNamed forest.withEntries := by
    refine List.foldlRecOn (motive := EntriesNamed) forest.seats enterSeat hstart
      fun later hlater seat hseat => ?_
    obtain ⟨hnodes, hentries⟩ := hlater
    refine ⟨(nodes_enterSeat later seat).trans hnodes, fun key id hfound => ?_⟩
    have hnode : later.node seat.id = forest.withNames.node seat.id := node_eq_of_nodes_eq hnodes _
    cases hsection : (later.node seat.id).isSection with
    | true =>
      have hskip : later.enterSeat seat = later := by simp [enterSeat, hsection]
      exact hentries key id (hskip ▸ hfound)
    | false =>
      have henter : later.enterSeat seat = later.enter (later.node seat.id).id seat.id := by
        simp [enterSeat, hsection]
      rw [henter] at hfound
      rcases entry_of_enter hfound with hold | ⟨rfl, rfl⟩
      · exact hentries key id hold
      · rw [hnode] at hsection ⊢
        exact ⟨rfl, KeyMap.mem_values_iff.mpr ⟨_, get?_keys_of_mem_seats hseat⟩, hsection⟩
  rw [lookup_nest] at hentry
  obtain ⟨hid, hkeyed, hsection⟩ := hend.2 key id hentry
  rw [isSection_eq forest.types_withNames] at hsection
  rw [view_node_eq_of_column_eq forest.ids_nest id]
  exact ⟨hid, hkeyed, hsection⟩

/-- After nesting, the id of every keyed node that is no section is bound. -/
theorem isSome_nest_of_keyed (hkeyed : id ∈ forest.keys.values)
    (hsection : (forest.node id).isSection = false) :
    (forest.nest.lookup.get? (forest.nest.node id).id).isSome := by
  obtain ⟨key, hkey⟩ := KeyMap.mem_values_iff.mp hkeyed
  have hseat : seatOf (key, id) ∈ forest.seats := mem_seats_iff.mpr ⟨key, id, hkey, rfl⟩
  have hnamed : (forest.withNames.node id).isSection = false := by
    rw [isSection_eq forest.types_withNames, hsection]
  rw [lookup_nest, view_node_eq_of_column_eq forest.ids_nest id]
  exact foldl_enterSeat_of_mem
    (motive := fun later => (later.lookup.get? (forest.withNames.node id).id).isSome) hseat
    forest.withNames hnamed (fun later => isSome_enter_self later _ _)
    fun later other incoming hbound => isSome_enter hbound other incoming

/-- An entry that stands after a constructor is moved stood before and is not the moved one, or is
the one that it is moved to. -/
theorem entry_of_renameEntry {rename : String × NodeId}
    (hentry : (forest.renameEntry rename).lookup.get? key = some id) :
    forest.lookup.get? key = some id ∧ (key, id) ≠ rename ∨
      forest.lookup.get? rename.1 = some rename.2 ∧ key = (forest.node rename.2).id ∧
        id = rename.2 := by
  unfold renameEntry at hentry
  split at hentry
  · rename_i hmoving
    rcases entry_of_enter hentry with hold | ⟨hkey, hid⟩
    · rw [KeyMap.get?_erase] at hold
      split at hold
      · cases hold
      · rename_i hne
        refine .inl ⟨hold, ?_⟩
        rintro rfl
        exact hne rfl
    · exact .inr ⟨hmoving, hkey, hid⟩
  · rename_i hstays
    refine .inl ⟨hentry, ?_⟩
    rintro rfl
    exact hstays hentry

/-- Moving an entry unbinds no other id. -/
theorem isSome_renameEntry {rename : String × NodeId} (hentry : forest.lookup.get? key = some id)
    (hne : (key, id) ≠ rename) : ((forest.renameEntry rename).lookup.get? key).isSome := by
  unfold renameEntry
  split
  · rename_i hmoving
    have hkey : key ≠ rename.1 := by
      rintro rfl
      exact hne (Prod.ext rfl (Option.some.inj (hentry.symm.trans hmoving)))
    refine isSome_enter ?_ _ _
    rw [KeyMap.get?_erase, if_neg hkey, hentry, Option.isSome_some]
  · rw [hentry, Option.isSome_some]

/-- A constructor whose entry is moved has its new id bound. -/
theorem isSome_renameEntry_self (hentry : forest.lookup.get? key = some id) :
    ((forest.renameEntry (key, id)).lookup.get? (forest.node id).id).isSome := by
  unfold renameEntry
  rw [if_pos hentry]
  exact isSome_enter_self _ _ _

/-- If every entry names the node with its id or is still to be moved, then every entry names the node
with its id once all are moved. The constructors that are still to be moved carry the induction. -/
theorem entry_of_foldl_renameEntry {renames : List (String × NodeId)}
    (hentries : ∀ key id, forest.lookup.get? key = some id →
      (forest.node id).id = key ∨ (key, id) ∈ renames)
    (hentry : (renames.foldl renameEntry forest).lookup.get? key = some id) :
    (forest.node id).id = key := by
  induction renames generalizing forest with
  | nil => exact (hentries key id hentry).resolve_right List.not_mem_nil
  | cons rename renames ih =>
    rw [← node_renameEntry forest rename id]
    refine ih (fun key id hfound => ?_) hentry
    rw [node_renameEntry]
    rcases entry_of_renameEntry hfound with ⟨hold, hne⟩ | ⟨_, hkey, hid⟩
    · refine (hentries key id hold).imp_right fun hmem => ?_
      exact (List.mem_cons.mp hmem).resolve_left hne
    · exact .inl (by rw [hid, hkey])

/-- Moving entries addresses no node that was not addressed before. -/
theorem held_of_foldl_renameEntry {renames : List (String × NodeId)}
    (hentry : (renames.foldl renameEntry forest).lookup.get? key = some id) :
    ∃ held, forest.lookup.get? held = some id := by
  induction renames generalizing forest with
  | nil => exact ⟨key, hentry⟩
  | cons rename renames ih =>
    obtain ⟨held, hheld⟩ := ih hentry
    rcases entry_of_renameEntry hheld with ⟨hold, _⟩ | ⟨hmoving, _, hid⟩
    · exact ⟨held, hold⟩
    · exact ⟨rename.1, by rw [hid, hmoving]⟩

/-- An id whose entry is not to be moved stays bound while others are moved. -/
theorem isSome_foldl_renameEntry {renames : List (String × NodeId)}
    (hnodup : (renames.map (·.2)).Nodup) (hentry : forest.lookup.get? key = some id)
    (hstays : (key, id) ∉ renames) :
    ((renames.foldl renameEntry forest).lookup.get? key).isSome := by
  induction renames generalizing forest id with
  | nil =>
    rw [List.foldl_nil, hentry, Option.isSome_some]
  | cons rename renames ih =>
    obtain ⟨hfresh, hrest⟩ := List.nodup_cons.mp hnodup
    obtain ⟨hne, hlater⟩ := not_or.mp (mt List.mem_cons.mpr hstays)
    obtain ⟨holder, hholder⟩ := Option.isSome_iff_exists.mp (isSome_renameEntry hentry hne)
    refine ih hrest hholder fun hmem => ?_
    -- The id may have changed hands, but only to a constructor that has been moved already.
    rcases entry_of_renameEntry hholder with ⟨hold, _⟩ | ⟨_, _, rfl⟩
    · obtain rfl := Option.some.inj (hentry.symm.trans hold)
      exact hlater hmem
    · exact hfresh (List.mem_map.mpr ⟨_, hmem, rfl⟩)

/-- A constructor that holds its old id until it is moved has its new id bound in the end, if no other
constructor is moved to the old id or away from the new one. -/
theorem isSome_foldl_renameEntry_self {renames : List (String × NodeId)}
    (hnodup : (renames.map (·.2)).Nodup) (hmem : (key, id) ∈ renames)
    (hentry : forest.lookup.get? key = some id)
    (hto : ∀ rename ∈ renames, (forest.node rename.2).id ≠ key)
    (hfrom : ∀ rename ∈ renames, rename.1 ≠ (forest.node id).id) :
    ((renames.foldl renameEntry forest).lookup.get? (forest.node id).id).isSome := by
  induction renames generalizing forest with
  | nil => cases hmem
  | cons rename renames ih =>
    obtain ⟨hfresh, hrest⟩ := List.nodup_cons.mp hnodup
    rcases List.mem_cons.mp hmem with rfl | hlater
    · obtain ⟨holder, hholder⟩ := Option.isSome_iff_exists.mp (isSome_renameEntry_self hentry)
      rw [List.foldl_cons]
      refine isSome_foldl_renameEntry hrest hholder fun hpending => ?_
      exact hfrom _ (List.mem_cons_of_mem _ hpending) rfl
    · have hne : (key, id) ≠ rename := by
        rintro rfl
        exact hfresh (List.mem_map_of_mem hlater)
      obtain ⟨holder, hholder⟩ := Option.isSome_iff_exists.mp (isSome_renameEntry hentry hne)
      have hheld : (forest.renameEntry rename).lookup.get? key = some id := by
        rcases entry_of_renameEntry hholder with ⟨hold, _⟩ | ⟨_, hkey, _⟩
        · rw [hholder, ← hold, hentry]
        · exact absurd hkey.symm (hto rename List.mem_cons_self)
      rw [List.foldl_cons, ← node_renameEntry forest rename id]
      refine ih hrest hlater hheld (fun other hother => ?_) (fun other hother => ?_)
      · rw [node_renameEntry]
        exact hto other (List.mem_cons_of_mem _ hother)
      · rw [node_renameEntry]
        exact hfrom other (List.mem_cons_of_mem _ hother)

/-- A forest that is ready for nesting, whose root is a section and in which no id is entered. -/
structure Unentered (forest : Forest) (root : NodeId) : Prop extends forest.Nestable root where
  /-- No id is entered. -/
  lookup_eq : forest.lookup = .empty
  /-- The root is a section. -/
  isSection_root : (forest.node root).isSection = true

/-- What happens after classification keeps the entries. -/
theorem lookup_placed (settings : Settings) (forest : Forest) :
    (forest.linkRelations.assignPartitions settings).lookup = forest.lookup :=
  (Prod.mk.inj ((account_assignPartitions settings _).trans (account_linkRelations forest))).1

/-- What happens after classification keeps the ids. -/
theorem id_placed (settings : Settings) (forest : Forest) (id : NodeId) :
    ((forest.linkRelations.assignPartitions settings).node id).id = (forest.node id).id :=
  view_node_eq_of_column_eq
    (column_placed (fun _ _ => rfl) (fun _ _ _ _ _ _ _ => rfl) settings forest) id

/-- Constructors are constructors before they are renamed, and no other node becomes one. -/
theorem isConstructor_placed (settings : Settings) (forest : Forest) (id : NodeId) :
    ((forest.classify.linkRelations.assignPartitions settings).node id).type = .constructor ↔
      (forest.node id).type = .constructor := by
  have hcolumn : (forest.classify.linkRelations.assignPartitions settings).column
      (·.type = .constructor) = forest.column (·.type = .constructor) :=
    (column_placed (fun _ _ => rfl) (fun _ _ _ _ _ _ _ => rfl) settings _).trans
      (column_classify (fun node => propext (type_classifyNode_eq_iff (.inr rfl) node)) forest)
  exact iff_of_eq (view_node_eq_of_column_eq hcolumn id)

namespace Nestable

/-- The placed nodes are the seated ones that are no sections. -/
theorem mem_placed_nest (h : forest.Nestable root) :
    id ∈ forest.nest.placed ↔ id ∈ forest.seated ∧ (forest.node id).isSection = false := by
  rw [(placed_perm h.isForest_nest).mem_iff, List.mem_filter, isSection_eq forest.types_nest]
  simp

/-- The placed nodes are distinct. -/
theorem nodup_placed_nest (h : forest.Nestable root) : forest.nest.placed.Nodup :=
  (placed_perm h.isForest_nest).nodup_iff.mpr (h.nodup_seated.filter _)

/-- A seated node keeps the id that nesting gives it, unless it is a constructor. -/
theorem id_classify (h : forest.Nestable root) (hid : id ∈ forest.seated) :
    (forest.nest.classify.node id).id =
      if (forest.nest.node id).type = .constructor then constructorId (forest.nest.node id).id
      else (forest.nest.node id).id := by
  rw [node_classify]
  by_cases hplaced : id ∈ forest.nest.placed
  · rw [node_withTypes_of_mem h.nodup_placed_nest hplaced (h.lt_size_of_seated hid), classifyNode]
    split
    · rfl
    · split <;> rfl
  · -- A seated node that is not placed is a section, and so no constructor.
    have hsection : (forest.nest.node id).isSection = true := by
      rw [isSection_eq forest.types_nest, ← Bool.not_eq_false]
      exact fun hsection => hplaced (h.mem_placed_nest.mpr ⟨hid, hsection⟩)
    have htype : (forest.nest.node id).type ≠ .constructor := by
      rw [eq_of_beq hsection]
      exact NodeType.noConfusion
    rw [node_withTypes_of_notMem hplaced, if_neg htype]

/-- The constructors to be renamed are those among the seated nodes. -/
theorem mem_renames_nest (h : forest.Nestable root) {key : String} :
    (key, id) ∈ forest.nest.renames ↔ id ∈ forest.seated ∧
      (forest.nest.node id).type = .constructor ∧ (forest.nest.node id).id = key := by
  have hmem : (key, id) ∈ forest.nest.renames ↔ id ∈ forest.nest.placed ∧
      (forest.nest.node id).type = .constructor ∧ (forest.nest.node id).id = key := by
    simp only [renames, List.mem_map, List.mem_filter, decide_eq_true_eq, Prod.mk.injEq]
    constructor
    · rintro ⟨_, ⟨hplaced, htype⟩, hkey, rfl⟩
      exact ⟨hplaced, htype, hkey⟩
    · rintro ⟨hplaced, htype, hkey⟩
      exact ⟨id, ⟨hplaced, htype⟩, hkey, rfl⟩
  rw [hmem, h.mem_placed_nest, ← isSection_eq forest.types_nest]
  constructor
  · rintro ⟨⟨hid, _⟩, hrest⟩
    exact ⟨hid, hrest⟩
  · rintro ⟨hid, htype, hkey⟩
    exact ⟨⟨hid, by rw [Node.isSection, htype]; rfl⟩, htype, hkey⟩

end Nestable

namespace Unentered

/-- After nesting, every entry names a seated node that has this id and is no section. -/
theorem seated_of_entry (h : forest.Unentered root)
    (hentry : forest.nest.lookup.get? key = some id) :
    (forest.nest.node id).id = key ∧ id ∈ forest.seated ∧ (forest.node id).isSection = false := by
  obtain ⟨hkey, hkeyed, hsection⟩ := entry_of_nest h.lookup_eq hentry
  refine ⟨hkey, ?_, hsection⟩
  rcases List.mem_cons.mp (h.values_perm.mem_iff.mp hkeyed) with rfl | hseated
  · rw [h.isSection_root] at hsection
    cases hsection
  · exact hseated

/-- After classification, every entry names the node with its id, which was entered by nesting. -/
theorem entry_of_classify (h : forest.Unentered root)
    (hentry : forest.nest.classify.lookup.get? key = some id) :
    (forest.nest.classify.node id).id = key ∧
      ∃ held, forest.nest.lookup.get? held = some id := by
  have hlookup : forest.nest.withTypes.lookup = forest.nest.lookup :=
    lookup_eq_of_rest_eq forest.nest.rest_withTypes
  rw [classify_eq] at hentry
  constructor
  · rw [node_classify]
    refine entry_of_foldl_renameEntry (fun key id hfound => ?_) hentry
    rw [hlookup] at hfound
    obtain ⟨hkey, hseated, _⟩ := h.seated_of_entry hfound
    rw [← node_classify, h.id_classify hseated]
    split
    · rename_i htype
      exact .inr (h.mem_renames_nest.mpr ⟨hseated, htype, hkey⟩)
    · exact .inl hkey
  · obtain ⟨held, hheld⟩ := held_of_foldl_renameEntry hentry
    exact ⟨held, hlookup ▸ hheld⟩

/-- The final id of a node is bound if the holder of its id before renaming is a constructor exactly
when the node is, and renaming other constructors stays clear of both ids. -/
theorem isSome_classify_of_holder (h : forest.Unentered root) {holder : NodeId}
    (hid : id ∈ forest.seated)
    (hholder : forest.nest.lookup.get? (forest.nest.node id).id = some holder)
    (halike : (forest.nest.node holder).type = .constructor ↔
      (forest.nest.node id).type = .constructor)
    (hapart : (forest.nest.node id).type = .constructor → ∀ other ∈ forest.seated,
      (forest.nest.node other).type = .constructor →
        (forest.nest.classify.node other).id ≠ (forest.nest.node id).id ∧
          (forest.nest.node other).id ≠ (forest.nest.classify.node id).id) :
    (forest.nest.classify.lookup.get? (forest.nest.classify.node id).id).isSome := by
  obtain ⟨hkey, hseated, _⟩ := h.seated_of_entry hholder
  have hnodup : (forest.nest.renames.map (·.2)).Nodup :=
    forest.nest.map_snd_renames ▸ h.nodup_placed_nest.filter _
  have hentry : forest.nest.withTypes.lookup.get? (forest.nest.node id).id = some holder := by
    rw [lookup_eq_of_rest_eq forest.nest.rest_withTypes, hholder]
  by_cases htype : (forest.nest.node id).type = .constructor
  · have hsame : (forest.nest.classify.node id).id = (forest.nest.withTypes.node holder).id := by
      rw [← node_classify, h.id_classify hid, h.id_classify hseated, if_pos htype,
        if_pos (halike.mpr htype), hkey]
    have hmem := h.mem_renames_nest.mpr ⟨hseated, halike.mpr htype, hkey⟩
    have hclear (rename : String × NodeId) (hrename : rename ∈ forest.nest.renames) :
        (forest.nest.withTypes.node rename.2).id ≠ (forest.nest.node id).id ∧
          rename.1 ≠ (forest.nest.withTypes.node holder).id := by
      obtain ⟨hother, hconstructor, hold⟩ := h.mem_renames_nest.mp hrename
      rw [← node_classify, ← hsame, ← hold]
      exact hapart htype rename.2 hother hconstructor
    rw [hsame, classify_eq]
    exact isSome_foldl_renameEntry_self hnodup hmem hentry
      (fun rename hrename => (hclear rename hrename).1)
      fun rename hrename => (hclear rename hrename).2
  · rw [h.id_classify hid, if_neg htype, classify_eq]
    refine isSome_foldl_renameEntry hnodup hentry fun hmem => htype (halike.mp ?_)
    exact (h.mem_renames_nest.mp hmem).2.1

end Unentered

end Forest

namespace Collection

/-- The nodes of a collection after nesting. Ids have lost their sections, and constructors are not
renamed yet. -/
def nested (collection : Collection) : Forest :=
  (Forest.ofCollection collection).assignSections.nest

/-- The nested nodes of a collection, along orders that are sorted by insertion. -/
theorem nested_eval (collection : Collection) :
    collection.nested =
      (Forest.ofCollection collection).assignSectionsByInsertion.nestByInsertion := by
  rw [nested, Forest.assignSections_eval, Forest.nest_eval]

/-- After any sequence of insertions, guessing sections leaves a forest without entries. -/
theorem exists_unentered (records : List Record) :
    ∃ root, (Forest.ofCollection (empty.insertAll records)).keys.get? "" = some root ∧
      (Forest.ofCollection (empty.insertAll records)).assignSections.Unentered root := by
  obtain ⟨rootId, hkey, hrecord⟩ := exists_root records
  have hsection : ((Forest.ofCollection (empty.insertAll records)).node rootId).isSection = true :=
    Forest.view_node_ofCollection (fun _ _ => rfl) hrecord
  refine ⟨rootId, hkey, Forest.nestable_assignSections hkey, ?_, ?_⟩
  · rw [Forest.lookup_assignSections, Forest.lookup_ofCollection]
  · rw [Forest.node_assignSections, hsection]

/-- After any sequence of insertions and for all settings, every entry of the lookup names a node that
has this id, is no section and can be reached, and no node is named by two entries. -/
theorem lookup_names_reachable_nodes (records : List Record) (settings : Settings) :
    let tree := (empty.insertAll records).resolve settings
    (∀ key id, (key, id) ∈ tree.lookup.entries →
      (tree.node id).id = key ∧ (tree.node id).isSection = false ∧
        tree.ownership.Reachable id) ∧
    (∀ key other id, (key, id) ∈ tree.lookup.entries → (other, id) ∈ tree.lookup.entries →
      key = other) := by
  intro tree
  obtain ⟨root, hroot, h⟩ := exists_unentered records
  have hnamed (key : String) (id : NodeId) (hentry : (key, id) ∈ tree.lookup.entries) :
      (tree.node id).id = key ∧ (tree.node id).isSection = false ∧
        tree.ownership.Reachable id := by
    have hfound : (empty.insertAll records).nested.classify.lookup.get? key = some id := by
      rw [← KeyMap.mem_entries_iff, ← Forest.lookup_placed settings]
      exact hentry
    obtain ⟨hkey, held, hheld⟩ := h.entry_of_classify hfound
    obtain ⟨_, hseated, hsection⟩ := h.seated_of_entry hheld
    rw [Forest.node_assignSections] at hsection
    exact ⟨(Forest.id_placed settings _ id).trans hkey,
      (Forest.isSection_resolve settings _ id).trans hsection,
      (reachable_resolve_iff hroot settings).mpr hseated⟩
  refine ⟨hnamed, fun key other id hkey hother => ?_⟩
  rw [← (hnamed key id hkey).1, (hnamed other id hother).1]

/-- The final id of a node that can be reached is the one that nesting gives it, unless it is a
constructor. -/
theorem final_id_eq {records : List Record} {settings : Settings} {id : NodeId}
    (hreachable : ((empty.insertAll records).resolve settings).ownership.Reachable id) :
    let collection := empty.insertAll records
    let tree := collection.resolve settings
    (tree.node id).id =
      if (tree.node id).type = .constructor then Forest.constructorId (collection.nested.node id).id
      else (collection.nested.node id).id := by
  intro collection tree
  obtain ⟨root, hroot, h⟩ := exists_unentered records
  have htype : (tree.node id).type = .constructor ↔
      (collection.nested.node id).type = .constructor := Forest.isConstructor_placed settings _ id
  simp only [htype]
  exact (Forest.id_placed settings _ id).trans
    (h.id_classify ((reachable_resolve_iff hroot settings).mp hreachable))

/-- Renaming stays clear of a node: no constructor ends with the id that the node has before
constructors are renamed, and none has the id that it ends with. -/
def RenamesApart (collection : Collection) (settings : Settings) (id : NodeId) : Prop :=
  let tree := collection.resolve settings
  ∀ other, tree.ownership.Reachable other → (tree.node other).type = .constructor →
    (tree.node other).id ≠ (collection.nested.node id).id ∧
      (collection.nested.node other).id ≠ (tree.node id).id

/-- After any sequence of insertions and for all settings, the id that a node has before constructors
are renamed is held by the node or by the winner of a clash, if the node can be reached and is no
section. Its final id is bound whenever the holder is a constructor exactly if the node is one, and
constructors are renamed apart from it if it is one. A node that does not hold its id before
constructors are renamed is named by no entry. -/
theorem final_id_bound_of_holder_alike (records : List Record) (settings : Settings) (id : NodeId)
    (hreachable : ((empty.insertAll records).resolve settings).ownership.Reachable id)
    (hsection : (((empty.insertAll records).resolve settings).node id).isSection = false) :
    let collection := empty.insertAll records
    let tree := collection.resolve settings
    ∃ holder, collection.nested.lookup.get? (collection.nested.node id).id = some holder ∧
      (((tree.node holder).type = .constructor ↔ (tree.node id).type = .constructor) →
        ((tree.node id).type = .constructor → collection.RenamesApart settings id) →
        (tree.get? (tree.node id).id).isSome) ∧
      (holder ≠ id → ∀ key, tree.lookup.get? key ≠ some id) := by
  intro collection tree
  obtain ⟨root, hroot, h⟩ := exists_unentered records
  have hreach {other : NodeId} : tree.ownership.Reachable other ↔
      other ∈ (Forest.ofCollection collection).assignSections.seated :=
    reachable_resolve_iff hroot settings
  have hseated := hreach.mp hreachable
  have hnode : ((Forest.ofCollection collection).assignSections.node id).isSection = false := by
    rw [Forest.node_assignSections]
    exact (Forest.isSection_resolve settings _ id).symm.trans hsection
  have hkeyed : id ∈ (Forest.ofCollection collection).assignSections.keys.values :=
    h.values_perm.mem_iff.mpr (List.mem_cons_of_mem _ hseated)
  obtain ⟨holder, hholder⟩ :=
    Option.isSome_iff_exists.mp (Forest.isSome_nest_of_keyed hkeyed hnode)
  have hlookup : tree.lookup = collection.nested.classify.lookup := Forest.lookup_placed settings _
  have hids (other : NodeId) : (tree.node other).id = (collection.nested.classify.node other).id :=
    Forest.id_placed settings _ other
  have htypes (other : NodeId) : (tree.node other).type = .constructor ↔
      (collection.nested.node other).type = .constructor :=
    Forest.isConstructor_placed settings _ other
  refine ⟨holder, hholder, fun halike hapart => ?_, fun hne key hentry => ?_⟩
  · rw [ResolvedTree.get?, Option.isSome_map, hlookup, hids]
    rw [htypes, htypes] at halike
    refine h.isSome_classify_of_holder hseated hholder halike fun htype other hother hconstructor => ?_
    have hclear := hapart ((htypes id).mpr htype) other (hreach.mpr hother)
      ((htypes other).mpr hconstructor)
    rwa [hids, hids] at hclear
  · rw [hlookup] at hentry
    obtain ⟨_, held, hheld⟩ := h.entry_of_classify hentry
    obtain ⟨hkey, _, _⟩ := h.seated_of_entry hheld
    rw [← hkey] at hheld
    exact hne (Option.some.inj (hholder.symm.trans hheld))

/-- Constructors of one id in two sections. -/
def twoConstructors : List Record :=
  [{ id := "Foo.new", kind := .constructor, «section» := some "Alpha", line := 2 },
    { id := "Foo.new", kind := .constructor, «section» := some "Beta", line := 1 }]

/-- Of two constructors with one id the second loses it, but both end with the same id, which is
bound. -/
theorem final_id_bound_of_twoConstructors :
    let tree := (empty.insertAll twoConstructors).resolve {}
    tree.ownership.Reachable 1 ∧ (tree.node 1).isSection = false ∧
      (tree.get? (tree.node 1).id).isSome ∧ ∀ key, tree.lookup.get? key ≠ some 1 := by
  intro tree
  let collection := empty.insertAll twoConstructors
  obtain ⟨hseated, hheld, htypes, hids⟩ :
      (Forest.ofCollection collection).assignSections.seated = [1, 2] ∧
      collection.nested.lookup.get? "Foo.new" = some 2 ∧
      (∀ id ∈ [1, 2], (collection.nested.node id).type = .constructor) ∧
      ∀ id ∈ [1, 2], (collection.nested.node id).id = "Foo.new" := by
    simp only [collection, nested_eval, Forest.assignSections_eval]
    decide +kernel
  obtain ⟨root, hroot, _⟩ := exists_unentered twoConstructors
  have hreach {id : NodeId} : tree.ownership.Reachable id ↔ id ∈ [1, 2] :=
    hseated ▸ reachable_resolve_iff hroot {}
  have htype (id : NodeId) (hid : id ∈ [1, 2]) : (tree.node id).type = .constructor :=
    (Forest.isConstructor_placed {} _ id).mpr (htypes id hid)
  have hfinal (id : NodeId) (hid : id ∈ [1, 2]) : (tree.node id).id = "new Foo" := by
    rw [final_id_eq (hreach.mpr hid), if_pos (htype id hid), hids id hid]
    decide +kernel
  have hreachable : tree.ownership.Reachable 1 := hreach.mpr (by decide)
  have hsection : (tree.node 1).isSection = false := by
    rw [Node.isSection, htype 1 (by decide)]
    rfl
  obtain ⟨holder, hholder, hbound, hlost⟩ :=
    final_id_bound_of_holder_alike twoConstructors {} 1 hreachable hsection
  rw [hids 1 (by decide)] at hholder
  obtain rfl := Option.some.inj (hheld.symm.trans hholder)
  refine ⟨hreachable, hsection, hbound ?_ ?_, hlost (by decide)⟩
  · exact iff_of_true (htype 2 (by decide)) (htype 1 (by decide))
  · intro _ other hother _
    rw [hfinal other (hreach.mp hother), hfinal 1 (by decide), hids 1 (by decide),
      hids other (hreach.mp hother)]
    decide

/-- A constructor and a method of one id in two sections, the method declared first. -/
def methodBeforeConstructor : List Record :=
  [{ id := "Foo.new", kind := .constructor, «section» := some "Alpha", line := 2 },
    { id := "Foo.new", kind := .method, «section» := some "Beta", line := 1 }]

/-- A constructor that loses its id to a method can be reached, but its final id is not bound. -/
theorem final_id_unbound_of_methodBeforeConstructor :
    let tree := (empty.insertAll methodBeforeConstructor).resolve {}
    ∃ id, tree.ownership.Reachable id ∧ (tree.node id).isSection = false ∧
      tree.get? (tree.node id).id = none := by
  intro tree
  let collection := empty.insertAll methodBeforeConstructor
  obtain ⟨hseated, htype, hlookup⟩ :
      (Forest.ofCollection collection).assignSections.seated = [1, 2] ∧
      (collection.nested.node 1).type = .constructor ∧
      collection.nested.classify.lookup.get? (collection.nested.classify.node 1).id = none := by
    simp only [collection, nested_eval, Forest.classify_eval, Forest.assignSections_eval]
    decide +kernel
  obtain ⟨root, hroot, _⟩ := exists_unentered methodBeforeConstructor
  have hconstructor : (tree.node 1).type = .constructor :=
    (Forest.isConstructor_placed {} _ 1).mpr htype
  have hunbound : tree.lookup.get? (tree.node 1).id = none := by
    rw [← hlookup, ← Forest.lookup_placed {}, ← Forest.id_placed {}]
    rfl
  refine ⟨1, (reachable_resolve_iff hroot {}).mpr ?_, ?_, ?_⟩
  · rw [hseated]
    decide
  · rw [Node.isSection, hconstructor]
    rfl
  · rw [ResolvedTree.get?, hunbound, Option.map_none]

end Collection

end SymbolTree
