import SymbolTree.Proofs.Addresses
import SymbolTree.Proofs.SectionGuessing

/-!
# Ids relative to a section

Guessing a section puts a text without delimiters before a key and leaves the rest of the key alone.
Nesting then names a keyed node by its key without the section. The key of a node therefore ends with
the key of its record, and what remains of it is the id of the record exactly when the section of the
record has no delimiter, whether the node was moved or not.
-/

namespace SymbolTree

namespace Forest

variable {forest : Forest} {root id : NodeId} {key : String}

/-- After sections are guessed, the key of a node is the one that it had before, behind a text
without delimiters. -/
theorem key_of_assignSections (hkey : forest.assignSections.keys.get? key = some id) :
    ∃ moved origin, DelimiterFree moved ∧ forest.keys.get? origin = some id ∧
      key = moved ++ origin := by
  rcases get?_of_assignSections hkey with hbefore | ⟨source, hmoves, hbefore⟩
  · exact ⟨"", key, delimiterFree_empty, hbefore, String.empty_append.symm⟩
  · obtain ⟨sectionName, _, hfree, htext⟩ := hmoves.exists_section
    exact ⟨sectionName, source, hfree, hbefore, htext⟩

/-- Naming a node does not depend on its children. -/
private theorem nameNode_setChildren (key : String) (node : Node) (children : List Edge) :
    nameNode key { node with children } = { nameNode key node with children } := by
  have hsame : ({ node with children } : Node).isSection = node.isSection := rfl
  unfold nameNode
  rw [hsame]
  cases node.isSection <;> rfl

/-- Nesting names a keyed node by its key. -/
theorem Nestable.view_nest {α : Type} {view : Node → α}
    (hchildren : ∀ node children, view { node with children } = view node)
    (hbound : ∀ node bound, view { node with bound } = view node) (h : forest.Nestable root)
    (hkey : forest.keys.get? key = some id) :
    view (forest.nest.node id) = view (nameNode key (forest.node id)) := by
  have hseat : seatOf (key, id) ∈ forest.seats := mem_seats_iff.mpr ⟨key, id, hkey, rfl⟩
  have hnamed : forest.withNames.node id = nameNode key (forest.withChildren.node id) :=
    node_foldl_modify Seat.id (fun seat => nameNode seat.key) h.nodup_seats forest.withChildren
      hseat (forest.size_withChildren ▸ h.lt_size_of_key hkey)
  rw [view_node_eq_of_column_eq (column_nest_withNames hchildren hbound forest) id, hnamed,
    h.node_withChildren hkey, nameNode_setChildren, hchildren]

/-- A node that is no section is named by its key without the section. -/
theorem nameNode_of_not_section {node : Node} (hsection : node.isSection = false) (key : String) :
    nameNode key node =
      { node with
        id := (QualifiedName.parse key).dropSection.text
        name := (QualifiedName.parse key).dropSection.lastSegment
        ownerText := (QualifiedName.parse key).dropSection.ownerText
        path := (QualifiedName.parse key).dropSection.path } := by
  unfold nameNode
  simp [hsection]

end Forest

/-- A record of a kind has a node of the type of this kind, and sections and constructors come from
no other kind. -/
theorem NodeType.ofKind_eq_iff {kind : RecordKind} :
    (NodeType.ofKind kind = .section ↔ kind = .section) ∧
      (NodeType.ofKind kind = .constructor ↔ kind = .constructor) := by
  cases kind <;> decide

/-- The key of a symbol, behind a text, is its id behind a section. -/
theorem Record.append_key_of_not_section {record : Record} (hsection : record.kind ≠ .section)
    (moved : String) :
    moved ++ record.key = (moved ++ record.section.getD "") ++ "." ++ record.id := by
  rw [Record.key, if_neg hsection]
  simp only [String.append_assoc]

namespace Collection

variable {records : List Record} {settings : Settings} {id : NodeId} {record : Record}

/-- Before nesting, the key of a node with a place is the key of its record, behind a text without
delimiters. -/
theorem exists_key_of_reachable
    (hreachable : ((empty.insertAll records).resolve settings).ownership.Reachable id)
    (hrecord : (empty.insertAll records).records.values[id]? = some record) :
    ∃ moved, DelimiterFree moved ∧
      (Forest.ofCollection (empty.insertAll records)).assignSections.keys.get?
        (moved ++ record.key) = some id := by
  obtain ⟨root, hroot, h⟩ := exists_unentered records
  have hseated := (reachable_resolve_iff hroot settings).mp hreachable
  have hvalue := h.values_perm.mem_iff.mpr (List.mem_cons_of_mem _ hseated)
  obtain ⟨key, hkey⟩ := KeyMap.mem_values_iff.mp hvalue
  obtain ⟨moved, origin, hmoved, horigin, rfl⟩ := Forest.key_of_assignSections hkey
  rw [Forest.keys_ofCollection] at horigin
  obtain ⟨_, _, hindex⟩ := held_of_value hrecord
  obtain ⟨_, hhere⟩ := KeyMap.get?_indices_iff.mp horigin
  obtain ⟨_, hthere⟩ := KeyMap.get?_indices_iff.mp hindex
  obtain rfl : origin = record.key := (Prod.mk.inj (Option.some.inj (hhere.symm.trans hthere))).1
  exact ⟨moved, hmoved, hkey⟩

/-- The type of a node with a record, before it is classified. -/
theorem type_nested (hrecord : (empty.insertAll records).records.values[id]? = some record) :
    ((empty.insertAll records).nested.node id).type = .ofKind record.kind := by
  have hstart : ((Forest.ofCollection (empty.insertAll records)).node id).type =
      .ofKind record.kind := Forest.view_node_ofCollection (fun _ _ => rfl) hrecord
  have hnested := Forest.view_node_eq_of_column_eq
    (Forest.types_nest (Forest.ofCollection (empty.insertAll records)).assignSections) id
  rw [Forest.node_assignSections, hstart] at hnested
  exact hnested

/-- After nesting, the id, the name and the owner of a node that is no section are read off its
key. -/
theorem names_nested {root : NodeId} {key : String}
    (h : (Forest.ofCollection (empty.insertAll records)).assignSections.Nestable root)
    (hrecord : (empty.insertAll records).records.values[id]? = some record)
    (hsection : record.kind ≠ .section)
    (hkey : (Forest.ofCollection (empty.insertAll records)).assignSections.keys.get? key =
      some id) :
    let relative := (QualifiedName.parse key).dropSection
    let node := (empty.insertAll records).nested.node id
    node.id = relative.text ∧ node.name = relative.lastSegment ∧
      node.ownerText = relative.ownerText := by
  let forest := (Forest.ofCollection (empty.insertAll records)).assignSections
  have htype : (forest.node id).isSection = false := by
    have hkind : (forest.node id).type = .ofKind record.kind := by
      rw [Forest.node_assignSections]
      exact Forest.view_node_ofCollection (fun _ _ => rfl) hrecord
    rw [Node.isSection, hkind, beq_eq_false_iff_ne]
    exact fun heq => hsection (NodeType.ofKind_eq_iff.1.mp heq)
  let names (node : Node) : String × String × String := (node.id, node.name, node.ownerText)
  have hnames : names (forest.nest.node id) = names (Forest.nameNode key (forest.node id)) :=
    h.view_nest (fun _ _ => rfl) (fun _ _ => rfl) hkey
  rw [Forest.nameNode_of_not_section htype] at hnames
  obtain ⟨hid, hrest⟩ := Prod.mk.inj hnames
  obtain ⟨hname, howner⟩ := Prod.mk.inj hrest
  exact ⟨hid, hname, howner⟩

/-- What follows nesting keeps the names of all nodes. -/
theorem names_resolve (collection : Collection) (settings : Settings) (id : NodeId) :
    ((collection.resolve settings).node id).name = (collection.nested.node id).name ∧
      ((collection.resolve settings).node id).ownerText =
        (collection.nested.node id).ownerText := by
  have hcolumn : (collection.nested.classify.linkRelations.assignPartitions settings).column
      (fun node => (node.name, node.ownerText)) =
        collection.nested.column fun node => (node.name, node.ownerText) :=
    (Forest.column_placed (fun _ _ => rfl) (fun _ _ _ _ _ _ _ => rfl) settings _).trans
      (Forest.column_classify (Forest.view_classifyNode fun _ _ _ => rfl) _)
  exact Prod.mk.inj (Forest.view_node_eq_of_column_eq hcolumn id)

/-- After any sequence of insertions and for all settings, let a node that can be reached carry a
record that declares neither a section nor a constructor. The final id of the node is the id of the
record exactly when the record has no section or one without delimiters, and then the owner's text
followed by the name is this id too. -/
theorem final_id_eq_record_id_iff (records : List Record) (settings : Settings) (id : NodeId)
    (record : Record)
    (hreachable : ((empty.insertAll records).resolve settings).ownership.Reachable id)
    (hrecord : (empty.insertAll records).records.values[id]? = some record)
    (hsection : record.kind ≠ .section) (hconstructor : record.kind ≠ .constructor) :
    let node := ((empty.insertAll records).resolve settings).node id
    (node.id = record.id ↔ ∀ sectionName ∈ record.section, DelimiterFree sectionName) ∧
      (node.id = record.id → node.ownerText ++ node.name = record.id) := by
  intro node
  obtain ⟨root, hroot, h⟩ := exists_unentered records
  obtain ⟨moved, hmoved, hkey⟩ := exists_key_of_reachable hreachable hrecord
  rw [Record.append_key_of_not_section hsection] at hkey
  obtain ⟨hid, hname, howner⟩ := names_nested h.toNestable hrecord hsection hkey
  have htype : node.type ≠ .constructor := by
    intro htype
    apply hconstructor
    have hnested := (Forest.isConstructor_placed settings _ id).mp htype
    exact NodeType.ofKind_eq_iff.2.mp ((type_nested hrecord).symm.trans hnested)
  have hfinal : node.id = ((empty.insertAll records).nested.node id).id := by
    have hcases : node.id = if node.type = .constructor then _ else _ := final_id_eq hreachable
    rwa [if_neg htype] at hcases
  obtain ⟨hnameKept, hownerKept⟩ := names_resolve (empty.insertAll records) settings id
  refine ⟨?_, fun hsame => ?_⟩
  · rw [hfinal, hid, QualifiedName.text_dropSection_eq_iff, delimiterFree_append]
    cases record.section with
    | none => simp [hmoved]
    | some sectionName => simp [hmoved]
  · rw [hnameKept, hownerKept, hname, howner, QualifiedName.ownerText_append_lastSegment, ← hid,
      ← hfinal, hsame]

/-- A class in a section, a method of it without one, and a property in a section with a delimiter. -/
def methodOutsideSection : List Record :=
  [{ id := "Element", kind := .class, «section» := some "DOM" },
    { id := "Element#hide", kind := .method },
    { id := "depth", kind := .property, «section» := some "A.B" }]

/-- The method moves into the section of its class and keeps its id, while the id of the property
keeps a part of its section. -/
theorem final_id_eq_record_id_of_methodOutsideSection :
    let collection := empty.insertAll methodOutsideSection
    let tree := collection.resolve {}
    (Forest.ofCollection collection).assignSections.keys.get? "DOM.Element#hide" = some 1 ∧
      tree.ownership.Reachable 1 ∧ (tree.node 1).id = "Element#hide" ∧
      (tree.node 1).ownerText ++ (tree.node 1).name = "Element#hide" ∧
      tree.ownership.Reachable 2 ∧ (tree.node 2).id ≠ "depth" := by
  intro collection tree
  let summary (record : Record) : String × RecordKind × Option String :=
    (record.id, record.kind, record.section)
  obtain ⟨hmoved, hseated, hmethod, hproperty⟩ :
      (Forest.ofCollection collection).assignSections.keys.get? "DOM.Element#hide" = some 1 ∧
      (Forest.ofCollection collection).assignSections.seated = [2, 3, 1] ∧
      collection.records.values[1]?.map summary = some ("Element#hide", .method, none) ∧
      collection.records.values[2]?.map summary = some ("depth", .property, some "A.B") := by
    simp only [collection, summary, Forest.assignSections_eval]
    decide +kernel
  obtain ⟨root, hroot, _⟩ := exists_unentered methodOutsideSection
  have hreach (id : NodeId) (hid : id ∈ [2, 3, 1]) : tree.ownership.Reachable id :=
    (reachable_resolve_iff hroot {}).mpr (hseated ▸ hid)
  obtain ⟨method, hmethodValue, hmethod⟩ := Option.map_eq_some_iff.mp hmethod
  obtain ⟨property, hpropertyValue, hproperty⟩ := Option.map_eq_some_iff.mp hproperty
  simp only [summary, Prod.mk.injEq] at hmethod hproperty
  obtain ⟨hmethodId, hmethodKind, hmethodSection⟩ := hmethod
  obtain ⟨hpropertyId, hpropertyKind, hpropertySection⟩ := hproperty
  obtain ⟨hkept, hnames⟩ := final_id_eq_record_id_iff methodOutsideSection {} 1 method
    (hreach 1 (by decide)) hmethodValue (by simp [hmethodKind]) (by simp [hmethodKind])
  obtain ⟨hchanged, _⟩ := final_id_eq_record_id_iff methodOutsideSection {} 2 property
    (hreach 2 (by decide)) hpropertyValue (by simp [hpropertyKind]) (by simp [hpropertyKind])
  have hid : (tree.node 1).id = method.id := hkept.mpr (by simp [hmethodSection])
  refine ⟨hmoved, hreach 1 (by decide), hmethodId ▸ hid, hmethodId ▸ hnames hid,
    hreach 2 (by decide), fun hsame => ?_⟩
  have hfree := hchanged.mp (hsame.trans hpropertyId.symm) "A.B" hpropertySection
  exact absurd (hfree '.' (by simp)) (by decide)

end Collection

end SymbolTree
