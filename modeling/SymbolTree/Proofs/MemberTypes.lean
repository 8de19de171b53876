import SymbolTree.Proofs.LinkedRelations
import SymbolTree.Proofs.RelativeIds

/-!
# Types read off the raw text

Classification decides by the qualifiers of a parsed name. What follows the first `@` stays
verbatim, so a name has an event exactly when its text contains `@`, and without one its other
qualifiers are exactly the delimiters in its text. The type of a member can therefore be read off
the characters of its final id. Every node with a place is classified once, whether the lookup names
it or not, and nothing that follows changes its type or, unless it is a constructor, its id.
-/

namespace SymbolTree

/-- Each qualifier has a delimiter of its own. -/
theorem Qualifier.mark_inj {a b : Qualifier} : a.mark = b.mark ↔ a = b := by
  cases a <;> cases b <;> decide

namespace QualifiedName

/-- Splitting a text yields a member for each kind of delimiter in it, as long as no event hides the
delimiters that follow. -/
private theorem exists_member_split_iff {qualifier : Qualifier} {chars : List Char}
    (hvisible : qualifier = .event ∨ '@' ∉ chars) :
    (∃ segment, (qualifier, segment) ∈ (split chars).2) ↔ qualifier.mark ∈ chars := by
  induction chars with
  | nil => simp [split]
  | cons c rest ih =>
    have hrest := ih (hvisible.imp_right fun hnone hmem => hnone (List.mem_cons_of_mem _ hmem))
    have hsame (held : Qualifier) : qualifier.mark = held.mark ↔ qualifier = held :=
      Qualifier.mark_inj
    rw [split, List.mem_cons, ← hrest]
    split
    · rename_i hevent
      subst hevent
      obtain rfl : qualifier = .event :=
        hvisible.resolve_right fun hnone => hnone List.mem_cons_self
      simp [Qualifier.mark]
    · rename_i hevent
      simp only
      split
      · rename_i hstatic
        subst hstatic
        simp [exists_or, ← hsame, Qualifier.mark]
      · split
        · rename_i hinst
          subst hinst
          simp [exists_or, ← hsame, Qualifier.mark]
        · rename_i hstatic hinst
          have hne : qualifier.mark ≠ c := by
            cases qualifier with
            | static => exact Ne.symm hstatic
            | inst => exact Ne.symm hinst
            | event => exact Ne.symm hevent
          simp [hne]

/-- An id has a qualifier exactly when its text contains the delimiter, as long as no event hides
the delimiters that follow. -/
theorem hasQualifier_parse_iff {qualifier : Qualifier} {id : String}
    (hvisible : qualifier = .event ∨ '@' ∉ id.toList) :
    (parse id).hasQualifier qualifier = true ↔ qualifier.mark ∈ id.toList := by
  rw [← exists_member_split_iff hvisible]
  simp [hasQualifier, parse]

end QualifiedName

/-- The type of a symbol of a kind, read off the characters of its id. The first rule that applies
decides. -/
def RecordKind.finalType (kind : RecordKind) (id : String) : NodeType :=
  if kind.isGeneric = false then .ofKind kind
  else if id.toList.head? = some '$' then .utility
  else if '@' ∈ id.toList then .event
  else if '#' ∈ id.toList then if kind = .method then .instanceMethod else .instanceProperty
  else if '.' ∈ id.toList then if kind = .method then .classMethod else .classProperty
  else .ofKind kind

namespace Forest

variable {forest : Forest} {root id : NodeId}

/-- The type of a method or property is the one that its text shows. -/
theorem memberType_ofKind {kind : RecordKind} (hgeneric : kind.isGeneric = true) (id : String) :
    memberType id (.ofKind kind) = kind.finalType id := by
  have hmethod : NodeType.ofKind kind = .method ↔ kind = .method := by cases kind <;> decide
  have hopen : ¬ kind.isGeneric = false := by simp [hgeneric]
  unfold memberType RecordKind.finalType
  by_cases hevent : '@' ∈ id.toList
  · have hname : (QualifiedName.parse id).hasQualifier .event = true :=
      (QualifiedName.hasQualifier_parse_iff (.inl rfl)).mpr hevent
    simp only [if_neg hopen, if_pos hevent, if_pos hname]
  · have hname (qualifier : Qualifier) :
        (QualifiedName.parse id).hasQualifier qualifier = true ↔ qualifier.mark ∈ id.toList :=
      QualifiedName.hasQualifier_parse_iff (.inr hevent)
    simp only [if_neg hopen, if_neg hevent, hname, Qualifier.mark, hmethod]

/-- Classification gives a node the type that its text shows, and leaves the types of all kinds but
methods and properties alone. -/
theorem type_classifyNode_ofKind {node : Node} {kind : RecordKind}
    (htype : node.type = .ofKind kind) : (classifyNode node).type = kind.finalType node.id := by
  have hgeneric : (NodeType.ofKind kind).isGeneric = kind.isGeneric := by cases kind <;> rfl
  unfold classifyNode
  split
  · rename_i hconstructor
    obtain rfl := NodeType.ofKind_eq_iff.2.mp (htype.symm.trans hconstructor)
    exact htype
  · rw [htype, hgeneric]
    split
    · rename_i hkind
      exact memberType_ofKind hkind node.id
    · rename_i hkind
      rw [RecordKind.finalType, if_pos (Bool.eq_false_iff.mpr hkind), htype]

/-- Every seated node is classified on its own. -/
theorem Nestable.node_classify_of_seated (h : forest.Nestable root) (hid : id ∈ forest.seated) :
    forest.nest.classify.node id = classifyNode (forest.nest.node id) := by
  rw [node_classify]
  by_cases hplaced : id ∈ forest.nest.placed
  · exact node_withTypes_of_mem h.nodup_placed_nest hplaced (h.lt_size_of_seated hid)
  · -- A seated node that is not placed is a section, which classification leaves alone.
    have hsection : (forest.nest.node id).isSection = true := by
      rw [isSection_eq forest.types_nest, ← Bool.not_eq_false]
      exact fun hsection => hplaced (h.mem_placed_nest.mpr ⟨hid, hsection⟩)
    have htype : (forest.nest.node id).type = .section := eq_of_beq hsection
    rw [node_withTypes_of_notMem hplaced, classifyNode, htype, if_neg (by decide),
      if_neg (by decide)]

end Forest

namespace Collection

variable {records : List Record} {settings : Settings} {id : NodeId} {record : Record}

/-- A node whose record declares no constructor ends with the id that nesting gives it. -/
theorem final_id_eq_nested
    (hreachable : ((empty.insertAll records).resolve settings).ownership.Reachable id)
    (hrecord : (empty.insertAll records).records.values[id]? = some record)
    (hconstructor : record.kind ≠ .constructor) :
    (((empty.insertAll records).resolve settings).node id).id =
      ((empty.insertAll records).nested.node id).id := by
  have hfinal := final_id_eq hreachable
  simp only at hfinal
  rw [hfinal, if_neg]
  intro htype
  have hnested := (Forest.isConstructor_placed settings _ id).mp htype
  exact hconstructor (NodeType.ofKind_eq_iff.2.mp ((type_nested hrecord).symm.trans hnested))

/-- After any sequence of insertions and for all settings, every node that can be reached has a
filed record, inserted or a twin, and the type of the node can be read off the kind of the record
and the characters of the final id. -/
theorem final_type_read_off_id (records : List Record) (settings : Settings) :
    let collection := empty.insertAll records
    let tree := collection.resolve settings
    ∀ id, tree.ownership.Reachable id →
      ∃ record, collection.records.values[id]? = some record ∧ record ∈ filings records ∧
        (tree.node id).type = record.kind.finalType (tree.node id).id := by
  intro collection tree id hreachable
  obtain ⟨record, hrecord, hfiled⟩ := exists_record_of_reachable hreachable
  obtain ⟨root, hroot, h⟩ := exists_unentered records
  have hseated := (reachable_resolve_iff hroot settings).mp hreachable
  have htype : (tree.node id).type = record.kind.finalType (collection.nested.node id).id :=
    calc (tree.node id).type
      _ = (collection.nested.classify.node id).type :=
        Forest.view_node_eq_of_column_eq
          (Forest.column_placed (fun _ _ => rfl) (fun _ _ _ _ _ _ _ => rfl) settings _) id
      _ = (Forest.classifyNode (collection.nested.node id)).type :=
        congrArg Node.type (h.node_classify_of_seated hseated)
      _ = _ := Forest.type_classifyNode_ofKind (type_nested hrecord)
  refine ⟨record, hrecord, hfiled, ?_⟩
  by_cases hconstructor : record.kind = .constructor
  · -- A renamed constructor has another id, but its type does not depend on it.
    rw [htype, hconstructor]
    rfl
  · rw [htype, final_id_eq_nested hreachable hrecord hconstructor]

/-- A bound method, a property in another section that competes for its id, and a method and an
event that no class holds. -/
def membersOfFiveTypes : List Record :=
  [{ id := "Box.wrap", kind := .method, bound := true, «section» := some "A", line := 1 },
    { id := "Box.wrap", kind := .property, «section» := some "B", line := 2 },
    { id := "$x@y", kind := .method },
    { id := "on@a.b#c", kind := .property }]

/-- The twin of the bound method is an instance method, and the property that loses its id is a
class property all the same. A leading `$` comes before an event, and an event before the delimiters
in its name. -/
theorem final_type_read_off_id_of_membersOfFiveTypes :
    let tree := (empty.insertAll membersOfFiveTypes).resolve {}
    (∀ id ∈ [1, 2, 3, 4, 5], tree.ownership.Reachable id) ∧
      [1, 2, 3, 4, 5].map (fun id => (tree.node id).type) =
        [.utility, .event, .instanceMethod, .classMethod, .classProperty] ∧
      (tree.node 5).id = "Box.wrap" ∧ tree.lookup.get? "Box.wrap" = some 4 := by
  intro tree
  let collection := empty.insertAll membersOfFiveTypes
  obtain ⟨hseated, hkinds, hids, hheld⟩ :
      (Forest.ofCollection collection).assignSections.seated = [1, 2, 3, 4, 5] ∧
      collection.records.values.map Record.kind =
        [.section, .method, .property, .method, .method, .property] ∧
      [1, 2, 3, 4, 5].map (fun id => (collection.nested.node id).id) =
        ["$x@y", "on@a.b#c", "Box#wrap", "Box.wrap", "Box.wrap"] ∧
      collection.nested.classify.lookup.get? "Box.wrap" = some 4 := by
    simp only [collection, nested_eval, Forest.classify_eval, Forest.assignSections_eval]
    decide +kernel
  obtain ⟨root, hroot, _⟩ := exists_unentered membersOfFiveTypes
  have hreach (id : NodeId) (hid : id ∈ [1, 2, 3, 4, 5]) : tree.ownership.Reachable id :=
    (reachable_resolve_iff hroot {}).mpr (hseated ▸ hid)
  have hlookup : tree.lookup = collection.nested.classify.lookup := Forest.lookup_placed {} _
  have hshown (id : NodeId) (hid : id ∈ [1, 2, 3, 4, 5]) {kind : RecordKind}
      (hkind : (collection.records.values.map Record.kind)[id]? = some kind)
      (hconstructor : kind ≠ .constructor) :
      (tree.node id).id = (collection.nested.node id).id ∧
        (tree.node id).type = kind.finalType (collection.nested.node id).id := by
    obtain ⟨record, hrecord, _, htype⟩ :=
      final_type_read_off_id membersOfFiveTypes {} id (hreach id hid)
    rw [List.getElem?_map, hrecord] at hkind
    obtain rfl := Option.some.inj hkind
    have hfinal := final_id_eq_nested (hreach id hid) hrecord hconstructor
    exact ⟨hfinal, htype.trans (congrArg _ hfinal)⟩
  rw [hkinds] at hshown
  simp only [List.map_cons, List.map_nil, List.cons.injEq, and_true] at hids
  obtain ⟨hutility, hevent, htwin, hmethod, hproperty⟩ := hids
  refine ⟨hreach, ?_, ?_, by rw [hlookup, hheld]⟩
  · simp only [List.map_cons, List.map_nil]
    rw [(hshown 1 (by decide) rfl (by decide)).2, (hshown 2 (by decide) rfl (by decide)).2,
      (hshown 3 (by decide) rfl (by decide)).2, (hshown 4 (by decide) rfl (by decide)).2,
      (hshown 5 (by decide) rfl (by decide)).2, hutility, hevent, htwin, hmethod, hproperty]
    decide +kernel
  · rw [(hshown 5 (by decide) rfl (by decide)).1, hproperty]

end Collection

end SymbolTree
