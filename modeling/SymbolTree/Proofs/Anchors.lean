import SymbolTree.Proofs.NavigationPaths
import SymbolTree.Proofs.RelativeIds
import SymbolTree.Proofs.ShownMembers

/-!
# Anchors of members

The anchor of a member is the path of the id that nesting gives it, whatever happens to the id
later. Members whose ids differ thus have different anchors, as long as no class member or nested
entity in these ids is called like a word that paths set between segments.
-/

namespace SymbolTree.Collection

variable {records : List Record} {settings : Settings} {id : NodeId}

/-- A node with a place that is a symbol inside an output file: neither a section nor a class. -/
structure IsMember (tree : ResolvedTree) (id : NodeId) : Prop where
  /-- The node has a place. -/
  reachable : tree.ownership.Reachable id
  /-- It is no section. -/
  not_section : (tree.node id).isSection = false
  /-- It is no class. -/
  not_class : (tree.node id).isClass = false

/-- A resolution leaves every node with a place coherent. -/
theorem coherent_resolve
    (hreachable : ((empty.insertAll records).resolve settings).ownership.Reachable id) :
    (((empty.insertAll records).resolve settings).node id).Coherent := by
  obtain ⟨root, hroot, _⟩ := exists_root records
  have hmember := (reachable_resolve_iff hroot settings).mp hreachable
  have hassigned : (((empty.insertAll records).assigned settings).node id).Coherent := by
    unfold assigned
    split
    · exact Forest.coherent_partitioned (wellLinked_linked hroot).liftClasses.isForest hmember
    · exact Forest.coherent_partitioned (wellLinked_linked hroot).isForest hmember
  exact Forest.coherent_redirected hassigned settings

/-- What follows nesting keeps the paths of all nodes. -/
theorem path_resolve (collection : Collection) (settings : Settings) (id : NodeId) :
    ((collection.resolve settings).node id).path = (collection.nested.node id).path :=
  Forest.view_node_eq_of_column_eq
    ((Forest.column_placed (fun _ _ => rfl) (fun _ _ _ _ _ _ _ => rfl) settings _).trans
      (Forest.column_classify (Forest.view_classifyNode fun _ _ _ => rfl) _)) id

/-- The path of a node that is no section is that of the id which nesting gives it. -/
theorem path_nested
    (hreachable : ((empty.insertAll records).resolve settings).ownership.Reachable id)
    (hsection : (((empty.insertAll records).resolve settings).node id).isSection = false) :
    ((empty.insertAll records).nested.node id).path =
      (QualifiedName.parse ((empty.insertAll records).nested.node id).id).path := by
  let forest := (Forest.ofCollection (empty.insertAll records)).assignSections
  obtain ⟨_, _, h⟩ := exists_unentered records
  obtain ⟨record, hrecord, _⟩ := exists_record_of_reachable hreachable
  obtain ⟨_, _, hkey⟩ := exists_key_of_reachable hreachable hrecord
  have hstart : (forest.node id).isSection = false := by
    rw [Forest.node_assignSections, ← hsection]
    exact (Forest.isSection_resolve settings _ id).symm
  let idAndPath (node : Node) : String × String := (node.id, node.path)
  have hnamed : idAndPath (forest.nest.node id) = idAndPath (Forest.nameNode _ (forest.node id)) :=
    h.view_nest (fun _ _ => rfl) (fun _ _ => rfl) hkey
  rw [Forest.nameNode_of_not_section hstart] at hnamed
  obtain ⟨hid, hpath⟩ := Prod.mk.inj hnamed
  rw [nested, hid, hpath, (QualifiedName.wellFormed_parse _).dropSection.parse_text]

/-- The anchor of a member is the path of the id that nesting gives it. -/
theorem anchor_of_member (h : IsMember ((empty.insertAll records).resolve settings) id) :
    (((empty.insertAll records).resolve settings).node id).anchor =
      some (QualifiedName.parse ((empty.insertAll records).nested.node id).id).path := by
  rw [(coherent_resolve h.reachable).anchor_eq, Forest.anchorOf, h.not_section, h.not_class,
    path_resolve, path_nested h.reachable h.not_section]
  rfl

/-- Ids in which no class member or nested entity is called `prototype` or `event` have one path
only if they are one id. So after any sequence of insertions and for all settings, members have one
anchor exactly if nesting gives them one id, provided that it gives them ids of this kind. -/
theorem paths_identify_members (records : List Record) (settings : Settings) :
    let collection := empty.insertAll records
    let tree := collection.resolve settings
    (∀ a b, (QualifiedName.parse a).AvoidsPathWords → (QualifiedName.parse b).AvoidsPathWords →
      (QualifiedName.parse a).path = (QualifiedName.parse b).path → a = b) ∧
    ∀ a b, IsMember tree a → IsMember tree b →
      (QualifiedName.parse (collection.nested.node a).id).AvoidsPathWords →
      (QualifiedName.parse (collection.nested.node b).id).AvoidsPathWords →
      (tree.node a).anchor.isSome = true ∧
        ((tree.node a).anchor = (tree.node b).anchor ↔
          (collection.nested.node a).id = (collection.nested.node b).id) := by
  intro collection tree
  refine ⟨fun a b => QualifiedName.eq_of_path_parse_eq, fun a b ha hb havoidsA havoidsB => ?_⟩
  have hanchorA := anchor_of_member ha
  have hanchorB := anchor_of_member hb
  refine ⟨Option.isSome_iff_exists.mpr ⟨_, hanchorA⟩, ?_⟩
  rw [hanchorA, hanchorB, Option.some.injEq]
  exact ⟨QualifiedName.eq_of_path_parse_eq havoidsA havoidsB, fun hid => by rw [hid]⟩

/-- Two constructors that are renamed to one id, and an instance member called like a word of
paths. -/
def constructorsOfOneClass : List Record :=
  [{ id := "Box", kind := .constructor }, { id := "Box.new", kind := .constructor },
    { id := "Box#event", kind := .property }]

/-- The constructors keep different anchors, and so does the property. -/
theorem paths_identify_members_of_constructorsOfOneClass :
    let tree := (empty.insertAll constructorsOfOneClass).resolve {}
    (∀ id ∈ [1, 2, 3], IsMember tree id) ∧ (tree.node 1).id = (tree.node 3).id ∧
      (tree.node 1).anchor ≠ (tree.node 2).anchor ∧ (tree.node 1).anchor ≠ (tree.node 3).anchor ∧
      (tree.node 2).anchor ≠ (tree.node 3).anchor := by
  intro tree
  let collection := empty.insertAll constructorsOfOneClass
  obtain ⟨hseated, hkinds, hfinal, hids⟩ :
      (Forest.ofCollection collection).assignSections.seated = [1, 2, 3] ∧
      (∀ id ∈ [1, 2, 3], (tree.node id).isSection = false ∧ (tree.node id).isClass = false) ∧
      (tree.node 1).id = (tree.node 3).id ∧
      [1, 2, 3].map (fun id => (collection.nested.node id).id) =
        ["Box", "Box#event", "Box.new"] := by
    simp only [tree, collection, nested_eval, Forest.assignSections_eval, resolve,
      Forest.resolve_eval]
    decide +kernel
  obtain ⟨root, hroot, _⟩ := exists_unentered constructorsOfOneClass
  have hmembers (id : NodeId) (hid : id ∈ [1, 2, 3]) : IsMember tree id :=
    ⟨(reachable_resolve_iff hroot {}).mpr (hseated ▸ hid), (hkinds id hid).1, (hkinds id hid).2⟩
  simp only [List.map_cons, List.map_nil, List.cons.injEq, and_true] at hids
  obtain ⟨hfirst, hproperty, hsecond⟩ := hids
  obtain ⟨_, hanchors⟩ := paths_identify_members constructorsOfOneClass {}
  have hdiffer (a b : NodeId) (ha : a ∈ [1, 2, 3]) (hb : b ∈ [1, 2, 3])
      (havoidsA : (QualifiedName.parse (collection.nested.node a).id).AvoidsPathWords)
      (havoidsB : (QualifiedName.parse (collection.nested.node b).id).AvoidsPathWords)
      (hne : (collection.nested.node a).id ≠ (collection.nested.node b).id) :
      (tree.node a).anchor ≠ (tree.node b).anchor :=
    mt (hanchors a b (hmembers a ha) (hmembers b hb) havoidsA havoidsB).2.mp hne
  refine ⟨hmembers, hfinal, hdiffer 1 2 (by decide) (by decide) ?_ ?_ ?_,
    hdiffer 1 3 (by decide) (by decide) ?_ ?_ ?_, hdiffer 2 3 (by decide) (by decide) ?_ ?_ ?_⟩
  all_goals simp only [hfirst, hproperty, hsecond]; decide +kernel

end SymbolTree.Collection
