import SymbolTree.Proofs.CanonicalOrder
import SymbolTree.Proofs.LiftedClasses
import SymbolTree.Proofs.RelativeIds

/-!
# Children stand in canonical order

Nesting puts the children of a symbol in the order of their keys. These keys begin with the key of
the symbol, their ids begin with its id, and what follows is the same in both, so keys, ids and the
keys that members are merged by all have one order. Later stages take children out or sort them again
by their member keys.
-/

namespace SymbolTree

/-- Neither a section nor a constructor. -/
def Node.isOrdinary (node : Node) : Bool := node.type != .section && node.type != .constructor

/-- What it means to be ordinary. -/
theorem Node.isOrdinary_iff {node : Node} :
    node.isOrdinary = true ↔ node.type ≠ .section ∧ node.type ≠ .constructor := by
  simp [isOrdinary]

/-- The id of a node that is neither a section nor a constructor. -/
def Node.ordinaryId? (node : Node) : Option String :=
  if node.isOrdinary then some node.id else none

/-- Ordinary nodes are those with an ordinary id. -/
theorem Node.isSome_ordinaryId? (node : Node) : node.ordinaryId?.isSome = node.isOrdinary := by
  unfold ordinaryId?
  cases node.isOrdinary <;> rfl

/-- What it means to have an ordinary id. -/
theorem Node.ordinaryId?_eq_some_iff {node : Node} {id : String} :
    node.ordinaryId? = some id ↔ node.isOrdinary = true ∧ node.id = id := by
  simp [ordinaryId?]

namespace Forest

variable {before later forest : Forest} {id : NodeId}

/-- The children that a node owns, sections and constructors left out. -/
def ordinaryChildren (forest : Forest) (id : NodeId) : List NodeId :=
  (forest.node id).ownedChildren.filter fun child => (forest.node child).isOrdinary

/-- The ordinary children of a node stand in strict canonical order of their ids, and their ids
consist of one beginning and their member keys. -/
structure InOrder (forest : Forest) (id : NodeId) : Prop where
  /-- All ids begin in the same way. -/
  exists_owner : ∃ owner, ∀ child ∈ forest.ordinaryChildren id,
    (forest.node child).id = owner ++ memberKey (forest.node child)
  /-- The ids increase. -/
  increasing : (forest.ordinaryChildren id).Pairwise fun a b =>
    compareIds (forest.node a).id (forest.node b).id = .lt

/-- Member keys depend on ids, constructors apart. -/
theorem memberKey_of_isOrdinary {node : Node} (h : node.isOrdinary = true) :
    memberKey node = QualifiedName.memberText node.id := by
  rw [memberKey, if_neg (Node.isOrdinary_iff.mp h).2]
  rfl

section Transfer

variable (hids : later.column Node.ordinaryId? = before.column Node.ordinaryId?)
include hids

/-- Forests with the same ordinary ids have the same ordinary nodes. -/
theorem isOrdinary_eq (id : NodeId) : (later.node id).isOrdinary = (before.node id).isOrdinary := by
  rw [← Node.isSome_ordinaryId?, ← Node.isSome_ordinaryId?, view_node_eq_of_column_eq hids id]

/-- Forests with the same ordinary ids agree on them. -/
theorem id_eq_of_isOrdinary {child : NodeId} (h : (before.node child).isOrdinary = true) :
    (later.node child).id = (before.node child).id := by
  have hid := view_node_eq_of_column_eq hids child
  rw [Node.ordinaryId?, Node.ordinaryId?, isOrdinary_eq hids, if_pos h, if_pos h] at hid
  exact Option.some.inj hid

/-- Forests with the same ordinary ids agree on the member keys of ordinary nodes. -/
theorem memberKey_eq_of_isOrdinary {child : NodeId} (h : (before.node child).isOrdinary = true) :
    memberKey (later.node child) = memberKey (before.node child) := by
  rw [memberKey_of_isOrdinary h, memberKey_of_isOrdinary ((isOrdinary_eq hids child).trans h),
    id_eq_of_isOrdinary hids h]

/-- Ordinary children that were there before have ids that begin as before. -/
theorem InOrder.exists_owner_of_subset (h : before.InOrder id)
    (hsubset : later.ordinaryChildren id ⊆ before.ordinaryChildren id) :
    ∃ owner, ∀ child ∈ later.ordinaryChildren id,
      (later.node child).id = owner ++ memberKey (later.node child) := by
  obtain ⟨owner, howner⟩ := h.exists_owner
  refine ⟨owner, fun child hchild => ?_⟩
  have hordinary := (List.mem_filter.mp (hsubset hchild)).2
  rw [id_eq_of_isOrdinary hids hordinary, memberKey_eq_of_isOrdinary hids hordinary]
  exact howner child (hsubset hchild)

/-- Children that are taken out leave the others in order. -/
theorem InOrder.of_sublist (h : before.InOrder id)
    (hsub : (later.node id).ownedChildren.Sublist (before.node id).ownedChildren) :
    later.InOrder id := by
  have hchildren : (later.ordinaryChildren id).Sublist (before.ordinaryChildren id) := by
    unfold ordinaryChildren
    simp only [isOrdinary_eq hids]
    exact hsub.filter _
  refine ⟨h.exists_owner_of_subset hids hchildren.subset, ?_⟩
  refine (h.increasing.sublist hchildren).imp_of_mem fun {a b} ha hb hlt => ?_
  rw [id_eq_of_isOrdinary hids (List.mem_filter.mp (hchildren.subset ha)).2,
    id_eq_of_isOrdinary hids (List.mem_filter.mp (hchildren.subset hb)).2]
  exact hlt

/-- Children that are sorted again by their member keys are in order: what their ids begin with does
not matter. -/
theorem InOrder.of_perm (h : before.InOrder id)
    (hperm : (later.node id).ownedChildren.Perm (before.node id).ownedChildren)
    (hsorted : (later.node id).ownedChildren.Pairwise fun a b =>
      (compareIds (memberKey (later.node a)) (memberKey (later.node b))).isLE = true) :
    later.InOrder id := by
  have hchildren : (later.ordinaryChildren id).Perm (before.ordinaryChildren id) := by
    unfold ordinaryChildren
    simp only [isOrdinary_eq hids]
    exact hperm.filter _
  obtain ⟨owner, howner⟩ := h.exists_owner_of_subset hids hchildren.subset
  have hnodup : ((later.ordinaryChildren id).map fun child => (later.node child).id).Nodup := by
    have hsame : (later.ordinaryChildren id).map (fun child => (later.node child).id) =
        (later.ordinaryChildren id).map fun child => (before.node child).id :=
      List.map_congr_left fun child hchild =>
        id_eq_of_isOrdinary hids (List.mem_filter.mp (hchildren.subset hchild)).2
    rw [hsame]
    exact (hchildren.map _).nodup_iff.mpr (nodup_of_pairwise_lt h.increasing)
  refine ⟨⟨owner, howner⟩, pairwise_lt_of_nodup (fun child => (later.node child).id) ?_ hnodup⟩
  refine (hsorted.filter _).imp_of_mem fun {a b} ha hb hle => ?_
  rw [howner a ha, howner b hb, compareIds_append_left]
  exact hle

end Transfer

namespace Nestable

variable {root : NodeId} {sectionName owner : String}

/-- An ordinary node whose structural parent is a symbol has the id of this symbol and a member key
for its id, which follow the section in its key. -/
theorem names_of_parent (h : forest.Nestable root) (hfree : DelimiterFree sectionName) {seat : Seat}
    (hseat : seat ∈ forest.seats) (hparent : seat.parent = some (sectionName ++ "." ++ owner))
    (hordinary : (forest.nest.node seat.id).isOrdinary = true) :
    seat.key = sectionName ++ "." ++ (forest.nest.node seat.id).id ∧
      (forest.nest.node seat.id).id = owner ++ memberKey (forest.nest.node seat.id) := by
  obtain ⟨key, child, hkey, rfl⟩ := mem_seats_iff.mp hseat
  obtain ⟨parent, hname, htext⟩ := Option.map_eq_some_iff.mp hparent
  obtain ⟨member, rfl, hmember⟩ := QualifiedName.exists_member_of_parent? hfree hname htext
  replace hordinary : (forest.nest.node child).isOrdinary = true := hordinary
  have hsection : (forest.node child).isSection = false := by
    rw [← isSection_eq forest.types_nest, Node.isSection, beq_eq_false_iff_ne]
    exact (Node.isOrdinary_iff.mp hordinary).1
  have hid : (forest.nest.node child).id = owner ++ member := by
    have hnamed : (forest.nest.node child).id = (nameNode _ (forest.node child)).id :=
      h.view_nest (fun _ _ => rfl) (fun _ _ => rfl) hkey
    rw [hnamed, nameNode_of_not_section hsection, QualifiedName.dropSection_parse hfree,
      QualifiedName.text_parse]
  have hmemberKey : memberKey (forest.nest.node child) = member := by
    rw [memberKey_of_isOrdinary hordinary, hid, hmember]
  exact ⟨congrArg (sectionName ++ "." ++ ·) hid.symm, hid.trans (congrArg _ hmemberKey.symm)⟩

/-- Nesting puts the children of a symbol in order: their keys and their ids differ in what comes
before the id of the symbol. -/
theorem inOrder_nest (h : forest.Nestable root) (hfree : DelimiterFree sectionName)
    (hkey : forest.keys.get? (sectionName ++ "." ++ owner) = some id) :
    forest.nest.InOrder id := by
  have hne : sectionName ++ "." ++ owner ≠ "" := by
    intro hempty
    have hchars := congrArg String.toList hempty
    simp at hchars
  have hchildren : forest.nest.ordinaryChildren id =
      ((forest.seats.filter fun seat =>
        seat.parent == some (sectionName ++ "." ++ owner)).filter fun seat =>
          (forest.nest.node seat.id).isOrdinary).map (·.id) := by
    rw [ordinaryChildren, ← owned_ownership, h.owned_of_key hne hkey, childIds, List.filter_map]
    rfl
  have hnames {seat : Seat} (hseat : seat ∈ (forest.seats.filter fun seat =>
      seat.parent == some (sectionName ++ "." ++ owner)).filter fun seat =>
        (forest.nest.node seat.id).isOrdinary) :
      seat.key = sectionName ++ "." ++ (forest.nest.node seat.id).id ∧
        (forest.nest.node seat.id).id = owner ++ memberKey (forest.nest.node seat.id) := by
    obtain ⟨hbelow, hordinary⟩ := List.mem_filter.mp hseat
    obtain ⟨hmem, hparent⟩ := List.mem_filter.mp hbelow
    exact h.names_of_parent hfree hmem (beq_iff_eq.mp hparent) hordinary
  refine ⟨⟨owner, ?_⟩, ?_⟩
  · rw [hchildren]
    intro child hchild
    obtain ⟨seat, hseat, rfl⟩ := List.mem_map.mp hchild
    exact (hnames hseat).2
  · rw [hchildren, List.pairwise_map]
    refine ((forest.pairwise_seats.filter _).filter _).imp_of_mem fun {a b} ha hb hlt => ?_
    rw [(hnames ha).1, (hnames hb).1, compareIds_append_left] at hlt
    exact hlt

end Nestable

/-- Nodes whose lists of children have become shorter own fewer children. -/
theorem ownedChildren_sublist {node other : Node} (h : node.children.Sublist other.children) :
    node.ownedChildren.Sublist other.ownedChildren :=
  (h.filter _).map _

/-- Classification renames constructors only, and turns nothing into one. -/
theorem ordinaryId?_classifyNode (node : Node) :
    (classifyNode node).ordinaryId? = node.ordinaryId? := by
  have hsame : (classifyNode node).isOrdinary = node.isOrdinary := by
    rw [Bool.eq_iff_iff, Node.isOrdinary_iff, Node.isOrdinary_iff, ne_eq, ne_eq,
      type_classifyNode_eq_iff (.inl rfl), type_classifyNode_eq_iff (.inr rfl)]
  rw [Node.ordinaryId?, Node.ordinaryId?, hsame]
  split
  · rename_i hordinary
    rw [classifyNode, if_neg (Node.isOrdinary_iff.mp hordinary).2]
    split <;> rfl
  · rfl

/-- Classification makes no classes. -/
theorem isClass_classifyNode (node : Node) : (classifyNode node).isClass = node.isClass := by
  unfold classifyNode
  split
  · rfl
  · split
    · rename_i hgeneric
      rcases Bool.or_eq_true_iff.mp hgeneric with htype | htype <;>
        simp only [Node.isClass, beq_iff_eq.mp htype, memberType] <;> split_ifs <;> rfl
    · rfl

/-- Classification leaves children in order. -/
theorem InOrder.classify (h : forest.InOrder id) : forest.classify.InOrder id := by
  have hchildren : forest.classify.column Node.children = forest.column Node.children :=
    column_classify (view_classifyNode fun _ _ _ => rfl) forest
  refine h.of_sublist (column_classify ordinaryId?_classifyNode forest) (ownedChildren_sublist ?_)
  rw [view_node_eq_of_column_eq hchildren id]

/-- Linking a class to its superclass leaves the children of a node alone, unless it is a class that
some are taken out of. -/
theorem children_linkSuperclass (forest : Forest) (id other : NodeId) :
    ((forest.linkSuperclass id).node other).children = (forest.node other).children ∨
      (forest.node other).isClass = true ∧
        ((forest.linkSuperclass id).node other).children.Sublist (forest.node other).children := by
  rcases forest.linkSuperclass_cases id with
    ⟨_, heq⟩ | ⟨superclass, _, _, ⟨_, heq⟩ | ⟨parent, _, _, hclass, heq⟩ | ⟨_, heq⟩⟩
  · exact .inl (by rw [heq])
  · exact .inl (by rw [heq]; rfl)
  · rw [heq, children_adopt (lt_size_of_isClass hclass)]
    split
    · rename_i hother
      exact .inr ⟨hother ▸ hclass, List.filter_sublist⟩
    · exact .inl rfl
  · exact .inl (by rw [heq]; rfl)

/-- Aliases, documentation and superclasses leave children in order. -/
theorem InOrder.grouped (h : forest.InOrder id) (order : List NodeId) :
    (forest.grouped order).InOrder id := by
  have hids : (forest.grouped order).column Node.ordinaryId? = forest.column Node.ordinaryId? :=
    (foldl_keeps (column Node.ordinaryId?)
      (fun forest id _ => column_linkSuperclass (fun _ _ _ => rfl) forest id) _).trans
      (column_documented (fun _ _ => rfl) (fun _ _ => rfl) forest order)
  have hlisted : (order.foldl copyDocs (order.foldl linkAlias forest)).column Node.children =
      forest.column Node.children :=
    column_documented (fun _ _ => rfl) (fun _ _ => rfl) forest order
  have hchildren : ((forest.grouped order).node id).children.Sublist (forest.node id).children := by
    refine List.foldlRecOn (motive := fun later : Forest =>
      (later.node id).children.Sublist (forest.node id).children) order linkSuperclass
      (view_node_eq_of_column_eq hlisted id ▸ List.Sublist.refl _) fun later hlater other _ => ?_
    rcases later.children_linkSuperclass other id with hsame | ⟨_, hsub⟩
    · exact hsame ▸ hlater
    · exact hsub.trans hlater
  exact h.of_sublist hids (ownedChildren_sublist hchildren)

/-- Merging inherited members into one more class leaves children in order. -/
theorem InOrder.mergeInto (hmerging : Merging before later)
    (hids : later.column Node.ordinaryId? = before.column Node.ordinaryId?)
    (hbefore : before.InOrder id) (hlater : later.InOrder id) (other : NodeId) :
    (Forest.mergeInto before.lineage later other).InOrder id := by
  have hkept : (Forest.mergeInto before.lineage later other).column Node.ordinaryId? =
      later.column Node.ordinaryId? :=
    column_mergeInto (fun _ _ _ => rfl) before.lineage later other
  rcases children_mergeInto before.lineage later other id with hsame | ⟨_, hmerged⟩
  · exact hlater.of_sublist hkept (ownedChildren_sublist (hsame ▸ List.Sublist.refl _))
  · have hperm := ((hmerging.mergeInto other).ownedEdges_perm id).map Edge.child
    have hkeys (child : NodeId) :
        memberKey ((Forest.mergeInto before.lineage later other).node child) =
          memberKey (later.node child) :=
      view_node_eq_of_column_eq
        (column_mergeInto (fun _ _ _ => rfl) before.lineage later other) child
    refine hbefore.of_perm (hkept.trans hids) hperm (List.pairwise_map.mpr ?_)
    simp only [hkeys]
    rw [Node.ownedEdges, hmerged]
    exact (pairwise_sortByIds _ _).filter _

/-- Linking relations leaves children in order. -/
theorem InOrder.linkRelations (h : forest.InOrder id) : forest.linkRelations.InOrder id := by
  let before := forest.grouped forest.placed
  let Ordered (later : Forest) : Prop := Merging before later ∧
    later.column Node.ordinaryId? = before.column Node.ordinaryId? ∧ later.InOrder id
  have hbefore : before.InOrder id := h.grouped forest.placed
  have hstart : Ordered before := ⟨⟨rfl, rfl, fun _ => .inl rfl⟩, rfl, hbefore⟩
  have hend : Ordered forest.linkRelations := by
    refine List.foldlRecOn (motive := Ordered) forest.placed (Forest.mergeInto before.lineage)
      hstart fun later ⟨hmerging, hids, hlater⟩ other _ => ?_
    refine ⟨hmerging.mergeInto other, ?_, .mergeInto hmerging hids hbefore hlater other⟩
    exact (column_mergeInto (fun _ _ _ => rfl) before.lineage later other).trans hids
  exact hend.2.2

/-- Linking relations changes the children of classes only. -/
theorem children_linkRelations_of_not_class (hclass : (forest.node id).isClass = false) :
    (forest.linkRelations.node id).children = (forest.node id).children := by
  let Kept (later : Forest) : Prop :=
    (later.node id).isClass = false ∧ (later.node id).children = (forest.node id).children
  let documented := forest.placed.foldl copyDocs (forest.placed.foldl linkAlias forest)
  have hdocumented : Kept documented := by
    have hchildren : documented.column Node.children = forest.column Node.children :=
      column_documented (fun _ _ => rfl) (fun _ _ => rfl) forest _
    have htypes : documented.column Node.type = forest.column Node.type :=
      column_documented (fun _ _ => rfl) (fun _ _ => rfl) forest _
    exact ⟨(isClass_eq htypes id).trans hclass, view_node_eq_of_column_eq hchildren id⟩
  have hgrouped : Kept (forest.grouped forest.placed) := by
    refine List.foldlRecOn (motive := Kept) forest.placed linkSuperclass hdocumented
      fun later ⟨hlaterClass, hlater⟩ other _ => ?_
    refine ⟨(isClass_eq (column_linkSuperclass (fun _ _ _ => rfl) later other) id).trans
      hlaterClass, ?_⟩
    rcases later.children_linkSuperclass other id with hsame | ⟨hisClass, _⟩
    · exact hsame.trans hlater
    · rw [hlaterClass] at hisClass
      cases hisClass
  have hmerged : Kept forest.linkRelations := by
    refine List.foldlRecOn (motive := Kept) forest.placed
      (Forest.mergeInto (forest.grouped forest.placed).lineage) hgrouped
      fun later ⟨hlaterClass, hlater⟩ other _ => ?_
    refine ⟨(isClass_eq (column_mergeInto (fun _ _ _ => rfl) _ later other) id).trans
      hlaterClass, ?_⟩
    rcases children_mergeInto _ later other id with hsame | ⟨hisClass, _⟩
    · exact hsame.trans hlater
    · rw [hlaterClass] at hisClass
      cases hisClass
  exact hmerged.2

/-- Lifting classes leaves the children of a node in order that is no section. -/
theorem InOrder.liftClasses {members : List NodeId} {rank : NodeId → Nat} (h : forest.InOrder id)
    (hlinked : forest.WellLinked members rank) (hsection : (forest.node id).isSection = false) :
    forest.liftClasses.InOrder id := by
  refine h.of_sublist (column_liftClasses (fun _ _ => rfl) forest) (ownedChildren_sublist ?_)
  rw [hlinked.children_liftClasses, hsection, if_neg Bool.false_ne_true]
  split
  · exact List.filter_sublist
  · exact List.Sublist.refl _

/-- Assigning output files leaves the children of a node in order that is no section. -/
theorem InOrder.assignPartitions {members : List NodeId} {rank : NodeId → Nat}
    (h : forest.InOrder id) (hlinked : forest.WellLinked members rank)
    (hsection : (forest.node id).isSection = false) (settings : Settings) :
    (forest.assignPartitions settings).InOrder id := by
  have hshaped : (if settings.policy = .liftClasses then forest.liftClasses else forest).InOrder
      id := by
    split
    · exact h.liftClasses hlinked hsection
    · exact h
  have howned : (forest.assignPartitions settings).column Node.ownedChildren = _ :=
    column_assignPartitions_shaped ownedChildren_moved settings forest
  refine hshaped.of_sublist (column_assignPartitions_shaped (fun _ _ _ => rfl) settings forest) ?_
  rw [view_node_eq_of_column_eq howned id]

end Forest

namespace Collection

/-- After any sequence of insertions whose sections have no delimiters, and for all settings, the
children that a node owns stand in strict canonical order of their final ids, sections and
constructors left out, unless the node is itself a section. -/
theorem owned_children_increase (records : List Record) (settings : Settings)
    (hsections : ∀ record ∈ records, ∀ sectionName ∈ record.section, DelimiterFree sectionName) :
    let tree := (empty.insertAll records).resolve settings
    ∀ id, tree.ownership.Reachable id → (tree.node id).isSection = false →
      ((tree.node id).ownedChildren.filter fun child => (tree.node child).isOrdinary).Pairwise
        fun a b => compareIds (tree.node a).id (tree.node b).id = .lt := by
  intro tree id hreachable hsection
  obtain ⟨root, hroot, h⟩ := exists_unentered records
  obtain ⟨record, hrecord, hfiled⟩ := exists_record_of_reachable hreachable
  obtain ⟨moved, hmoved, hkey⟩ := exists_key_of_reachable hreachable hrecord
  have hkind : record.kind ≠ .section := by
    intro hkind
    have hstart : ((Forest.ofCollection (empty.insertAll records)).node id).isSection =
        (Node.ofRecord record).isSection := Forest.view_node_ofCollection (fun _ _ => rfl) hrecord
    have hnode : (tree.node id).isSection = true := by
      refine (Forest.isSection_resolve settings _ id).trans (hstart.trans ?_)
      rw [Node.isSection, Node.ofRecord, hkind]
      rfl
    rw [hnode] at hsection
    cases hsection
  have hfree : DelimiterFree (moved ++ record.section.getD "") := by
    obtain ⟨source, hsource, _, rfl⟩ := exists_source_of_mem_filings hfiled
    refine delimiterFree_append.mpr ⟨hmoved, ?_⟩
    cases hname : source.section with
    | none => exact delimiterFree_empty
    | some sectionName => exact hsections source hsource sectionName hname
  have hlinkedSection : ((empty.insertAll records).linked.node id).isSection = false := by
    have htypes : ((empty.insertAll records).linked.assignPartitions settings).column Node.type =
        (empty.insertAll records).linked.column Node.type :=
      Forest.column_assignPartitions (fun _ _ _ _ => rfl) settings _
    exact (Forest.isSection_eq htypes id).symm.trans hsection
  rw [Record.append_key_of_not_section hkind] at hkey
  have hnested := h.toNestable.inOrder_nest hfree hkey
  have hlinked : (empty.insertAll records).linked.InOrder id := hnested.classify.linkRelations
  exact (hlinked.assignPartitions (wellLinked_linked hroot) hlinkedSection settings).increasing

/-- An object with a static and an instance property. -/
def twoProperties : List Record :=
  [{ id := "Options", kind := .property }, { id := "Options.url", kind := .property },
    { id := "Options#async", kind := .property }]

/-- Properties stand in the order of their names, whatever joins these to the object. -/
theorem owned_children_increase_of_twoProperties :
    let tree := (empty.insertAll twoProperties).resolve {}
    tree.ownership.Reachable 1 ∧ (tree.node 1).ownedChildren = [2, 3] ∧
      (tree.node 2).id = "Options#async" ∧ (tree.node 3).id = "Options.url" ∧
      compareIds (tree.node 2).id (tree.node 3).id = .lt := by
  intro tree
  let collection := empty.insertAll twoProperties
  have hcomputed : (Forest.ofCollection collection).assignSections.seated = [1, 2, 3] ∧
      (((Forest.ofCollection collection).node 1).isSection = false ∧
        (collection.nested.node 1).isClass = false) ∧
      (collection.nested.node 1).ownedChildren = [2, 3] ∧
      (collection.nested.node 2).ordinaryId? = some "Options#async" ∧
      (collection.nested.node 3).ordinaryId? = some "Options.url" := by
    simp only [collection, nested_eval, Forest.assignSections_eval]
    decide +kernel
  obtain ⟨hseated, ⟨hsection, hclass⟩, hnested, hfirst, hsecond⟩ := hcomputed
  obtain ⟨root, hroot, _⟩ := exists_root twoProperties
  have hreach : tree.ownership.Reachable 1 := by
    refine (reachable_resolve_iff hroot {}).mpr ?_
    rw [hseated]
    decide
  have hids : (collection.nested.classify.linkRelations.assignPartitions {}).column
      Node.ordinaryId? = collection.nested.column Node.ordinaryId? :=
    (Forest.column_placed (fun _ _ => rfl) (fun _ _ _ _ _ _ _ => rfl) {} _).trans
      (Forest.column_classify Forest.ordinaryId?_classifyNode _)
  have hfinal (id : NodeId) : (tree.node id).ordinaryId? = (collection.nested.node id).ordinaryId? :=
    Forest.view_node_eq_of_column_eq hids id
  obtain ⟨hfirst, hfirstId⟩ := Node.ordinaryId?_eq_some_iff.mp ((hfinal 2).trans hfirst)
  obtain ⟨hsecond, hsecondId⟩ := Node.ordinaryId?_eq_some_iff.mp ((hfinal 3).trans hsecond)
  have howned : (tree.node 1).ownedChildren = [2, 3] := by
    have hclassified : (collection.nested.classify.node 1).isClass = false :=
      (Forest.view_node_eq_of_column_eq
        (Forest.column_classify Forest.isClass_classifyNode collection.nested) 1).trans hclass
    have hchildren : (collection.linked.node 1).children = (collection.nested.node 1).children :=
      (Forest.children_linkRelations_of_not_class hclassified).trans <|
        Forest.view_node_eq_of_column_eq
          (Forest.column_classify (Forest.view_classifyNode fun _ _ _ => rfl) _) 1
    have hplaced : (tree.node 1).ownedChildren = (collection.linked.node 1).ownedChildren :=
      Forest.view_node_eq_of_column_eq
        (Forest.column_assignPartitions_shaped Forest.ownedChildren_moved {} collection.linked) 1
    rw [hplaced, ← hnested, Node.ownedChildren, Node.ownedEdges, hchildren]
    rfl
  have hplain : (tree.node 1).isSection = false :=
    (Forest.isSection_resolve {} _ 1).trans hsection
  have hincreasing := owned_children_increase twoProperties {} (by decide) 1 hreach hplain
  have hordinary : [2, 3].filter (fun child => (tree.node child).isOrdinary) = [2, 3] := by
    simp [hfirst, hsecond]
  rw [howned, hordinary, List.pairwise_pair] at hincreasing
  exact ⟨hreach, howned, hfirstId, hsecondId, hincreasing⟩

end Collection

end SymbolTree
