import SymbolTree.Proofs.Ancestry
import SymbolTree.Proofs.Ownership.Moves

/-!
# Ownership while relations are linked

Up to the merge of inherited members every edge is owned. Linking a class to its superclass detaches
it when it is nested there, and merging reorders the owned edges of a class and adds inherited ones.
What holds afterwards is collected in `WellLinked`.
-/

namespace SymbolTree.Forest

open scoped List

variable {forest : Forest} {members : List NodeId} {rank : NodeId → Nat}

/-- Owned edges form a forest, only classes list inherited members, and every edge leads to a
node. -/
structure WellLinked (forest : Forest) (members : List NodeId) (rank : NodeId → Nat) : Prop where
  /-- Owned edges form a forest. -/
  isForest : forest.ownership.IsForest members rank
  /-- The top is owned. -/
  isOwned_top : ∀ {edge}, edge ∈ forest.top → edge.isOwned = true
  /-- Only classes list inherited members. -/
  isOwned_child : ∀ {id edge}, (forest.node id).isClass = false →
    edge ∈ (forest.node id).children → edge.isOwned = true
  /-- Every edge leads to a node. -/
  child_lt_size : ∀ {id edge}, edge ∈ (forest.node id).children →
    edge.child < forest.nodes.size

/-- Owned edges form a forest, and there are no others. -/
structure AllOwned (forest : Forest) (members : List NodeId) (rank : NodeId → Nat) : Prop where
  /-- Owned edges form a forest. -/
  isForest : forest.ownership.IsForest members rank
  /-- The top is owned. -/
  isOwned_top : ∀ {edge}, edge ∈ forest.top → edge.isOwned = true
  /-- All children are owned. -/
  isOwned_child : ∀ {id edge}, edge ∈ (forest.node id).children → edge.isOwned = true

/-- What can happen when a class is linked to its superclass. -/
theorem linkSuperclass_cases (forest : Forest) (id : NodeId) :
    (((forest.node id).isClass = false ∨ (forest.node id).superclass = none) ∧
      forest.linkSuperclass id = forest) ∨
    ∃ superclass, (forest.node id).isClass = true ∧ (forest.node id).superclass = some superclass ∧
      ((forest.lookup.get? superclass = some id ∧
        forest.linkSuperclass id =
          forest.report (.cycle (forest.node id).id [(forest.node id).id, (forest.node id).id])) ∨
      (∃ parent, forest.lookup.get? superclass = some parent ∧ parent ≠ id ∧
        (forest.node parent).isClass = true ∧ forest.linkSuperclass id = forest.adopt parent id) ∨
      ((∀ parent, forest.lookup.get? superclass = some parent →
          parent ≠ id ∧ (forest.node parent).isClass = false) ∧
        forest.linkSuperclass id =
          forest.report (.missingAncestor (forest.node id).id superclass .superclass))) := by
  unfold linkSuperclass
  simp only
  cases hclass : (forest.node id).isClass with
  | false => exact .inl ⟨.inl rfl, rfl⟩
  | true =>
    cases hsuper : (forest.node id).superclass with
    | none => exact .inl ⟨.inr rfl, rfl⟩
    | some superclass =>
      refine .inr ⟨superclass, rfl, rfl, ?_⟩
      cases hlookup : forest.lookup.get? superclass with
      | none => simp [hlookup]
      | some parent =>
        by_cases hself : parent = id
        · simp [hlookup, hself]
        · cases hparent : (forest.node parent).isClass <;> simp [hlookup, hself, hparent]

/-- A superclass keeps the children other than the class that it adopts. -/
theorem children_adopt {parent : NodeId} (hparent : parent < forest.nodes.size)
    (id other : NodeId) :
    ((forest.adopt parent id).node other).children =
      if other = parent then (forest.node other).children.filter (·.child != id)
      else (forest.node other).children := by
  have hnode := forest.node_modify parent (fun node =>
    { node with
      subclasses := appendNew node.subclasses (forest.node id).id
      children := node.children.filter (·.child != id) }) other
  have hadopted : (forest.adopt parent id).node other = (forest.modify parent fun node =>
      { node with
        subclasses := appendNew node.subclasses (forest.node id).id
        children := node.children.filter (·.child != id) }).node other := by
    unfold adopt
    simp only
    split <;> rfl
  rw [hadopted, hnode]
  by_cases hother : other = parent
  · rw [if_pos ⟨hother, hparent⟩, if_pos hother]
  · rw [if_neg fun hand => hother hand.1, if_neg hother]

namespace AllOwned

/-- A node owns all that it lists. -/
theorem owns_iff (h : forest.AllOwned members rank) {parent id : NodeId} :
    forest.ownership.Owns parent id ↔ ∃ edge ∈ (forest.node parent).children, edge.child = id := by
  have hfilter : (forest.node parent).ownedEdges = (forest.node parent).children :=
    List.filter_eq_self.mpr fun edge hedge => h.isOwned_child hedge
  simp only [Ownership.Owns, ownership, Node.ownedChildren, hfilter, List.mem_map]

/-- A forest that differs in nothing that concerns edges keeps the property. -/
theorem of_children_eq (h : forest.AllOwned members rank) {other : Forest}
    (htop : other.top = forest.top)
    (hchildren : other.column Node.children = forest.column Node.children) :
    other.AllOwned members rank := by
  have hnode (id : NodeId) : (other.node id).children = (forest.node id).children :=
    view_node_eq_of_column_eq hchildren id
  refine ⟨?_, fun hedge => h.isOwned_top (htop ▸ hedge),
    fun {id edge} hedge => h.isOwned_child (hnode id ▸ hedge)⟩
  refine h.isForest.of_perm (size_eq_of_column_eq hchildren) ?_ fun id => ?_
  · rw [ownership, ownership, htop]
  · refine List.Perm.of_eq ?_
    simp only [ownership, Node.ownedChildren, Node.ownedEdges, hnode id]

private theorem size_adopt (parent id : NodeId) :
    (forest.adopt parent id).nodes.size = forest.nodes.size :=
  size_eq_of_column_eq (column_adopt (fun _ _ _ => rfl) forest parent id :
    _ = forest.column Node.location)

/-- A superclass that owns the class hands it to the top. -/
theorem ownership_adopt_of_owns (h : forest.AllOwned members rank) {parent id : NodeId}
    (howns : forest.ownership.Owns parent id) :
    (forest.adopt parent id).ownership = forest.ownership.detach parent id := by
  have hparent : parent < forest.nodes.size := h.isForest.lt_size (h.isForest.owner_mem howns)
  have hany : (forest.node parent).children.any (·.child == id) = true := by
    obtain ⟨edge, hedge, hchild⟩ := h.owns_iff.mp howns
    exact List.any_eq_true.mpr ⟨edge, hedge, beq_iff_eq.mpr hchild⟩
  have htop : (forest.adopt parent id).top = forest.top ++ [.owned id] := by
    unfold adopt
    simp only [hany, if_true]
    rfl
  refine Ownership.ext (size_adopt parent id)
    (by simp [ownership, Ownership.detach, htop, Edge.child]) (funext fun other => ?_)
  have howned (node : Node) (hfilter : node.children =
      (forest.node parent).children.filter (·.child != id)) :
      node.ownedChildren = (forest.node parent).ownedChildren.filter (· != id) := by
    rw [Node.ownedChildren, Node.ownedEdges, hfilter, Node.ownedChildren, Node.ownedEdges,
      List.filter_map, List.filter_filter, List.filter_filter]
    refine congrArg _ (List.filter_congr fun edge _ => ?_)
    exact Bool.and_comm _ _
  by_cases hother : other = parent
  · subst hother
    simp only [Ownership.detach, Function.update_self]
    exact howned _ (by rw [children_adopt hparent, if_pos rfl])
  · simp only [Ownership.detach, Function.update_of_ne hother, ownership, Node.ownedChildren,
      Node.ownedEdges, children_adopt hparent, if_neg hother]

/-- A superclass that does not own the class keeps its children. -/
theorem adopt_of_not_owns (h : forest.AllOwned members rank) {parent id : NodeId}
    (hparent : parent < forest.nodes.size) (howns : ¬ forest.ownership.Owns parent id) :
    (forest.adopt parent id).top = forest.top ∧
      (forest.adopt parent id).column Node.children = forest.column Node.children := by
  have hne : ∀ edge ∈ (forest.node parent).children, edge.child ≠ id := by
    rintro edge hedge rfl
    exact howns (h.owns_iff.mpr ⟨edge, hedge, rfl⟩)
  have hany : ¬ (forest.node parent).children.any (·.child == id) = true := by
    simpa using hne
  constructor
  · unfold adopt
    simp only [hany]
    rfl
  · refine column_eq_of_view_node_eq (size_adopt parent id) fun other => ?_
    rw [children_adopt hparent]
    split
    · rename_i hother
      refine List.filter_eq_self.mpr fun edge hedge => ?_
      simpa using hne edge (hother ▸ hedge)
    · rfl

/-- Listing a class with its superclass keeps a forest of owned edges. -/
theorem adopt (h : forest.AllOwned members rank) {parent : NodeId}
    (hparent : parent < forest.nodes.size) (id : NodeId) :
    (forest.adopt parent id).AllOwned members rank := by
  by_cases howns : forest.ownership.Owns parent id
  · refine ⟨h.ownership_adopt_of_owns howns ▸ h.isForest.detach howns, fun {edge} hedge => ?_,
      fun {other edge} hedge => ?_⟩
    · have htop : (forest.adopt parent id).top = forest.top ∨
          (forest.adopt parent id).top = forest.top ++ [.owned id] := by
        unfold Forest.adopt
        simp only
        split
        · exact .inr rfl
        · exact .inl rfl
      rcases htop with htop | htop
      · exact h.isOwned_top (htop ▸ hedge)
      · rcases List.mem_append.mp (htop ▸ hedge) with hedge | hedge
        · exact h.isOwned_top hedge
        · rw [List.mem_singleton.mp hedge]
          rfl
    · rw [children_adopt hparent] at hedge
      split at hedge
      · exact h.isOwned_child (List.mem_filter.mp hedge).1
      · exact h.isOwned_child hedge
  · obtain ⟨htop, hchildren⟩ := h.adopt_of_not_owns hparent howns
    exact h.of_children_eq htop hchildren

/-- Linking a class to its superclass keeps a forest of owned edges. -/
theorem linkSuperclass (h : forest.AllOwned members rank) (id : NodeId) :
    (forest.linkSuperclass id).AllOwned members rank := by
  rcases forest.linkSuperclass_cases id with
    ⟨_, heq⟩ | ⟨superclass, _, _, ⟨_, heq⟩ | ⟨parent, _, _, hclass, heq⟩ | ⟨_, heq⟩⟩
  · rwa [heq]
  · exact heq ▸ h.of_children_eq rfl rfl
  · exact heq ▸ h.adopt (lt_size_of_isClass hclass) id
  · exact heq ▸ h.of_children_eq rfl rfl

end AllOwned

/-- How a forest looks while members are merged into the classes of another one: a node lists what
it listed before, or it is a class and lists the edges that it owned before and inherited ones. -/
structure Merging (before forest : Forest) : Prop where
  /-- The top stays. -/
  top_eq : forest.top = before.top
  /-- The types stay. -/
  types_eq : forest.column Node.type = before.column Node.type
  /-- Every node keeps its children or has merged ones. -/
  children : ∀ id, (forest.node id).children = (before.node id).children ∨
    (before.node id).isClass = true ∧ ∃ inherited,
      (forest.node id).children ~ (before.node id).ownedEdges ++ inherited ∧
      ∀ edge ∈ inherited, edge.isOwned = false ∧
        ∃ owner, ∃ own ∈ (before.node owner).ownedEdges, edge.child = own.child

namespace Merging

/-- Merging into one more class. -/
theorem mergeInto {before forest : Forest} (h : Merging before forest) (id : NodeId) :
    Merging before (mergeInto before.lineage forest id) where
  top_eq := by
    rw [← h.top_eq]
    rw [mergeInto_eq]
    split <;> rfl
  types_eq := by
    rw [← h.types_eq]
    exact column_mergeInto (fun _ _ _ => rfl) before.lineage forest id
  children other := by
    rcases children_mergeInto before.lineage forest id other with hsame | ⟨hclass, hmerged⟩
    · rw [hsame]
      exact h.children other
    · right
      rw [isClass_eq h.types_eq] at hclass
      rw [hmerged]
      exact ⟨hclass, mergedChildren_perm before.lineage forest other⟩

/-- Merging keeps what a node owns, up to order. -/
theorem ownedEdges_perm {before forest : Forest} (h : Merging before forest) (id : NodeId) :
    (forest.node id).ownedEdges ~ (before.node id).ownedEdges := by
  rcases h.children id with hsame | ⟨_, inherited, hperm, hinherited⟩
  · rw [Node.ownedEdges, hsame]
    rfl
  · have hnone : inherited.filter (·.isOwned) = [] :=
      List.filter_eq_nil_iff.mpr fun edge hedge => by simp [(hinherited edge hedge).1]
    have howned := hperm.filter (·.isOwned)
    rw [List.filter_append, hnone, List.append_nil] at howned
    refine howned.trans (List.Perm.of_eq ?_)
    rw [Node.ownedEdges, List.filter_filter]
    simp only [Bool.and_self]

/-- Merging into classes whose edges are all owned gives a well-linked forest. -/
theorem wellLinked {before forest : Forest} (h : Merging before forest)
    (hbefore : before.AllOwned members rank) : forest.WellLinked members rank := by
  have hsize : forest.nodes.size = before.nodes.size := size_eq_of_column_eq h.types_eq
  have howned {id : NodeId} {edge : Edge} (hedge : edge ∈ (before.node id).ownedEdges) :
      edge.child < forest.nodes.size := by
    have howns : before.ownership.Owns id edge.child := List.mem_map_of_mem hedge
    exact hsize ▸ hbefore.isForest.lt_size (hbefore.isForest.child_mem howns)
  refine ⟨?_, fun hedge => hbefore.isOwned_top (h.top_eq ▸ hedge), fun {id edge} hclass hedge => ?_,
    fun {id edge} hedge => ?_⟩
  · refine hbefore.isForest.of_perm hsize ?_ fun id => (h.ownedEdges_perm id).map Edge.child
    exact List.Perm.of_eq (congrArg (List.map Edge.child) h.top_eq)
  · rcases h.children id with hsame | ⟨hbeforeClass, _⟩
    · exact hbefore.isOwned_child (hsame ▸ hedge)
    · rw [isClass_eq h.types_eq, hbeforeClass] at hclass
      cases hclass
  · rcases h.children id with hsame | ⟨_, inherited, hperm, hinherited⟩
    · have hbeforeEdge : edge ∈ (before.node id).children := hsame ▸ hedge
      exact howned (List.mem_filter.mpr ⟨hbeforeEdge, hbefore.isOwned_child hbeforeEdge⟩)
    · rcases List.mem_append.mp (hperm.mem_iff.mp hedge) with hown | hadded
      · exact howned hown
      · obtain ⟨_, owner, own, hown, hchild⟩ := hinherited edge hadded
        rw [hchild]
        exact howned hown

end Merging

/-- Linking aliases and copying documentation keep every attribute that ignores both. -/
theorem column_documented {α : Type} {view : Node → α}
    (haliases : ∀ node aliases, view { node with aliases } = view node)
    (hdocs : ∀ node source, view (fillDocs node source) = view node) (forest : Forest)
    (order : List NodeId) :
    (order.foldl copyDocs (order.foldl linkAlias forest)).column view = forest.column view :=
  (foldl_keeps (column view) (fun forest id _ => column_copyDocs hdocs forest id) _).trans
    (foldl_keeps (column view) (fun forest id _ => column_linkAlias haliases forest id) forest)

/-- Linking aliases and copying documentation change nothing but nodes. -/
theorem rest_documented (forest : Forest) (order : List NodeId) :
    (order.foldl copyDocs (order.foldl linkAlias forest)).rest = forest.rest :=
  (foldl_keeps rest (fun forest id _ => rest_copyDocs forest id) _).trans
    (foldl_keeps rest (fun forest id _ => rest_linkAlias forest id) forest)

/-- The forest after aliases are linked, documentation is copied and classes are listed with their
superclasses, in an order of the nodes. -/
def grouped (forest : Forest) (order : List NodeId) : Forest :=
  order.foldl linkSuperclass (order.foldl copyDocs (order.foldl linkAlias forest))

/-- Up to the merge of inherited members all edges are owned. -/
theorem AllOwned.grouped (h : forest.AllOwned members rank) (order : List NodeId) :
    (forest.grouped order).AllOwned members rank := by
  have hdocumented : (order.foldl copyDocs (order.foldl linkAlias forest)).AllOwned members rank :=
    h.of_children_eq (top_eq_of_rest_eq (rest_documented forest order))
      (column_documented (fun _ _ => rfl) (fun _ _ => rfl) forest order)
  exact List.foldlRecOn (motive := fun later => later.AllOwned members rank) order
    Forest.linkSuperclass hdocumented fun _ hlater id _ => hlater.linkSuperclass id

/-- Linking relations between owned nodes gives a well-linked forest. -/
theorem AllOwned.linkRelations (h : forest.AllOwned members rank) :
    forest.linkRelations.WellLinked members rank := by
  let before := forest.grouped forest.placed
  have hstart : Merging before before := ⟨rfl, rfl, fun _ => .inl rfl⟩
  have hmerged : Merging before (forest.placed.foldl (Forest.mergeInto before.lineage) before) :=
    List.foldlRecOn (motive := Merging before) forest.placed (Forest.mergeInto before.lineage)
      hstart fun _ hlater id _ => hlater.mergeInto id
  exact hmerged.wellLinked (h.grouped forest.placed)

end SymbolTree.Forest
