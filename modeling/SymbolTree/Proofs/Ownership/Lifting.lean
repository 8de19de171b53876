import SymbolTree.Proofs.Ownership.Linking

/-!
# Ownership while output files are assigned

Lifting takes the owned classes out of the nodes of a list and puts them into that list, first for
the top and then for every section at the top. Sections own all that they list, so both are moves
of owned edges. The passes that follow set output files and change no link.
-/

namespace SymbolTree.Forest

open scoped List

variable {forest : Forest} {members : List NodeId} {rank : NodeId → Nat}

/-- A section is no class. -/
theorem isClass_of_isSection {node : Node} (hsection : node.isSection = true) :
    node.isClass = false := by
  rw [Node.isClass, beq_iff_eq.mp hsection]
  rfl

/-- A class is no section. -/
theorem isSection_of_isClass {node : Node} (hclass : node.isClass = true) :
    node.isSection = false := by
  rw [Node.isSection, beq_iff_eq.mp hclass]
  rfl

/-- Whether lifting takes a child out of a node: the child is a class, and the node no section. -/
def movesClass (forest : Forest) (id child : NodeId) : Bool :=
  !(forest.node id).isSection && (forest.node child).isClass

/-- Forests with the same types agree on which edges lead to classes. -/
theorem leadsToClass_eq {a b : Forest} (h : a.column Node.type = b.column Node.type) :
    a.leadsToClass = b.leadsToClass := by
  funext edge
  rw [leadsToClass, leadsToClass, isClass_eq h]

/-- Owned children that are classes, and those that are not, by the edges that lead to them. -/
private theorem map_child_filter_leadsToClass (forest : Forest) (id : NodeId) (moved : Bool) :
    (((forest.node id).children.filter fun edge => forest.leadsToClass edge == moved).filter
        (·.isOwned)).map (·.child) =
      (forest.node id).ownedChildren.filter fun child => (forest.node child).isClass == moved := by
  rw [Node.ownedChildren, Node.ownedEdges, List.filter_map, List.filter_filter, List.filter_filter]
  refine congrArg _ (List.filter_congr fun edge _ => ?_)
  cases howned : edge.isOwned <;> simp [leadsToClass, howned]

private theorem children_dropClasses (forest : Forest) (edge : Edge) (id : NodeId) :
    ((forest.dropClasses edge).node id).children =
      if id = edge.child ∧ (forest.node id).isSection = false then
        (forest.node id).children.filter fun e => !forest.leadsToClass e
      else (forest.node id).children := by
  unfold dropClasses
  cases hsection : (forest.node edge.child).isSection with
  | true =>
    rw [if_pos rfl, if_neg]
    rintro ⟨rfl, hother⟩
    rw [hsection] at hother
    cases hother
  | false =>
    rw [if_neg Bool.false_ne_true]
    by_cases hid : id = edge.child
    · subst hid
      rw [if_pos ⟨rfl, hsection⟩, node_modify]
      split
      · rfl
      · rename_i hsize
        rw [node_eq_default (Nat.le_of_not_lt fun hlt => hsize ⟨rfl, hlt⟩)]
        rfl
    · rw [if_neg fun hand => hid hand.1, node_modify_of_ne hid]

/-- Dropping classes changes no type. -/
theorem types_foldl_dropClasses (forest : Forest) (edges : List Edge) :
    (edges.foldl dropClasses forest).column Node.type = forest.column Node.type :=
  foldl_keeps (column Node.type)
    (fun forest edge _ => column_dropClasses (fun _ _ => rfl) forest edge) forest

/-- After classes have left the nodes of a list, these nodes list what leads to no class. -/
theorem children_foldl_dropClasses (forest : Forest) (edges : List Edge) (id : NodeId) :
    ((edges.foldl dropClasses forest).node id).children =
      if id ∈ edges.map (·.child) ∧ (forest.node id).isSection = false then
        (forest.node id).children.filter fun e => !forest.leadsToClass e
      else (forest.node id).children := by
  induction edges generalizing forest with
  | nil => simp
  | cons edge edges ih =>
    have htypes : (forest.dropClasses edge).column Node.type = forest.column Node.type :=
      column_dropClasses (fun _ _ => rfl) forest edge
    rw [List.foldl_cons, ih, isSection_eq htypes, leadsToClass_eq htypes, children_dropClasses]
    cases hsection : (forest.node id).isSection with
    | true => simp
    | false =>
      -- Dropping the classes of one node twice drops them once.
      by_cases hhere : id = edge.child <;> by_cases hthere : id ∈ edges.map (·.child) <;>
        simp_all [List.filter_filter]

/-- What every node owns after classes have left the nodes of a list. -/
theorem owned_foldl_dropClasses (forest : Forest) (edges : List Edge) (id : NodeId) :
    ((edges.foldl dropClasses forest).node id).ownedChildren =
      forest.ownership.remaining forest.movesClass (edges.map (·.child)) id := by
  have hdropped := map_child_filter_leadsToClass forest id false
  simp only [beq_false] at hdropped
  rw [Ownership.remaining, Node.ownedChildren, Node.ownedEdges, children_foldl_dropClasses]
  by_cases hmem : id ∈ edges.map (·.child)
  · cases hsection : (forest.node id).isSection with
    | true =>
      simp [hmem, movesClass, hsection, ownership, Node.ownedChildren, Node.ownedEdges]
    | false =>
      rw [if_pos ⟨hmem, rfl⟩, if_pos hmem, hdropped]
      simp [movesClass, hsection, ownership]
  · rw [if_neg fun hand => hmem hand.1, if_neg hmem]
    rfl

/-- The nodes of a list with the classes that are lifted out of them. -/
theorem map_child_liftedEdges (forest : Forest) (edges : List Edge) :
    (forest.liftedEdges edges).map (·.child) =
      forest.ownership.lifted forest.movesClass (edges.map (·.child)) := by
  rw [liftedEdges, Ownership.lifted, List.map_flatMap, List.flatMap_map]
  refine List.flatMap_congr fun edge _ => ?_
  cases hsection : (forest.node edge.child).isSection with
  | true =>
    have hmoves : forest.movesClass edge.child = fun _ => false := by
      funext child
      simp [movesClass, hsection]
    simp [hmoves, hsection]
  | false =>
    have hlifted := map_child_filter_leadsToClass forest edge.child true
    have howned : ((forest.node edge.child).children.filter forest.leadsToClass).filter
        (·.isOwned) = (forest.node edge.child).children.filter forest.leadsToClass := by
      refine List.filter_eq_self.mpr fun other hother => ?_
      exact (Bool.and_eq_true_iff.mp (List.mem_filter.mp hother).2).1
    have hmoves : forest.movesClass edge.child = fun child => (forest.node child).isClass := by
      funext child
      simp [movesClass, hsection]
    simp only [beq_true, howned] at hlifted
    simp [hmoves, hsection, ownership, hlifted]

/-- A lifted edge was in the list, or it is an owned child of some node. -/
theorem mem_liftedEdges {edges : List Edge} {edge : Edge}
    (hedge : edge ∈ forest.liftedEdges edges) :
    edge ∈ edges ∨ edge.isOwned = true ∧ ∃ id, edge ∈ (forest.node id).children := by
  obtain ⟨holder, hholder, hedge⟩ := List.mem_flatMap.mp hedge
  simp only at hedge
  split at hedge
  · exact .inl (List.mem_singleton.mp hedge ▸ hholder)
  · rcases List.mem_cons.mp hedge with rfl | hedge
    · exact .inl hholder
    · obtain ⟨hchild, hleads⟩ := List.mem_filter.mp hedge
      exact .inr ⟨(Bool.and_eq_true_iff.mp hleads).1, _, hchild⟩

/-- Dropping classes adds no edge. -/
theorem mem_children_of_foldl_dropClasses {edges : List Edge} {id : NodeId} {edge : Edge}
    (hedge : edge ∈ ((edges.foldl dropClasses forest).node id).children) :
    edge ∈ (forest.node id).children := by
  rw [children_foldl_dropClasses] at hedge
  split at hedge
  · exact (List.mem_filter.mp hedge).1
  · exact hedge

/-- The forest after classes have been lifted into the top. -/
def raised (forest : Forest) : Forest :=
  { forest.top.foldl dropClasses forest with top := forest.liftedEdges forest.top }

/-- Lifting treats the top, and then every section there. -/
theorem liftClasses_eq (forest : Forest) :
    forest.liftClasses = ((forest.raised.top.map (·.child)).filter
      fun id => (forest.raised.node id).isSection).foldl liftInSection forest.raised := rfl

/-- Lifting classes into the top changes no type. -/
theorem types_raised (forest : Forest) :
    forest.raised.column Node.type = forest.column Node.type :=
  types_foldl_dropClasses forest forest.top

/-- Lifting classes within a section changes no type. -/
theorem types_liftInSection (forest : Forest) (id : NodeId) :
    (forest.liftInSection id).column Node.type = forest.column Node.type :=
  column_liftInSection (fun _ _ => rfl) forest id

/-- Lifting classes into the top is a move of owned edges. -/
theorem ownership_raised (forest : Forest) :
    forest.raised.ownership = forest.ownership.liftTop forest.movesClass :=
  Ownership.ext (size_eq_of_column_eq forest.types_raised)
    (map_child_liftedEdges forest forest.top)
    (funext fun id => owned_foldl_dropClasses forest forest.top id)

/-- After lifting within a section, it lists the classes as well, and the nodes that it lists do
not. -/
theorem children_liftInSection {id : NodeId} (hid : id < forest.nodes.size)
    (other : NodeId) :
    ((forest.liftInSection id).node other).children =
      if other = id then forest.liftedEdges (forest.node id).children
      else (((forest.node id).children.foldl dropClasses forest).node other).children := by
  have hsize : ((forest.node id).children.foldl dropClasses forest).nodes.size =
      forest.nodes.size := size_eq_of_column_eq (types_foldl_dropClasses forest _)
  unfold liftInSection
  simp only
  by_cases hother : other = id
  · subst hother
    rw [if_pos rfl, node_modify_self (hsize ▸ hid)]
  · rw [if_neg hother, node_modify_of_ne hother]

namespace WellLinked

/-- What is lifted into a list of owned edges is owned. -/
private theorem isOwned_of_mem_liftedEdges {edges : List Edge}
    (howned : ∀ {edge}, edge ∈ edges → edge.isOwned = true) {edge : Edge}
    (hedge : edge ∈ forest.liftedEdges edges) : edge.isOwned = true := by
  rcases mem_liftedEdges hedge with hedge | ⟨hedge, _⟩
  · exact howned hedge
  · exact hedge

/-- A section owns all that it lists. -/
theorem map_child_children (h : forest.WellLinked members rank) {id : NodeId}
    (hclass : (forest.node id).isClass = false) :
    (forest.node id).children.map (·.child) = forest.ownership.owned id := by
  have hfilter : (forest.node id).ownedEdges = (forest.node id).children :=
    List.filter_eq_self.mpr fun edge hedge => h.isOwned_child hclass hedge
  rw [owned_ownership, Node.ownedChildren, hfilter]

/-- Lifting classes into the top keeps a well-linked forest. -/
theorem raised (h : forest.WellLinked members rank) : forest.raised.WellLinked members rank where
  isForest := forest.ownership_raised ▸ h.isForest.liftTop forest.movesClass
  isOwned_top hedge := isOwned_of_mem_liftedEdges h.isOwned_top hedge
  isOwned_child {id edge} hclass hedge := by
    rw [isClass_eq forest.types_raised] at hclass
    exact h.isOwned_child hclass (mem_children_of_foldl_dropClasses hedge)
  child_lt_size {id edge} hedge := by
    rw [size_eq_of_column_eq forest.types_raised]
    exact h.child_lt_size (mem_children_of_foldl_dropClasses hedge)

/-- Lifting classes within a node that is no class is a move of owned edges. -/
theorem ownership_liftInSection (h : forest.WellLinked members rank) {id : NodeId}
    (hid : id < forest.nodes.size) (hclass : (forest.node id).isClass = false) :
    (forest.liftInSection id).ownership = forest.ownership.liftWithin forest.movesClass id := by
  have htop : (forest.liftInSection id).top = forest.top :=
    top_eq_of_rest_eq (rest_liftInSection forest id)
  refine Ownership.ext (size_eq_of_column_eq (forest.types_liftInSection id)) ?_
    (funext fun other => ?_)
  · simp only [ownership, Ownership.liftWithin, htop]
  · have hchildren := children_liftInSection hid other
    by_cases hother : other = id
    · subst hother
      rw [if_pos rfl] at hchildren
      have howned : (forest.liftedEdges (forest.node other).children).filter (·.isOwned) =
          forest.liftedEdges (forest.node other).children :=
        List.filter_eq_self.mpr fun edge hedge =>
          isOwned_of_mem_liftedEdges (h.isOwned_child hclass) hedge
      simp only [Ownership.liftWithin, Function.update_self]
      rw [owned_ownership, Node.ownedChildren, Node.ownedEdges, hchildren, howned,
        map_child_liftedEdges, h.map_child_children hclass]
    · rw [if_neg hother] at hchildren
      simp only [Ownership.liftWithin, Function.update_of_ne hother]
      rw [← h.map_child_children hclass, ← owned_foldl_dropClasses, owned_ownership,
        Node.ownedChildren, Node.ownedEdges, hchildren]
      rfl

/-- Lifting classes within a node that is no class keeps a well-linked forest. -/
theorem liftInSection (h : forest.WellLinked members rank) {id : NodeId}
    (hid : id < forest.nodes.size) (hclass : (forest.node id).isClass = false) :
    (forest.liftInSection id).WellLinked members rank where
  isForest := h.ownership_liftInSection hid hclass ▸ h.isForest.liftWithin forest.movesClass hid
  isOwned_top hedge := h.isOwned_top (top_eq_of_rest_eq (rest_liftInSection forest id) ▸ hedge)
  isOwned_child {other edge} hother hedge := by
    rw [isClass_eq (forest.types_liftInSection id)] at hother
    rw [children_liftInSection hid] at hedge
    split at hedge
    · exact isOwned_of_mem_liftedEdges (h.isOwned_child hclass) hedge
    · exact h.isOwned_child hother (mem_children_of_foldl_dropClasses hedge)
  child_lt_size {other edge} hedge := by
    rw [size_eq_of_column_eq (forest.types_liftInSection id)]
    rw [children_liftInSection hid] at hedge
    split at hedge
    · rcases mem_liftedEdges hedge with hedge | ⟨_, _, hedge⟩
      · exact h.child_lt_size hedge
      · exact h.child_lt_size hedge
    · exact h.child_lt_size (mem_children_of_foldl_dropClasses hedge)

/-- Lifting classes keeps a well-linked forest. -/
theorem liftClasses (h : forest.WellLinked members rank) :
    forest.liftClasses.WellLinked members rank := by
  let sections := (forest.raised.top.map (·.child)).filter
    fun id => (forest.raised.node id).isSection
  have hsections : ∀ id ∈ sections, id < forest.raised.nodes.size ∧
      (forest.raised.node id).isClass = false := by
    intro id hid
    obtain ⟨htop, hsection⟩ := List.mem_filter.mp hid
    exact ⟨h.raised.isForest.lt_size (h.raised.isForest.top_mem htop),
      isClass_of_isSection hsection⟩
  have hrun : (sections.foldl Forest.liftInSection forest.raised).WellLinked members rank ∧
      (sections.foldl Forest.liftInSection forest.raised).column Node.type =
        forest.raised.column Node.type := by
    refine List.foldlRecOn (motive := fun later => later.WellLinked members rank ∧
      later.column Node.type = forest.raised.column Node.type) sections Forest.liftInSection
      ⟨h.raised, rfl⟩ fun later hlater id hid => ?_
    obtain ⟨hlinked, htypes⟩ := hlater
    obtain ⟨hsize, hclass⟩ := hsections id hid
    refine ⟨hlinked.liftInSection (size_eq_of_column_eq htypes ▸ hsize) ?_,
      (later.types_liftInSection id).trans htypes⟩
    rw [isClass_eq htypes, hclass]
  rw [liftClasses_eq]
  exact hrun.1

end WellLinked

/-- What an edge says about links: whether it is owned, and where it leads. -/
def linksOf (node : Node) : List (Bool × NodeId) :=
  node.children.map fun edge => (edge.isOwned, edge.child)

private theorem linksOf_withPartition (children : List Edge) (name : String) :
    (children.map (·.withPartition name)).map (fun edge => (edge.isOwned, edge.child)) =
      children.map fun edge => (edge.isOwned, edge.child) := by
  rw [List.map_map]
  refine List.map_congr_left fun edge _ => ?_
  cases edge <;> rfl

private theorem ownedChildren_eq_linksOf (node : Node) :
    node.ownedChildren = ((linksOf node).filter (·.1)).map (·.2) := by
  simp [linksOf, Node.ownedChildren, Node.ownedEdges, List.filter_map, Function.comp_def]

/-- A forest with the same links and types keeps the property. -/
theorem WellLinked.of_links_eq (h : forest.WellLinked members rank) {other : Forest}
    (htop : other.top = forest.top)
    (hlinks : other.column linksOf = forest.column linksOf)
    (htypes : other.column Node.type = forest.column Node.type) :
    other.WellLinked members rank := by
  have hsame {id : NodeId} {edge : Edge} (hedge : edge ∈ (other.node id).children) :
      ∃ before ∈ (forest.node id).children,
        before.isOwned = edge.isOwned ∧ before.child = edge.child := by
    have hmem : (edge.isOwned, edge.child) ∈ linksOf (other.node id) := List.mem_map_of_mem hedge
    rw [view_node_eq_of_column_eq hlinks id] at hmem
    obtain ⟨before, hbefore, hpair⟩ := List.mem_map.mp hmem
    exact ⟨before, hbefore, (Prod.mk.inj hpair).1, (Prod.mk.inj hpair).2⟩
  refine ⟨?_, fun hedge => h.isOwned_top (htop ▸ hedge), fun {id edge} hclass hedge => ?_,
    fun {id edge} hedge => ?_⟩
  · refine h.isForest.of_perm (size_eq_of_column_eq htypes) ?_ fun id => ?_
    · rw [ownership, ownership, htop]
    · refine List.Perm.of_eq ?_
      simp only [ownership, ownedChildren_eq_linksOf, view_node_eq_of_column_eq hlinks id]
  · obtain ⟨before, hbefore, howned, _⟩ := hsame hedge
    rw [isClass_eq htypes] at hclass
    rw [← howned]
    exact h.isOwned_child hclass hbefore
  · obtain ⟨before, hbefore, _, hchild⟩ := hsame hedge
    rw [← hchild, size_eq_of_column_eq htypes]
    exact h.child_lt_size hbefore

/-- Assigning output files leaves the top as the policy shapes it. -/
theorem top_assignPartitions (settings : Settings) (forest : Forest) :
    (forest.assignPartitions settings).top =
      (if settings.policy = .liftClasses then forest.liftClasses else forest).top := by
  unfold assignPartitions redirected partitioned
  simp only
  refine top_eq_of_rest_eq ?_
  rw [foldl_keeps rest fun forest id _ => rest_redirectExtension settings forest id,
    foldl_keeps rest fun forest id _ => rest_assignBranch settings _ none forest id]

/-- Assigning output files keeps a well-linked forest. -/
theorem WellLinked.assignPartitions (h : forest.WellLinked members rank) (settings : Settings) :
    (forest.assignPartitions settings).WellLinked members rank := by
  have hshaped : (if settings.policy = .liftClasses then forest.liftClasses else forest).WellLinked
      members rank := by
    split
    · exact h.liftClasses
    · exact h
  refine hshaped.of_links_eq (forest.top_assignPartitions settings) ?_ ?_
  · exact column_assignPartitions_shaped
      (fun node outFile _ => linksOf_withPartition node.children outFile) settings forest
  · exact column_assignPartitions_shaped (fun _ _ _ => rfl) settings forest

end SymbolTree.Forest
