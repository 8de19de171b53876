import SymbolTree.Proofs.Ownership.Lifting
import SymbolTree.Proofs.Ownership.Traversal

/-!
# Output files follow owners

A node hands down its output file to the nodes that it owns. Every node with a place is then assigned
an output file that depends on itself and on its line of owners, in whatever order the nodes are
visited, and all other nodes stay as they are. Unless there is one output file per class, owners do
not matter. Without extensions nothing is moved afterwards.
-/

namespace SymbolTree.Forest

variable {settings : Settings} {before later : Forest} {visited : List NodeId}
variable {owners : NodeId → Option String}

/-- A node with the output file that it has below an owner, and all that goes with it. -/
def withOutFileBelow (settings : Settings) (owner : Option String) (node : Node) : Node :=
  { node with
    outFile := partitionOf settings node owner
    anchor := anchorOf node
    children := node.children.map (·.withPartition (partitionOf settings node owner)) }

/-- A node with the output file that it has on its own, and all that goes with it. -/
def withOutFile (settings : Settings) (node : Node) : Node :=
  { node with
    outFile := partitionOf settings node none
    anchor := anchorOf node
    children := node.children.map (·.withPartition (partitionOf settings node none)) }

/-- The output file that a node hands down to the nodes that it owns. -/
def handedDown (settings : Settings) (node : Node) (owner : Option String) : Option String :=
  if node.isSection then none else some (partitionOf settings node owner)

/-- The output file that a line of owners hands down. -/
def handedDownLine (settings : Settings) (forest : Forest) (above : List NodeId) : Option String :=
  above.foldr (fun parent => handedDown settings (forest.node parent)) none

/-- Nodes have the owners' output files that their lines of owners hand down. -/
def HandedDown (settings : Settings) (forest : Forest) (owners : NodeId → Option String) : Prop :=
  ∀ above id, forest.ownership.Line above id →
    owners id = forest.handedDownLine settings above

/-- Unless there is one output file per class, the owner does not matter. -/
theorem partitionOf_eq (hpolicy : settings.policy ≠ .perClass) (node : Node)
    (owner : Option String) : partitionOf settings node owner = partitionOf settings node none := by
  unfold partitionOf
  cases hcases : settings.policy with
  | perClass => exact absurd hcases hpolicy
  | perFile => rfl
  | liftClasses => rfl

/-- A member that is shown in two output files in turn is shown in the second one. -/
@[simp] theorem withPartition_withPartition (first second : String) (edge : Edge) :
    (edge.withPartition first).withPartition second = edge.withPartition second := by
  cases edge <;> rfl

/-- Whether a member is owned does not depend on where it is shown. -/
@[simp] theorem isOwned_withPartition (name : String) (edge : Edge) :
    (edge.withPartition name).isOwned = edge.isOwned := by
  cases edge <;> rfl

/-- A member is the same wherever it is shown. -/
@[simp] theorem child_withPartition (name : String) (edge : Edge) :
    (edge.withPartition name).child = edge.child := by
  cases edge <;> rfl

/-- An owned child has its own output file. -/
theorem withPartition_of_isOwned {edge : Edge} (howned : edge.isOwned = true) (name : String) :
    edge.withPartition name = edge := by
  cases edge with
  | owned => rfl
  | inherited => cases howned

/-- Assigning an output file twice assigns it once. -/
@[simp] theorem withOutFileBelow_withOutFileBelow (settings : Settings) (owner : Option String)
    (node : Node) : withOutFileBelow settings owner (withOutFileBelow settings owner node) =
      withOutFileBelow settings owner node := by
  have hpartition : partitionOf settings (withOutFileBelow settings owner node) owner =
      partitionOf settings node owner := rfl
  unfold withOutFileBelow at hpartition ⊢
  rw [hpartition]
  simp only [List.map_map, Function.comp_def, withPartition_withPartition]
  rfl

/-- Unless there is one output file per class, a node has the output file that it has on its own. -/
theorem withOutFileBelow_eq (hpolicy : settings.policy ≠ .perClass) (owner : Option String)
    (node : Node) : withOutFileBelow settings owner node = withOutFile settings node := by
  rw [withOutFileBelow, partitionOf_eq hpolicy, withOutFile]

/-- Moving a node to an output file keeps what it owns. -/
theorem ownedChildren_moved (node : Node) (outFile : String) (anchor : Option String) :
    ({ node with
      outFile, anchor,
      children := node.children.map (·.withPartition outFile) } : Node).ownedChildren =
        node.ownedChildren := by
  simp [Node.ownedChildren, Node.ownedEdges, List.filter_map, Function.comp_def]

/-- Assigning an output file keeps what a node owns. -/
@[simp] theorem ownedChildren_withOutFileBelow (settings : Settings) (owner : Option String)
    (node : Node) : (withOutFileBelow settings owner node).ownedChildren = node.ownedChildren :=
  ownedChildren_moved node _ _

/-- Changes that agree on a node do the same to it. -/
theorem modify_congr {forest : Forest} {id : NodeId} {f g : Node → Node}
    (h : f (forest.node id) = g (forest.node id)) : forest.modify id f = forest.modify id g := by
  unfold modify
  congr 1
  refine Array.ext_getElem? fun other => ?_
  rw [Array.getElem?_modify, Array.getElem?_modify]
  split
  · rename_i hid
    subst hid
    cases hnode : forest.nodes[id]? with
    | none => rfl
    | some node =>
      have hvalue : forest.node id = node := by
        rw [Forest.node, Array.getD_eq_getD_getElem?, hnode, Option.getD_some]
      rw [hvalue] at h
      simp only [Option.map_some, h]
  · rfl

/-- Some nodes have been visited: these have their output files, and all others are as before. -/
structure Assigned (settings : Settings) (owners : NodeId → Option String) (before later : Forest)
    (visited : List NodeId) : Prop where
  /-- The number of nodes stays. -/
  size_eq : later.nodes.size = before.nodes.size
  /-- Visited nodes have their output files. -/
  node_eq : ∀ id, later.node id =
    if id ∈ visited ∧ id < before.nodes.size then
      withOutFileBelow settings (owners id) (before.node id)
    else before.node id

namespace Assigned

/-- At the start no node has been visited. -/
theorem start (settings : Settings) (owners : NodeId → Option String) (forest : Forest) :
    Assigned settings owners forest forest [] :=
  ⟨rfl, by simp⟩

/-- Only which nodes were visited matters. -/
theorem of_mem_iff (h : Assigned settings owners before later visited) {others : List NodeId}
    (hmem : ∀ id, id ∈ others ↔ id ∈ visited) : Assigned settings owners before later others := by
  refine ⟨h.size_eq, fun id => ?_⟩
  rw [h.node_eq]
  simp only [hmem]

/-- A visited node owns what it owned before. -/
theorem ownedChildren_eq (h : Assigned settings owners before later visited) (id : NodeId) :
    (later.node id).ownedChildren = (before.node id).ownedChildren := by
  rw [h.node_eq]
  split
  · exact ownedChildren_withOutFileBelow settings _ _
  · rfl

/-- A visited node has and hands down what it would have before. -/
theorem partitionOf_eq (h : Assigned settings owners before later visited) (id : NodeId)
    (owner : Option String) :
    partitionOf settings (later.node id) owner = partitionOf settings (before.node id) owner ∧
      handedDown settings (later.node id) owner = handedDown settings (before.node id) owner := by
  rw [h.node_eq]
  split <;> exact ⟨rfl, rfl⟩

/-- Visiting one more node. Visiting it again makes no difference. -/
theorem modify (h : Assigned settings owners before later visited) (id : NodeId) :
    Assigned settings owners before (later.modify id (withOutFileBelow settings (owners id)))
      (id :: visited) := by
  refine ⟨by rw [size_modify, h.size_eq], fun other => ?_⟩
  rw [node_modify, h.size_eq, h.node_eq other]
  by_cases hother : other = id
  · subst hother
    by_cases hsize : other < before.nodes.size
    · by_cases hvisited : other ∈ visited
      · simp [hsize, hvisited]
      · simp [hsize, hvisited]
    · simp [hsize]
  · simp [hother]

/-- Visiting several branches in turn. -/
theorem foldl {step : Forest → NodeId → Forest} (nodes : NodeId → List NodeId) {ids : List NodeId}
    (hstep : ∀ id ∈ ids, ∀ later visited, Assigned settings owners before later visited →
      Assigned settings owners before (step later id) (nodes id ++ visited))
    (h : Assigned settings owners before later visited) :
    Assigned settings owners before (ids.foldl step later) (ids.flatMap nodes ++ visited) := by
  induction ids generalizing later visited with
  | nil => exact h
  | cons id ids ih =>
    have hrest := ih (fun other hother => hstep other (List.mem_cons_of_mem _ hother))
      (hstep id List.mem_cons_self later visited h)
    refine hrest.of_mem_iff fun other => ?_
    simp only [List.flatMap_cons, List.mem_append]
    tauto

/-- Assigning output files to a branch visits its nodes. -/
theorem assignBranch (howned : ∀ parent child, before.ownership.Owns parent child →
      owners child = handedDown settings (before.node parent) (owners parent))
    (h : Assigned settings owners before later visited) (depth : Nat) (id : NodeId) :
    Assigned settings owners before (assignBranch settings depth (owners id) later id)
      (before.branch depth id ++ visited) := by
  induction depth generalizing later visited id with
  | zero => exact h
  | succ depth ih =>
    rw [Forest.assignBranch]
    have hmodify : (later.modify id fun node =>
        { node with
          outFile := partitionOf settings (later.node id) (owners id)
          anchor := anchorOf node
          children := node.children.map
            (·.withPartition (partitionOf settings (later.node id) (owners id))) }) =
        later.modify id (withOutFileBelow settings (owners id)) :=
      modify_congr rfl
    rw [hmodify, h.ownedChildren_eq]
    refine (foldl (before.branch depth) (fun child hchild later visited hlater => ?_)
      (h.modify id)).of_mem_iff fun other => ?_
    · have hbranch := ih hlater child
      rw [howned id child hchild, ← (h.partitionOf_eq id _).2] at hbranch
      exact hbranch
    · simp only [branch, List.mem_append, List.mem_cons, List.mem_flatMap, List.mem_reverse]
      rw [or_assoc, or_left_comm]

end Assigned

/-- Assigning output files changes nothing but nodes. -/
theorem rest_partitioned (settings : Settings) (forest : Forest) :
    (forest.partitioned settings).rest = forest.rest :=
  foldl_keeps rest (fun forest id _ => rest_assignBranch settings _ none forest id) forest

/-- Every member of a forest has the output file that it has below its line of owners, and no other
node has changed. -/
theorem node_partitioned_below {forest : Forest} {members : List NodeId} {rank : NodeId → Nat}
    (h : forest.ownership.IsForest members rank) (howners : forest.HandedDown settings owners)
    (id : NodeId) :
    (forest.partitioned settings).node id =
      if id ∈ members then withOutFileBelow settings (owners id) (forest.node id)
      else forest.node id := by
  have hstart (id : NodeId) (htop : id ∈ forest.ownership.top) : owners id = none :=
    howners [] id (.top htop)
  have howned (parent child : NodeId) (howns : forest.ownership.Owns parent child) :
      owners child = handedDown settings (forest.node parent) (owners parent) := by
    obtain ⟨above, hline⟩ :=
      Ownership.reachable_iff_exists_line.mp (h.reachable_of_mem (h.owner_mem howns))
    rw [howners _ child (.child hline howns), howners above parent hline]
    rfl
  have hassigned : Assigned settings owners forest (forest.partitioned settings)
      forest.reachable := by
    refine (Assigned.foldl (forest.branch forest.nodes.size)
      (fun top htop later visited hlater => ?_)
      (.start settings owners forest)).of_mem_iff fun other => ?_
    · exact hstart top htop ▸ hlater.assignBranch howned forest.nodes.size top
    · simp only [reachable, List.append_nil, List.mem_flatMap, List.mem_reverse]
  have hmem : id ∈ forest.reachable ∧ id < forest.nodes.size ↔ id ∈ members := by
    rw [(reachable_perm h).mem_iff]
    exact ⟨fun hand => hand.1, fun hmember => ⟨hmember, h.lt_size hmember⟩⟩
  rw [hassigned.node_eq]
  simp only [hmem]

/-- Unless there is one output file per class, every member of a forest has the output file that it
has on its own, and no other node has changed. -/
theorem node_partitioned {forest : Forest} {members : List NodeId} {rank : NodeId → Nat}
    (hpolicy : settings.policy ≠ .perClass) (h : forest.ownership.IsForest members rank)
    (id : NodeId) :
    (forest.partitioned settings).node id =
      if id ∈ members then withOutFile settings (forest.node id) else forest.node id := by
  obtain ⟨owners, howners⟩ := h.exists_handedDown none
    fun parent => handedDown settings (forest.node parent)
  rw [node_partitioned_below h howners, withOutFileBelow_eq hpolicy]

/-- Assigning output files keeps every attribute that ignores children, output file and anchor. -/
theorem column_partitioned {α : Type} {view : Node → α}
    (hplace : ∀ node children outFile anchor,
      view { node with children, outFile, anchor } = view node)
    (settings : Settings) (forest : Forest) :
    (forest.partitioned settings).column view = forest.column view :=
  foldl_keeps (column view) (fun forest id _ => column_assignBranch
    (fun node outFile anchor => hplace node _ outFile anchor) settings _ none forest id) forest

/-- Assigning output files leaves ownership alone. -/
theorem ownership_partitioned (settings : Settings) (forest : Forest) :
    (forest.partitioned settings).ownership = forest.ownership := by
  have hchildren : (forest.partitioned settings).column Node.ownedChildren =
      forest.column Node.ownedChildren :=
    foldl_keeps (column Node.ownedChildren) (fun forest id _ =>
      column_assignBranch ownedChildren_moved settings _ none forest id) forest
  refine Ownership.ext (size_eq_of_column_eq hchildren) ?_
    (funext fun id => view_node_eq_of_column_eq hchildren id)
  rw [ownership, ownership, top_eq_of_rest_eq (forest.rest_partitioned settings)]

/-- Where no node is an extension, none is moved in the end. -/
theorem assignPartitions_eq {forest : Forest} (h : ∀ id, (forest.node id).extension = false)
    (settings : Settings) :
    forest.assignPartitions settings =
      (if settings.policy = .liftClasses then forest.liftClasses else forest).partitioned
        settings := by
  generalize hshaped : (if settings.policy = .liftClasses then forest.liftClasses else forest) =
    shaped
  have hextensions : (shaped.partitioned settings).column Node.extension =
      forest.column Node.extension := by
    rw [column_partitioned fun _ _ _ _ => rfl, ← hshaped]
    split
    · exact column_liftClasses (fun _ _ => rfl) forest
    · rfl
  have hmoved (id : NodeId) : redirectExtension settings (shaped.partitioned settings) id =
      shaped.partitioned settings := by
    have hextension := (view_node_eq_of_column_eq hextensions id).trans (h id)
    simp [redirectExtension, hextension]
  unfold assignPartitions
  simp only [hshaped]
  exact List.foldl_fixed' hmoved _

end SymbolTree.Forest
