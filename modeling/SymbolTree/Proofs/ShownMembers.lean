import SymbolTree.Proofs.MergedMembers
import SymbolTree.Proofs.Redirects

/-!
# Members are shown in the output file of the class that lists them

Output files are assigned from the top down and then changed again where extensions are redirected.
Whenever a node is given an output file, the inherited members that it lists are shown there from then
on. So what a node says about its members and its own place fits the output file that it has in the
end, however often it was moved.
-/

namespace SymbolTree

/-- Where a member is shown that is put into an output file. -/
theorem Edge.partition?_withPartition (name : String) (edge : Edge) :
    (edge.withPartition name).partition? = if edge.isOwned then none else some name := by
  cases edge <;> rfl

/-- What an edge links: its child, and whether it is owned. -/
def Edge.link (edge : Edge) : NodeId × Bool := (edge.child, edge.isOwned)

/-- Showing a member in an output file keeps what links it. -/
@[simp] theorem Edge.link_withPartition (name : String) (edge : Edge) :
    (edge.withPartition name).link = edge.link := by
  cases edge <;> rfl

/-- What a node says about places fits its output file. -/
structure Node.Coherent (node : Node) : Prop where
  /-- Inherited members are shown in the output file of the node, owned ones have their own. -/
  partition?_eq : ∀ edge ∈ node.children,
    edge.partition? = if edge.isOwned then none else some node.outFile
  /-- The anchor is the one that goes with the type. -/
  anchor_eq : node.anchor = Forest.anchorOf node

/-- A node is coherent once its members are put into its output file. -/
theorem Node.coherent_of_children_eq {node : Node} {children : List Edge}
    (hchildren : node.children = children.map (·.withPartition node.outFile))
    (hanchor : node.anchor = Forest.anchorOf node) : node.Coherent := by
  refine ⟨fun edge hedge => ?_, hanchor⟩
  rw [hchildren] at hedge
  obtain ⟨before, _, rfl⟩ := List.mem_map.mp hedge
  rw [Edge.partition?_withPartition, Forest.isOwned_withPartition]

namespace Forest

variable {settings : Settings} {forest : Forest} {other : NodeId}

/-- Moving a branch keeps a node coherent. -/
theorem coherent_moveBranch (h : (forest.node other).Coherent) (outFile : String) (depth : Nat)
    (id : NodeId) : ((moveBranch settings outFile depth forest id).node other).Coherent := by
  induction depth generalizing forest id with
  | zero => exact h
  | succ depth ih =>
    rw [moveBranch]
    refine List.foldlRecOn (motive := fun later : Forest => (later.node other).Coherent) _ _ ?_
      fun later hlater child _ => ih hlater child
    rw [node_modify]
    split
    · exact Node.coherent_of_children_eq rfl h.anchor_eq
    · exact h

/-- Redirecting an extension keeps a node coherent. -/
theorem coherent_redirectExtension (h : (forest.node other).Coherent) (id : NodeId) :
    ((redirectExtension settings forest id).node other).Coherent := by
  rw [redirectExtension_eq]
  split
  · exact h
  · exact coherent_moveBranch h _ _ id

/-- Redirecting all extensions keeps a node coherent. -/
theorem coherent_redirected (h : (forest.node other).Coherent) (settings : Settings) :
    ((forest.redirected settings).node other).Coherent :=
  List.foldlRecOn (motive := fun later : Forest => (later.node other).Coherent) _ _ h
    fun _ hlater id _ => coherent_redirectExtension hlater id

/-- Assigning output files makes the members of a forest coherent. -/
theorem coherent_partitioned {members : List NodeId} {rank : NodeId → Nat}
    (h : forest.ownership.IsForest members rank) (hother : other ∈ members) :
    ((forest.partitioned settings).node other).Coherent := by
  obtain ⟨owners, howners⟩ := h.exists_handedDown none
    fun parent => handedDown settings (forest.node parent)
  rw [node_partitioned_below h howners, if_pos hother]
  exact Node.coherent_of_children_eq rfl rfl

/-- Assigning output files keeps what the members of a forest link. -/
theorem links_partitioned {members : List NodeId} {rank : NodeId → Nat}
    (h : forest.ownership.IsForest members rank) (hother : other ∈ members) :
    ((forest.partitioned settings).node other).children.map Edge.link =
      (forest.node other).children.map Edge.link := by
  obtain ⟨owners, howners⟩ := h.exists_handedDown none
    fun parent => handedDown settings (forest.node parent)
  rw [node_partitioned_below h howners, if_pos hother]
  simp [withOutFileBelow, Function.comp_def]

/-- A class that owns nothing inherits the first member that it is offered. -/
theorem mem_mergedChildren_of_first {lineage : Lineage} {edge : Edge} {rest : List Edge}
    (hown : lineage.own other = [])
    (hmembers : (ancestorWalk lineage forest other).members = edge :: rest) :
    edge ∈ mergedChildren lineage forest other := by
  rw [mergedChildren, hown, hmembers, mergeMembers_cons]
  obtain ⟨added, hmerged, _⟩ := mergeMembers_eq
    (fun member => memberKey (forest.node member.child)) [edge] rest
  exact List.mem_mergeSort.mpr (hmerged ▸ List.mem_append_left added (List.mem_singleton_self edge))

end Forest

namespace Collection

/-- A resolution ends with what nodes link before output files are assigned, unless classes are
lifted. -/
theorem links_resolve {records : List Record} {settings : Settings} {id : NodeId}
    (hpolicy : settings.policy ≠ .liftClasses)
    (hreachable : ((empty.insertAll records).resolve settings).ownership.Reachable id) :
    (((empty.insertAll records).resolve settings).node id).children.map Edge.link =
      ((empty.insertAll records).linked.node id).children.map Edge.link := by
  obtain ⟨root, hroot, _⟩ := exists_root records
  have hredirected := ((empty.insertAll records).alike_resolve settings).view_eq
    (fun node => node.children.map Edge.link)
    (fun node => by simp [Forest.inFile, Function.comp_def]) id
  refine hredirected.trans ?_
  rw [assigned, if_neg hpolicy]
  exact Forest.links_partitioned (wellLinked_linked hroot).isForest
    ((reachable_resolve_iff hroot settings).mp hreachable)

/-- After any sequence of insertions and for all settings, extensions included, every node that can be
reached shows its inherited members in the output file that it has itself, its owned edges name no
output file, and it has its path as its anchor unless it is a class or a section. -/
theorem members_shown_in_own_file (records : List Record) (settings : Settings) :
    let tree := (empty.insertAll records).resolve settings
    ∀ id, tree.ownership.Reachable id →
      (∀ edge ∈ (tree.node id).children,
        edge.partition? = if edge.isOwned then none else some (tree.node id).outFile) ∧
      (tree.node id).anchor =
        if (tree.node id).isClass || (tree.node id).isSection then none
        else some (tree.node id).path := by
  intro tree id hreachable
  obtain ⟨root, hroot, _⟩ := exists_root records
  have hlinked := wellLinked_linked hroot
  have hmember := (reachable_resolve_iff hroot settings).mp hreachable
  have hassigned : (((empty.insertAll records).assigned settings).node id).Coherent := by
    unfold assigned
    split
    · exact Forest.coherent_partitioned hlinked.liftClasses.isForest hmember
    · exact Forest.coherent_partitioned hlinked.isForest hmember
  have hcoherent : (tree.node id).Coherent := Forest.coherent_redirected hassigned settings
  refine ⟨hcoherent.partition?_eq, ?_⟩
  rw [hcoherent.anchor_eq, Forest.anchorOf, Bool.or_comm]

/-- A class that inherits a member and lies below an extension. -/
def inheritingClassInExtension : List Record :=
  [{ id := "Kit", kind := .class, file := ⟨"kit.js"⟩ },
    { id := "Kit#each", kind := .method, file := ⟨"kit.js"⟩ },
    { id := "Kit.ui", kind := .property, file := ⟨"ui.js"⟩, «extension» := true },
    { id := "Kit.ui.List", kind := .class, inherits := ["Kit"], file := ⟨"list.js"⟩ }]

/-- The class shows the first inherited member in its own output file, wherever the extension takes
the class, and it has no anchor. -/
theorem members_shown_in_own_file_of_inheritingClassInExtension :
    let tree := (empty.insertAll inheritingClassInExtension).resolve {}
    tree.ownership.Reachable 4 ∧ (tree.node 4).anchor = none ∧
      ∃ edge ∈ (tree.node 4).children, edge.child = 2 ∧ edge.isOwned = false ∧
        edge.partition? = some (tree.node 4).outFile := by
  intro tree
  let classified := (empty.insertAll inheritingClassInExtension).nested.classify
  let before := classified.grouped classified.placed
  obtain ⟨hseated, ⟨hplaced, hclass, hreceives⟩, ⟨hid, hinherits⟩, hfound, hown, hoffered⟩ :
      4 ∈ (Forest.ofCollection
        (empty.insertAll inheritingClassInExtension)).assignSections.seated ∧
      (4 ∈ classified.placed ∧ (classified.node 4).isClass = true ∧ (before.node 4).Receives) ∧
      ((before.node 4).id = "Kit.ui.List" ∧ (before.node 4).inherits.eraseDups = ["Kit"]) ∧
      before.lineage.lookup.get? "Kit" = some 1 ∧ before.lineage.own 4 = [] ∧
      before.lineage.own 1 = [.owned 2, .owned 3] := by
    simp only [before, classified, nested_eval, Forest.classify_eval, Forest.placed_eval,
      Forest.assignSections_eval]
    decide +kernel
  obtain ⟨root, hroot, _⟩ := exists_root inheritingClassInExtension
  have hreachable : tree.ownership.Reachable 4 := (reachable_resolve_iff hroot {}).mpr hseated
  -- the walk follows the one ancestor, which offers its members first
  obtain ⟨members, hmembers⟩ : ∃ members, (Forest.ancestorWalk before.lineage before 4).members =
      .inherited 2 "Kit" none :: members := by
    rw [Forest.ancestorWalk, hid, hinherits, Forest.walk_cons_of_found (by decide) hfound,
      Forest.AncestorWalk.members_append, hoffered]
    exact ⟨_, rfl⟩
  have hmerged : Edge.inherited 2 "Kit" none ∈ Forest.mergedChildren before.lineage before 4 :=
    Forest.mem_mergedChildren_of_first hown hmembers
  have hlinked : ((empty.insertAll inheritingClassInExtension).linked.node 4).listing =
      if 4 ∈ classified.placed ∧ (before.node 4).Receives then
        (Forest.mergedChildren before.lineage before 4,
          (Forest.ancestorWalk before.lineage before 4).hierarchy)
      else (before.node 4).listing := Forest.listing_foldl_mergeInto rfl classified.placed 4
  rw [if_pos ⟨hplaced, hreceives⟩] at hlinked
  have hlink : (2, false) ∈ (tree.node 4).children.map Edge.link := by
    rw [links_resolve (by decide) hreachable, (Prod.mk.inj hlinked).1]
    exact List.mem_map_of_mem hmerged
  obtain ⟨edge, hedge, heq⟩ := List.mem_map.mp hlink
  obtain ⟨hchild, hinherited⟩ := Prod.mk.inj heq
  have hclassTree : (tree.node 4).isClass = true := by
    rw [← hclass]
    exact Forest.isClass_eq
      (Forest.column_placed (fun _ _ => rfl) (fun _ _ _ _ _ _ _ => rfl) {} classified) 4
  obtain ⟨hshown, hanchor⟩ := members_shown_in_own_file inheritingClassInExtension {} 4 hreachable
  refine ⟨hreachable, ?_, edge, hedge, hchild, hinherited, ?_⟩
  · rw [hanchor, if_pos (by rw [hclassTree, Bool.true_or])]
  · rw [hshown edge hedge, hinherited, if_neg Bool.false_ne_true]

end Collection

end SymbolTree
