import SymbolTree.Proofs.Evaluation
import SymbolTree.Proofs.Partitions
import SymbolTree.Proofs.ResolvedForest

/-!
# Lifting classes moves edges and nothing else

Classes are lifted out of the nodes at the top, and then out of the nodes that sections at the top
list. A node has one place only, so no class is lifted twice and every list is read as it was before.
A resolution that lifts classes therefore differs from one that does not in these edges alone.
-/

namespace SymbolTree

/-- A node with all its fields but the children. -/
def Node.withoutChildren (node : Node) : Node := { node with children := [] }

namespace Forest

variable {forest before later : Forest} {members done : List NodeId} {rank : NodeId → Nat}

/-- Lifting reads types, and the children of the listed nodes that are no sections. -/
theorem liftedEdges_congr {a b : Forest} (htypes : a.column Node.type = b.column Node.type)
    {edges : List Edge} (hchildren : ∀ edge ∈ edges, (b.node edge.child).isSection = false →
      (a.node edge.child).children = (b.node edge.child).children) :
    a.liftedEdges edges = b.liftedEdges edges := by
  unfold liftedEdges
  refine List.flatMap_congr fun edge hedge => ?_
  simp only [isSection_eq htypes, leadsToClass_eq htypes]
  split
  · rfl
  · rename_i hsection
    rw [hchildren edge hedge (Bool.eq_false_iff.mpr hsection)]

/-- Lifting adds no section to a list. -/
theorem mem_liftedEdges_iff_of_isSection {edges : List Edge} {edge : Edge}
    (hsection : (forest.node edge.child).isSection = true) :
    edge ∈ forest.liftedEdges edges ↔ edge ∈ edges := by
  have hclass : forest.leadsToClass edge = false := by
    rw [leadsToClass, isClass_of_isSection hsection, Bool.and_false]
  rw [liftedEdges, List.mem_flatMap]
  constructor
  · rintro ⟨holder, hholder, hedge⟩
    simp only at hedge
    split at hedge
    · exact List.mem_singleton.mp hedge ▸ hholder
    · rcases List.mem_cons.mp hedge with rfl | hedge
      · exact hholder
      · rw [(List.mem_filter.mp hedge).2] at hclass
        cases hclass
  · intro hedge
    exact ⟨edge, hedge, by simp [hsection]⟩

/-- A section owns what it lists. -/
theorem WellLinked.owns_of_isSection (h : forest.WellLinked members rank) {id child : NodeId}
    (hsection : (forest.node id).isSection = true)
    (hchild : child ∈ (forest.node id).children.map (·.child)) :
    forest.ownership.Owns id child := by
  rwa [h.map_child_children (isClass_of_isSection hsection)] at hchild

/-- What some nodes list. -/
def listedBy (forest : Forest) (holders : List NodeId) : List NodeId :=
  holders.flatMap fun holder => (forest.node holder).children.map (·.child)

/-- Classes have been lifted within some sections. These sections list the classes too, the nodes
that they list have lost them, and no other node has changed its children. -/
structure LiftedWithin (before later : Forest) (done : List NodeId) : Prop where
  /-- No type has changed. -/
  types_eq : later.column Node.type = before.column Node.type
  /-- Classes are lifted within sections only. -/
  isSection_of_mem : ∀ id ∈ done, (before.node id).isSection = true
  /-- The children of every node. -/
  children_eq : ∀ id, (later.node id).children =
    if id ∈ done then before.liftedEdges (before.node id).children
    else if id ∈ before.listedBy done ∧ (before.node id).isSection = false then
      (before.node id).children.filter fun edge => !before.leadsToClass edge
    else (before.node id).children

namespace LiftedWithin

/-- At the start nothing has been lifted. -/
theorem start (forest : Forest) : LiftedWithin forest forest [] :=
  ⟨rfl, by simp, by simp [listedBy]⟩

/-- Lifting within one more section. What it lists belongs to no other section, so its list is read
as it was before. -/
theorem liftInSection (hlifted : LiftedWithin before later done)
    (h : before.WellLinked members rank) {id : NodeId} (hid : id < before.nodes.size)
    (hsection : (before.node id).isSection = true) (hnew : id ∉ done) :
    LiftedWithin before (later.liftInSection id) (id :: done) := by
  have hlisted : (later.node id).children = (before.node id).children := by
    rw [hlifted.children_eq, if_neg hnew, if_neg]
    simp [hsection]
  have hedges : later.liftedEdges (before.node id).children =
      before.liftedEdges (before.node id).children := by
    refine liftedEdges_congr hlifted.types_eq fun edge hedge hother => ?_
    have howns := h.owns_of_isSection hsection (List.mem_map_of_mem hedge)
    rw [hlifted.children_eq, if_neg, if_neg]
    · rintro ⟨hmem, _⟩
      obtain ⟨holder, hholder, hchild⟩ := List.mem_flatMap.mp hmem
      have hholds := h.owns_of_isSection (hlifted.isSection_of_mem holder hholder) hchild
      exact hnew (h.isForest.owner_unique hholds howns ▸ hholder)
    · intro hmem
      rw [hlifted.isSection_of_mem _ hmem] at hother
      cases hother
  refine ⟨(types_liftInSection later id).trans hlifted.types_eq, ?_, fun other => ?_⟩
  · intro other hother
    rcases List.mem_cons.mp hother with rfl | hother
    · exact hsection
    · exact hlifted.isSection_of_mem other hother
  · rw [children_liftInSection (size_eq_of_column_eq hlifted.types_eq ▸ hid), hlisted]
    by_cases hother : other = id
    · subst hother
      rw [if_pos rfl, if_pos List.mem_cons_self, hedges]
    · rw [if_neg hother, children_foldl_dropClasses, isSection_eq hlifted.types_eq,
        leadsToClass_eq hlifted.types_eq, hlifted.children_eq]
      by_cases hdone : other ∈ done
      · simp [hdone, hlifted.isSection_of_mem other hdone]
      · -- Dropping the classes of a node twice drops them once.
        have hlist : other ∈ before.listedBy (id :: done) ↔
            other ∈ (before.node id).children.map (·.child) ∨ other ∈ before.listedBy done := by
          rw [listedBy, List.flatMap_cons, List.mem_append]
          rfl
        simp only [List.mem_cons, hother, hdone, or_self, if_false, hlist]
        cases (before.node other).isSection with
        | true => simp
        | false =>
          by_cases hhere : other ∈ (before.node id).children.map (·.child) <;>
            by_cases hthere : other ∈ before.listedBy done <;>
            simp only [hhere, hthere, List.filter_filter, Bool.and_self, and_true, or_true,
              true_or, or_self, if_true, if_false]

/-- Lifting within several sections in turn. -/
theorem foldl (hlifted : LiftedWithin before later done) (h : before.WellLinked members rank)
    {sections : List NodeId} (hnodup : sections.Nodup)
    (hsections : ∀ id ∈ sections, id < before.nodes.size ∧ (before.node id).isSection = true ∧
      id ∉ done) :
    LiftedWithin before (sections.foldl Forest.liftInSection later) (sections.reverse ++ done) := by
  induction sections generalizing later done with
  | nil => exact hlifted
  | cons id sections ih =>
    obtain ⟨hfresh, hnodup⟩ := List.nodup_cons.mp hnodup
    obtain ⟨hid, hsection, hnew⟩ := hsections id List.mem_cons_self
    rw [List.foldl_cons, List.reverse_cons, List.append_assoc]
    refine ih (hlifted.liftInSection h hid hsection hnew) hnodup fun other hother => ?_
    obtain ⟨hlt, hkind, hout⟩ := hsections other (List.mem_cons_of_mem _ hother)
    refine ⟨hlt, hkind, fun hmem => ?_⟩
    rcases List.mem_cons.mp hmem with rfl | hmem
    · exact hfresh hother
    · exact hout hmem

end LiftedWithin

/-- Lifting changes nothing but nodes and the top. -/
theorem rest_liftClasses (forest : Forest) :
    forest.liftClasses.rest = { forest.rest with top := forest.liftedEdges forest.top } := by
  have hdropped : (forest.top.foldl dropClasses forest).rest = forest.rest :=
    foldl_keeps rest (fun forest edge _ => rest_dropClasses forest edge) forest
  have hraised : forest.raised.rest = { forest.rest with top := forest.liftedEdges forest.top } :=
    congrArg (fun later : Forest => { later with top := forest.liftedEdges forest.top }) hdropped
  rw [liftClasses_eq, foldl_keeps rest fun forest id _ => rest_liftInSection forest id, hraised]

/-- Lifting changes children only. -/
theorem withoutChildren_liftClasses (forest : Forest) (id : NodeId) :
    (forest.liftClasses.node id).withoutChildren = (forest.node id).withoutChildren :=
  view_node_eq_of_column_eq (column_liftClasses (fun _ _ => rfl) forest) id

/-- The nodes that sections at the top list. -/
def sectioned (forest : Forest) : List NodeId :=
  forest.listedBy ((forest.top.map (·.child)).filter fun id => (forest.node id).isSection)

/-- Lifting into the top takes classes out of the nodes there and changes no other node. -/
theorem children_raised (forest : Forest) (id : NodeId) :
    (forest.raised.node id).children =
      if id ∈ forest.top.map (·.child) ∧ (forest.node id).isSection = false then
        (forest.node id).children.filter fun edge => !forest.leadsToClass edge
      else (forest.node id).children :=
  children_foldl_dropClasses forest forest.top id

/-- Lifting into the top leaves sections as they are. -/
theorem children_raised_of_isSection {id : NodeId}
    (hsection : (forest.node id).isSection = true) :
    (forest.raised.node id).children = (forest.node id).children := by
  rw [children_raised, if_neg]
  rintro ⟨_, hother⟩
  rw [hsection] at hother
  cases hother

/-- The sections at the top are the same after classes have been lifted there. -/
theorem mem_sections_raised_iff {id : NodeId} :
    id ∈ (forest.raised.top.map (·.child)).filter (fun id => (forest.raised.node id).isSection) ↔
      id ∈ (forest.top.map (·.child)).filter fun id => (forest.node id).isSection := by
  rw [List.mem_filter, List.mem_filter, isSection_eq forest.types_raised]
  refine and_congr_left fun hsection => ?_
  rw [List.mem_map, List.mem_map]
  refine exists_congr fun edge => and_congr_left fun hedge => ?_
  exact mem_liftedEdges_iff_of_isSection (hedge ▸ hsection)

/-- The children of every node after lifting. Sections at the top list the classes of the nodes that
they list; nodes at the top, and nodes that sections there list, have lost theirs. -/
theorem WellLinked.children_liftClasses (h : forest.WellLinked members rank) (id : NodeId) :
    (forest.liftClasses.node id).children =
      if (forest.node id).isSection = true then
        if id ∈ forest.top.map (·.child) then forest.liftedEdges (forest.node id).children
        else (forest.node id).children
      else if id ∈ forest.top.map (·.child) ++ forest.sectioned then
        (forest.node id).children.filter fun edge => !forest.leadsToClass edge
      else (forest.node id).children := by
  let sections := (forest.raised.top.map (·.child)).filter
    fun id => (forest.raised.node id).isSection
  have hmem (id : NodeId) : id ∈ sections.reverse ++ [] ↔
      id ∈ forest.top.map (·.child) ∧ (forest.node id).isSection = true := by
    rw [List.append_nil, List.mem_reverse, mem_sections_raised_iff, List.mem_filter]
  have hlifted : LiftedWithin forest.raised forest.liftClasses (sections.reverse ++ []) := by
    refine (LiftedWithin.start forest.raised).foldl h.raised (h.raised.isForest.nodup_top.filter _)
      fun id hid => ?_
    obtain ⟨htop, hsection⟩ := List.mem_filter.mp hid
    exact ⟨h.raised.isForest.lt_size (h.raised.isForest.top_mem htop), hsection,
      List.not_mem_nil⟩
  rw [hlifted.children_eq, isSection_eq forest.types_raised]
  simp only [hmem]
  cases hsection : (forest.node id).isSection with
  | true =>
    rw [children_raised_of_isSection hsection]
    by_cases htop : id ∈ forest.top.map (·.child)
    · rw [if_pos ⟨htop, rfl⟩, if_pos rfl, if_pos htop]
      refine liftedEdges_congr forest.types_raised fun edge hedge _ => ?_
      have howns := h.owns_of_isSection hsection (List.mem_map_of_mem hedge)
      rw [children_raised, if_neg]
      exact fun hand => h.isForest.not_owns_of_mem_top hand.1 howns
    · simp [htop]
  | false =>
    have hlisted : id ∈ forest.raised.listedBy (sections.reverse ++ []) ↔
        id ∈ forest.sectioned := by
      simp only [sectioned, listedBy, List.mem_flatMap, hmem, List.mem_filter]
      refine exists_congr fun holder => and_congr_right fun hholder => ?_
      rw [children_raised_of_isSection hholder.2]
    rw [children_raised, hsection, leadsToClass_eq forest.types_raised]
    simp only [hlisted, List.mem_append]
    -- Dropping the classes of a node twice drops them once.
    by_cases htop : id ∈ forest.top.map (·.child) <;> by_cases hdeep : id ∈ forest.sectioned <;>
      simp [htop, hdeep, List.filter_filter]

/-- A change of edges that leaves owned ones alone and leads to the same nodes. -/
structure Relabels (shown : Edge → Edge) : Prop where
  /-- An edge leads where it led before. -/
  child_eq : ∀ edge, (shown edge).child = edge.child
  /-- An inherited member stays one. -/
  isOwned_eq : ∀ edge, (shown edge).isOwned = edge.isOwned
  /-- An owned edge stays as it is. -/
  eq_self : ∀ {edge}, edge.isOwned = true → shown edge = edge

/-- Showing inherited members in an output file relabels edges. -/
theorem relabels_withPartition (name : String) : Relabels (·.withPartition name) :=
  ⟨child_withPartition name, isOwned_withPartition name, fun howned =>
    withPartition_of_isOwned howned name⟩

namespace Relabels

variable {shown : Edge → Edge}

/-- A list of owned edges stays as it is. -/
theorem map_eq_self (h : Relabels shown) {edges : List Edge}
    (howned : ∀ edge ∈ edges, edge.isOwned = true) : edges.map shown = edges := by
  refine (List.map_congr_left fun edge hedge => ?_).trans (List.map_id edges)
  exact h.eq_self (howned edge hedge)

/-- An edge leads to an owned class as before. -/
theorem leadsToClass_eq (h : Relabels shown) (forest : Forest) (edge : Edge) :
    forest.leadsToClass (shown edge) = forest.leadsToClass edge := by
  rw [leadsToClass, leadsToClass, h.isOwned_eq, h.child_eq]

/-- The edges to owned classes stay as they are. -/
theorem filter_leadsToClass (h : Relabels shown) (forest : Forest) (edges : List Edge) :
    (edges.map shown).filter forest.leadsToClass = edges.filter forest.leadsToClass := by
  have hsame : forest.leadsToClass ∘ shown = forest.leadsToClass :=
    funext (h.leadsToClass_eq forest)
  rw [List.filter_map, hsame]
  refine h.map_eq_self fun edge hedge => ?_
  exact (Bool.and_eq_true_iff.mp (List.mem_filter.mp hedge).2).1

/-- The other edges are relabelled in place. -/
theorem filter_not_leadsToClass (h : Relabels shown) (forest : Forest) (edges : List Edge) :
    (edges.map shown).filter (fun edge => !forest.leadsToClass edge) =
      (edges.filter fun edge => !forest.leadsToClass edge).map shown := by
  rw [List.filter_map]
  refine congrArg _ (List.filter_congr fun edge _ => ?_)
  rw [Function.comp_apply, h.leadsToClass_eq]

end Relabels

/-- How the edges of a node are shown: inherited members of a node with a place are shown in its
output file. -/
def shown (settings : Settings) (members : List NodeId) (forest : Forest) (id : NodeId)
    (edge : Edge) : Edge :=
  if id ∈ members then edge.withPartition (partitionOf settings (forest.node id) none) else edge

/-- Showing edges relabels them. -/
theorem relabels_shown (settings : Settings) (members : List NodeId) (forest : Forest)
    (id : NodeId) : Relabels (forest.shown settings members id) := by
  by_cases hid : id ∈ members
  · have hshown : forest.shown settings members id =
        (·.withPartition (partitionOf settings (forest.node id) none)) :=
      funext fun _ => if_pos hid
    exact hshown ▸ relabels_withPartition _
  · have hshown : forest.shown settings members id = fun edge => edge := funext fun _ => if_neg hid
    exact hshown ▸ ⟨fun _ => rfl, fun _ => rfl, fun _ => rfl⟩

/-- Output files do not depend on children. -/
theorem withoutChildren_withOutFile (settings : Settings) (node : Node) :
    (withOutFile settings node).withoutChildren =
      (withOutFile settings node.withoutChildren).withoutChildren := rfl

/-- Lifting does not matter to where inherited members are shown. -/
theorem shown_liftClasses (settings : Settings) (members : List NodeId) (forest : Forest) :
    forest.liftClasses.shown settings members = forest.shown settings members := by
  have houtFile (node : Node) : partitionOf settings node.withoutChildren none =
      partitionOf settings node none := rfl
  funext id edge
  rw [shown, shown, ← houtFile, withoutChildren_liftClasses, houtFile]

end Forest

namespace ResolvedTree

/-- Whether an edge leads to an owned class. -/
def leadsToClass (tree : ResolvedTree) (edge : Edge) : Bool :=
  edge.isOwned && (tree.node edge.child).isClass

/-- A list of edges, each one that leads to no section followed by the classes that its node owns. -/
def withClasses (tree : ResolvedTree) (edges : List Edge) : List Edge :=
  edges.flatMap fun edge =>
    if (tree.node edge.child).isSection then [edge]
    else edge :: (tree.node edge.child).children.filter tree.leadsToClass

/-- The sections at the top. -/
def topSections (tree : ResolvedTree) : List NodeId :=
  (tree.top.map (·.child)).filter fun id => (tree.node id).isSection

/-- The nodes at the top, and those that sections at the top list, except sections. -/
def namespaces (tree : ResolvedTree) : List NodeId :=
  (tree.top.map (·.child) ++
      tree.topSections.flatMap fun holder => (tree.node holder).children.map (·.child)).filter
    fun id => !(tree.node id).isSection

/-- A tree has the links, the types and the reports of a forest, with inherited members shown
somewhere. -/
structure Shows (tree : ResolvedTree) (forest : Forest) (shown : NodeId → Edge → Edge) : Prop where
  /-- The lookup is that of the forest. -/
  lookup_eq : tree.lookup = forest.lookup
  /-- The diagnostics are those of the forest. -/
  diagnostics_eq : tree.diagnostics = forest.diagnostics
  /-- Showing inherited members relabels edges. -/
  relabels : ∀ id, Forest.Relabels (shown id)
  /-- The top is that of the forest. -/
  top_eq : tree.top = forest.top
  /-- The types are those of the forest. -/
  type_eq : ∀ id, (tree.node id).type = (forest.node id).type
  /-- The children are those of the forest. -/
  children_eq : ∀ id, (tree.node id).children = (forest.node id).children.map (shown id)

namespace Shows

variable {tree : ResolvedTree} {forest : Forest} {shown : NodeId → Edge → Edge}

/-- The sections are those of the forest. -/
theorem isSection_eq (h : tree.Shows forest shown) (id : NodeId) :
    (tree.node id).isSection = (forest.node id).isSection := by
  rw [Node.isSection, Node.isSection, h.type_eq]

/-- The edges to owned classes are those of the forest. -/
theorem leadsToClass_eq (h : tree.Shows forest shown) : tree.leadsToClass = forest.leadsToClass := by
  funext edge
  rw [leadsToClass, Forest.leadsToClass, Node.isClass, Node.isClass, h.type_eq]

/-- Lifting into a list can be read off the tree. -/
theorem withClasses_eq (h : tree.Shows forest shown) (edges : List Edge) :
    tree.withClasses edges = forest.liftedEdges edges := by
  unfold withClasses Forest.liftedEdges
  refine List.flatMap_congr fun edge _ => ?_
  simp only [h.isSection_eq, h.leadsToClass_eq, h.children_eq,
    (h.relabels edge.child).filter_leadsToClass]

/-- The sections at the top are those of the forest. -/
theorem topSections_eq (h : tree.Shows forest shown) :
    tree.topSections = (forest.top.map (·.child)).filter fun id => (forest.node id).isSection := by
  rw [topSections, h.top_eq]
  simp only [h.isSection_eq]

/-- The namespaces are the nodes that lifting takes classes out of. -/
theorem mem_namespaces_iff (h : tree.Shows forest shown) {id : NodeId} :
    id ∈ tree.namespaces ↔
      id ∈ forest.top.map (·.child) ++ forest.sectioned ∧ (forest.node id).isSection = false := by
  have hlisted (holder : NodeId) : (tree.node holder).children.map (·.child) =
      (forest.node holder).children.map (·.child) := by
    rw [h.children_eq, List.map_map]
    exact List.map_congr_left fun edge _ => (h.relabels holder).child_eq edge
  rw [namespaces, List.mem_filter, h.isSection_eq, Bool.not_eq_true', h.topSections_eq, h.top_eq]
  simp only [hlisted]
  rfl

section Lifting

variable {split whole : ResolvedTree} {members : List NodeId} {rank : NodeId → Nat}

/-- Sections at the top list the classes that were lifted within them. -/
theorem children_of_mem_topSections (hwhole : whole.Shows forest shown)
    (hsplit : split.Shows forest.liftClasses shown) (h : forest.WellLinked members rank)
    {id : NodeId} (hid : id ∈ whole.topSections) :
    (split.node id).children = whole.withClasses (whole.node id).children := by
  rw [hwhole.topSections_eq] at hid
  obtain ⟨htop, hsection⟩ := List.mem_filter.mp hid
  have hclass := Forest.isClass_of_isSection hsection
  have hlifted : (forest.liftClasses.node id).isClass = false := by
    rw [Forest.isClass_eq (Forest.column_liftClasses (fun _ _ => rfl) forest), hclass]
  rw [hsplit.children_eq, hwhole.children_eq, hwhole.withClasses_eq,
    (hwhole.relabels id).map_eq_self fun edge hedge => h.isOwned_child hclass hedge,
    (hsplit.relabels id).map_eq_self fun edge hedge => h.liftClasses.isOwned_child hlifted hedge,
    h.children_liftClasses, if_pos hsection, if_pos htop]

/-- Namespaces lose the classes that they own. -/
theorem children_of_mem_namespaces (hwhole : whole.Shows forest shown)
    (hsplit : split.Shows forest.liftClasses shown) (h : forest.WellLinked members rank)
    {id : NodeId} (hid : id ∈ whole.namespaces) :
    (split.node id).children =
      (whole.node id).children.filter fun edge => !whole.leadsToClass edge := by
  obtain ⟨hplace, hsection⟩ := hwhole.mem_namespaces_iff.mp hid
  rw [hsplit.children_eq, h.children_liftClasses, hwhole.children_eq, hwhole.leadsToClass_eq,
    (hwhole.relabels id).filter_not_leadsToClass, hsection, if_neg Bool.false_ne_true,
    if_pos hplace]

/-- No other node has changed its children. -/
theorem children_of_notMem (hwhole : whole.Shows forest shown)
    (hsplit : split.Shows forest.liftClasses shown) (h : forest.WellLinked members rank)
    {id : NodeId} (hsections : id ∉ whole.topSections) (hnamespaces : id ∉ whole.namespaces) :
    (split.node id).children = (whole.node id).children := by
  rw [hwhole.topSections_eq, List.mem_filter] at hsections
  rw [hwhole.mem_namespaces_iff] at hnamespaces
  rw [hsplit.children_eq, h.children_liftClasses, hwhole.children_eq]
  cases hsection : (forest.node id).isSection with
  | true => rw [if_pos rfl, if_neg fun htop => hsections ⟨htop, hsection⟩]
  | false => rw [if_neg Bool.false_ne_true, if_neg fun hplace => hnamespaces ⟨hplace, hsection⟩]

end Lifting

end Shows

end ResolvedTree

namespace Collection

variable {records : List Record}

/-- Records without extensions have nodes without extensions. -/
theorem extension_linked (hextension : ∀ record ∈ records, record.extension = false)
    (id : NodeId) : ((empty.insertAll records).linked.node id).extension = false := by
  have hcolumn : (empty.insertAll records).linked.column Node.extension =
      (Forest.ofCollection (empty.insertAll records)).column Node.extension := by
    unfold linked
    rw [Forest.column_linkRelations (fun _ _ => rfl) (fun _ _ => rfl) (fun _ _ _ => rfl)
        (fun _ _ _ => rfl),
      Forest.column_classify (Forest.view_classifyNode fun _ _ _ => rfl),
      Forest.column_nest (fun _ _ => rfl) (fun _ _ _ _ _ => rfl) (fun _ _ => rfl)]
    exact Forest.column_eq_of_nodes_eq (Forest.nodes_assignSections _)
  rw [Forest.view_node_eq_of_column_eq hcolumn id]
  cases hfound : (empty.insertAll records).records.values[id]? with
  | none =>
    have hsize := List.getElem?_eq_none_iff.mp hfound
    rw [Forest.node_eq_default]
    · rfl
    · simpa [KeyMap.values, KeyMap.size] using hsize
  | some record =>
    refine (Forest.view_node_ofCollection (fun _ _ => rfl) hfound).trans ?_
    rcases List.mem_cons.mp (held_of_value hfound).1 with rfl | hfiled
    · rfl
    · obtain ⟨source, hsource, _, rfl⟩ := exists_source_of_mem_filings hfiled
      exact hextension source hsource

/-- Without extensions and unless there is one output file per class, a resolution shows a forest
with output files assigned. -/
theorem shows_of_resolve_eq {collection : Collection} {settings : Settings} {forest : Forest}
    {members : List NodeId} {rank : NodeId → Nat} (hpolicy : settings.policy ≠ .perClass)
    (h : forest.ownership.IsForest members rank)
    (hresolve : (Forest.ofCollection collection).resolve settings = forest.partitioned settings) :
    (collection.resolve settings).Shows forest (forest.shown settings members) := by
  have hnode (id : NodeId) : (collection.resolve settings).node id =
      (forest.partitioned settings).node id :=
    congrArg (Forest.node · id) hresolve
  have hrest : ((Forest.ofCollection collection).resolve settings).rest = forest.rest :=
    (congrArg Forest.rest hresolve).trans (forest.rest_partitioned settings)
  refine ⟨Forest.lookup_eq_of_rest_eq hrest, Forest.diagnostics_eq_of_rest_eq hrest,
    forest.relabels_shown settings members, Forest.top_eq_of_rest_eq hrest, fun id => ?_,
    fun id => ?_⟩
  · rw [hnode]
    exact Forest.view_node_eq_of_column_eq
      (Forest.column_partitioned (fun _ _ _ _ => rfl) settings forest) id
  · rw [hnode, Forest.node_partitioned hpolicy h]
    unfold Forest.shown
    split <;> simp [Forest.withOutFile]

/-- Without extensions, resolutions with and without lifting show the linked forest, lifted and as
it is. Their nodes differ in children only, since output files do not depend on these. -/
theorem exists_shows (settings : Settings)
    (hextension : ∀ record ∈ records, record.extension = false) {root : NodeId}
    (hroot : (Forest.ofCollection (empty.insertAll records)).keys.get? "" = some root) :
    let linked := (empty.insertAll records).linked
    let whole := (empty.insertAll records).resolve
      { settings with splitByClass := false, splitFromNamespace := false }
    let split := (empty.insertAll records).resolve
      { settings with splitByClass := false, splitFromNamespace := true }
    ∃ shown, whole.Shows linked shown ∧ split.Shows linked.liftClasses shown ∧
      ∀ id, (split.node id).withoutChildren = (whole.node id).withoutChildren := by
  intro linked whole split
  let members := (Forest.ofCollection (empty.insertAll records)).assignSections.seated
  let perFile : Settings := { settings with splitByClass := false, splitFromNamespace := false }
  let lifting : Settings := { settings with splitByClass := false, splitFromNamespace := true }
  have hforest := (wellLinked_linked hroot).isForest
  have hlifted := (wellLinked_linked hroot).liftClasses.isForest
  have hwhole : (Forest.ofCollection (empty.insertAll records)).resolve perFile =
      linked.partitioned perFile :=
    Forest.assignPartitions_eq (extension_linked hextension) perFile
  have hsplit : (Forest.ofCollection (empty.insertAll records)).resolve lifting =
      linked.liftClasses.partitioned lifting :=
    Forest.assignPartitions_eq (extension_linked hextension) lifting
  have hperFile : perFile.policy ≠ .perClass := nofun
  have hlifting : lifting.policy ≠ .perClass := nofun
  have hsameFile : Forest.withOutFile lifting = Forest.withOutFile perFile := rfl
  have hwholeShows := shows_of_resolve_eq hperFile hforest hwhole
  have hsplitShows := shows_of_resolve_eq hlifting hlifted hsplit
  rw [Forest.shown_liftClasses] at hsplitShows
  refine ⟨_, hwholeShows, hsplitShows, fun id => ?_⟩
  have hwholeNode : whole.node id = _ :=
    (congrArg (Forest.node · id) hwhole).trans (Forest.node_partitioned hperFile hforest id)
  have hsplitNode : split.node id = _ :=
    (congrArg (Forest.node · id) hsplit).trans (Forest.node_partitioned hlifting hlifted id)
  rw [hwholeNode, hsplitNode, hsameFile]
  split
  · rw [Forest.withoutChildren_withOutFile, Forest.withoutChildren_liftClasses,
      ← Forest.withoutChildren_withOutFile]
  · exact Forest.withoutChildren_liftClasses _ id

/-- After any sequence of insertions without extensions and for all settings, lifting classes out of
their namespaces moves edges and changes nothing else. Lookup, diagnostics and every field of every
node but the children are those of the resolution with one output file per source file. The nodes at
the top, and those that sections at the top list, lose the classes that they own, which follow them
in the same order in the list that holds them. All other edges keep their places. -/
theorem lifting_moves_edges_only (records : List Record) (settings : Settings)
    (hextension : ∀ record ∈ records, record.extension = false) :
    let whole := (empty.insertAll records).resolve
      { settings with splitByClass := false, splitFromNamespace := false }
    let split := (empty.insertAll records).resolve
      { settings with splitByClass := false, splitFromNamespace := true }
    split.lookup = whole.lookup ∧ split.diagnostics = whole.diagnostics ∧
    split.nodes.size = whole.nodes.size ∧
    (∀ id, (split.node id).withoutChildren = (whole.node id).withoutChildren) ∧
    split.top = whole.withClasses whole.top ∧
    (∀ id ∈ whole.topSections,
      (split.node id).children = whole.withClasses (whole.node id).children) ∧
    (∀ id ∈ whole.namespaces, (split.node id).children =
      (whole.node id).children.filter fun edge => !whole.leadsToClass edge) ∧
    (∀ id, id ∉ whole.topSections → id ∉ whole.namespaces →
      (split.node id).children = (whole.node id).children) := by
  intro whole split
  obtain ⟨root, hroot, _⟩ := exists_root records
  have hlinked := wellLinked_linked hroot
  obtain ⟨shown, hwhole, hsplit, hbare⟩ := exists_shows settings hextension hroot
  have hrest := (empty.insertAll records).linked.rest_liftClasses
  have hlookup := congrArg Forest.lookup hrest
  have hdiagnostics := congrArg Forest.diagnostics hrest
  have htop := congrArg Forest.top hrest
  refine ⟨?_, ?_, ?_, hbare, ?_, fun id hid => hwhole.children_of_mem_topSections hsplit hlinked hid,
    fun id hid => hwhole.children_of_mem_namespaces hsplit hlinked hid,
    fun id hsections hnamespaces =>
      hwhole.children_of_notMem hsplit hlinked hsections hnamespaces⟩
  · exact hsplit.lookup_eq.trans (hlookup.trans hwhole.lookup_eq.symm)
  · exact hsplit.diagnostics_eq.trans (hdiagnostics.trans hwhole.diagnostics_eq.symm)
  · exact (Forest.size_resolve _ _).trans (Forest.size_resolve _ _).symm
  · rw [hwhole.withClasses_eq, hwhole.top_eq]
    exact hsplit.top_eq.trans htop

/-- A class within a class. -/
def nestedClass : List Record :=
  [{ id := "Ajax", kind := .class }, { id := "Ajax.Request", kind := .class }]

/-- The inner class leaves the outer one and follows it at the top. -/
theorem lifting_moves_edges_only_of_nestedClass :
    let whole := (empty.insertAll nestedClass).resolve {}
    let split := (empty.insertAll nestedClass).resolve { splitFromNamespace := true }
    whole.top = [.owned 1] ∧ (whole.node 1).children = [.owned 2] ∧
      split.top = [.owned 1, .owned 2] ∧ (split.node 1).children = [] ∧
      split.lookup = whole.lookup ∧ split.diagnostics = whole.diagnostics := by
  intro whole split
  have hcomputed : (whole.top = [.owned 1] ∧ (whole.node 1).children = [.owned 2]) ∧
      (whole.withClasses whole.top = [.owned 1, .owned 2] ∧ 1 ∈ whole.namespaces) ∧
      (whole.node 1).children.filter (fun edge => !whole.leadsToClass edge) = [] := by
    simp only [whole, resolve, Forest.resolve_eval]
    decide +kernel
  obtain ⟨⟨htop, hchildren⟩, ⟨hlifted, hnamespace⟩, hkept⟩ := hcomputed
  obtain ⟨hlookup, hdiagnostics, _, _, hmoved, _, hleft, _⟩ :=
    lifting_moves_edges_only nestedClass {} (by decide)
  exact ⟨htop, hchildren, hmoved.trans hlifted, (hleft 1 hnamespace).trans hkept, hlookup,
    hdiagnostics⟩

end Collection

end SymbolTree
