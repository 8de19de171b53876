import SymbolTree.Proofs.Ancestry
import SymbolTree.Proofs.KeyMap

/-!
# The tree of ancestors

A walk records the ancestors that it follows as a tree. Below a class stand the classes that it
inherits from, apart from those that do not exist and those on the path that leads to it. No id can
therefore occur twice on a path, and no path is longer than the number of classes that exist. This is
also why the walk ends, whatever the classes inherit from.
-/

namespace SymbolTree.Forest

variable {lineage : Lineage} {className : String} {path names : List String}
  {found : AncestorWalk} {id : NodeId} {hierarchy : List Ancestor} {line : List String}
  {ancestor : Ancestor}

/-- The ids from a root of a tree of ancestors to one of its ancestors, which comes last. -/
inductive AncestorLine (hierarchy : List Ancestor) : List String → Ancestor → Prop
  | root {ancestor : Ancestor} :
      ancestor ∈ hierarchy → AncestorLine hierarchy [ancestor.id] ancestor
  | parent {line : List String} {child ancestor : Ancestor} :
      AncestorLine hierarchy line child → ancestor ∈ child.parents →
      AncestorLine hierarchy (line ++ [ancestor.id]) ancestor

/-- The classes that a walk follows from a node: those that it inherits from, once each and in the
order of declaration, if they exist and are not on the path. -/
def Lineage.followed (lineage : Lineage) (path : List String) (node : NodeId) : List String :=
  (lineage.inherits node).eraseDups.filter fun name =>
    lineage.lookup.contains name && decide (name ∉ path)

/-- What can be followed exists and is not on the path. -/
theorem Lineage.mem_followed_iff {node : NodeId} {name : String} :
    name ∈ lineage.followed path node ↔
      name ∈ lineage.inherits node ∧ name ∈ lineage.lookup.keys ∧ name ∉ path := by
  simp [followed, KeyMap.contains_iff_mem_keys]

/-- A tree with the ancestors of a class: at its roots and below each ancestor stand the classes that
a walk follows from there. -/
structure Lineage.IsTree (lineage : Lineage) (className : String) (id : NodeId)
    (hierarchy : List Ancestor) : Prop where
  /-- The roots are what the class inherits from. -/
  roots_eq : hierarchy.map (·.id) = lineage.followed [className] id
  /-- Each ancestor exists and has its own ancestors below it. -/
  parents_eq : ∀ {line : List String} {ancestor : Ancestor}, AncestorLine hierarchy line ancestor →
    ∃ node, lineage.lookup.get? ancestor.id = some node ∧
      ancestor.parents.map (·.id) = lineage.followed (className :: line) node

namespace Walks

/-- The ancestors that a walk records are the named classes that exist and are not on its path. -/
theorem map_id_hierarchy (h : Walks lineage className path names found) :
    found.hierarchy.map (·.id) =
      names.filter fun name => lineage.lookup.contains name && decide (name ∉ path) := by
  induction h with
  | nil => rfl
  | onPath hmem _ ihRest => simpa [hmem] using ihRest
  | missing _ hmissing _ ihRest => simpa [KeyMap.contains, hmissing] using ihRest
  | followed hmem hfound _ _ _ ihRest => simp [KeyMap.contains, hmem, hfound, ihRest]

/-- Below an ancestor stand the ancestors of the walk that starts there. -/
theorem parents_eq (h : Walks lineage className path names found)
    (hancestor : ancestor ∈ found.hierarchy) :
    ∃ node above, lineage.lookup.get? ancestor.id = some node ∧
      Walks lineage className (path ++ [ancestor.id]) (lineage.inherits node).eraseDups above ∧
      ancestor.parents = above.hierarchy := by
  induction h with
  | nil => cases hancestor
  | onPath _ _ ihRest => exact ihRest hancestor
  | missing _ _ _ ihRest => exact ihRest hancestor
  | followed _ hfound habove _ _ ihRest =>
    rcases List.mem_cons.mp hancestor with rfl | hrest
    · exact ⟨_, _, hfound, habove, rfl⟩
    · exact ihRest hrest

/-- Every ancestor in the tree of a walk has the walk that starts there below it. -/
theorem parents_eq_of_line (h : Walks lineage className path names found)
    (hline : AncestorLine found.hierarchy line ancestor) :
    ∃ node above, lineage.lookup.get? ancestor.id = some node ∧
      Walks lineage className (path ++ line) (lineage.inherits node).eraseDups above ∧
      ancestor.parents = above.hierarchy := by
  induction hline with
  | root hroot => exact h.parents_eq hroot
  | parent _ hparent ih =>
    obtain ⟨_, above, _, hwalks, hparents⟩ := ih
    rw [← List.append_assoc]
    exact hwalks.parents_eq (hparents ▸ hparent)

/-- A walk over the ancestors of a class records a tree of them. -/
theorem isTree (h : Walks lineage className [className] (lineage.inherits id).eraseDups found) :
    lineage.IsTree className id found.hierarchy where
  roots_eq := h.map_id_hierarchy
  parents_eq hline := by
    obtain ⟨node, above, hfound, hwalks, hparents⟩ := h.parents_eq_of_line hline
    exact ⟨node, hfound, hparents ▸ hwalks.map_id_hierarchy⟩

end Walks

namespace Lineage.IsTree

/-- On a path through the tree no id occurs twice, that of the class included, and all classes
exist. -/
theorem line_nodup_subset (h : lineage.IsTree className id hierarchy)
    (hline : AncestorLine hierarchy line ancestor) :
    (className :: line).Nodup ∧ line ⊆ lineage.lookup.keys := by
  induction hline with
  | @root ancestor hroot =>
    have hfollowed : ancestor.id ∈ lineage.followed [className] id :=
      h.roots_eq ▸ List.mem_map_of_mem hroot
    obtain ⟨_, hkey, hfresh⟩ := mem_followed_iff.mp hfollowed
    refine ⟨?_, by simpa using hkey⟩
    simpa [eq_comm] using hfresh
  | @parent line child ancestor hchild hparent ih =>
    obtain ⟨hnodup, hkeys⟩ := ih
    obtain ⟨node, _, hparents⟩ := h.parents_eq hchild
    have hfollowed : ancestor.id ∈ lineage.followed (className :: line) node :=
      hparents ▸ List.mem_map_of_mem hparent
    obtain ⟨_, hkey, hfresh⟩ := mem_followed_iff.mp hfollowed
    constructor
    · rw [← List.cons_append, ← List.concat_eq_append]
      exact hnodup.concat hfresh
    · exact List.append_subset.mpr ⟨hkeys, by simpa using hkey⟩

/-- No path through the tree is longer than the number of classes that exist. -/
theorem length_line_le (h : lineage.IsTree className id hierarchy)
    (hline : AncestorLine hierarchy line ancestor) : line.length ≤ lineage.lookup.size := by
  obtain ⟨hnodup, hkeys⟩ := h.line_nodup_subset hline
  have hlength := (List.subperm_of_subset (List.nodup_cons.mp hnodup).2 hkeys).length_le
  rwa [KeyMap.keys, List.length_map] at hlength

end Lineage.IsTree

/-- The walk over the ancestors of a class ends, whatever the classes inherit from: its rules give
one result. The tree that it records has at its roots, and below each ancestor, the classes that are
inherited from there, in the order of declaration and without repeats, that exist and are not on the
path. On no path through the tree does an id occur twice or the id of the class occur at all, and no
path is longer than the number of classes that exist. -/
theorem ancestor_walk_records_tree (lineage : Lineage) (className : String) (id : NodeId) :
    let names := (lineage.inherits id).eraseDups
    let found := walk lineage className [className] names
    (∀ other, Walks lineage className [className] names other ↔ other = found) ∧
      found.hierarchy.map (·.id) = lineage.followed [className] id ∧
      ∀ line ancestor, AncestorLine found.hierarchy line ancestor →
        (className :: line).Nodup ∧ line.length ≤ lineage.lookup.size ∧
        ∃ node, lineage.lookup.get? ancestor.id = some node ∧
          ancestor.parents.map (·.id) = lineage.followed (className :: line) node := by
  intro names found
  have hwalks : Walks lineage className [className] names found := walks_walk ..
  refine ⟨fun other => ⟨fun h => h.eq_walk, fun h => h ▸ hwalks⟩, hwalks.isTree.roots_eq, ?_⟩
  intro line ancestor hline
  exact ⟨(hwalks.isTree.line_nodup_subset hline).1, hwalks.isTree.length_line_le hline,
    hwalks.isTree.parents_eq hline⟩

/-- Three classes on cycles. The first one names the second twice and a class that does not exist. -/
def entangledClasses : Lineage where
  lookup := .ofList [("Leaf", 0), ("Middle", 1), ("Base", 2)]
  inherits
    | 0 => ["Middle", "Middle", "Ghost"]
    | 1 => ["Leaf", "Middle", "Base"]
    | 2 => ["Middle", "Leaf"]
    | _ => []
  own _ := []

/-- The first class has the second one for its ancestor, and that one the third, where the path
ends. -/
theorem ancestor_walk_records_tree_of_entangledClasses :
    ∃ middle base, (walk entangledClasses "Leaf" ["Leaf"]
        (entangledClasses.inherits 0).eraseDups).hierarchy = [middle] ∧
      middle.id = "Middle" ∧ middle.parents = [base] ∧ base.id = "Base" ∧ base.parents = [] := by
  obtain ⟨_, hroots, hlines⟩ := ancestor_walk_records_tree entangledClasses "Leaf" 0
  have hfollowed : entangledClasses.followed ["Leaf"] 0 = ["Middle"] ∧
      entangledClasses.followed ["Leaf", "Middle"] 1 = ["Base"] ∧
      entangledClasses.followed ["Leaf", "Middle", "Base"] 2 = [] := by decide +kernel
  have hfound : entangledClasses.lookup.get? "Middle" = some 1 ∧
      entangledClasses.lookup.get? "Base" = some 2 := by decide +kernel
  rw [hfollowed.1] at hroots
  obtain ⟨middle, hmiddle, hmiddleId⟩ := List.map_eq_singleton_iff.mp hroots
  have hmiddleLine := AncestorLine.root (hmiddle ▸ List.mem_singleton_self middle)
  obtain ⟨_, _, node, hnode, hparents⟩ := hlines _ _ hmiddleLine
  rw [hmiddleId, hfound.1] at hnode
  cases hnode
  rw [hmiddleId, hfollowed.2.1] at hparents
  obtain ⟨base, hbase, hbaseId⟩ := List.map_eq_singleton_iff.mp hparents
  have hbaseLine := hmiddleLine.parent (hbase ▸ List.mem_singleton_self base)
  obtain ⟨_, _, node, hnode, hparents⟩ := hlines _ _ hbaseLine
  rw [hbaseId, hfound.2] at hnode
  cases hnode
  rw [hmiddleId, hbaseId] at hparents
  exact ⟨middle, base, hmiddle, hmiddleId, hbase, hbaseId,
    List.map_eq_nil_iff.mp (hparents.trans hfollowed.2.2)⟩

end SymbolTree.Forest
