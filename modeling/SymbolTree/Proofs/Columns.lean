import SymbolTree.Resolution

/-!
# What the stages leave alone

A `column` is one attribute of all nodes of a forest, and `rest` is everything but the nodes. Each
step of a resolution changes a few fields of some nodes, so any attribute that ignores these fields
keeps its column. The statements about whole stages ask only which updates of a single node an
attribute ignores.
-/

namespace SymbolTree

/-- Steps that keep a view of the state keep it over a whole run. -/
theorem foldl_keeps {σ β γ : Type} {step : σ → β → σ} (view : σ → γ) {items : List β}
    (h : ∀ state, ∀ item ∈ items, view (step state item) = view state) (state : σ) :
    view (items.foldl step state) = view state := by
  induction items generalizing state with
  | nil => rfl
  | cons item items ih =>
    rw [List.foldl_cons, ih fun state item hitem => h state item (List.mem_cons_of_mem _ hitem),
      h state item List.mem_cons_self]

namespace Forest

variable {α : Type} {view : Node → α}

/-- One attribute of all nodes. -/
def column (view : Node → α) (forest : Forest) : Array α := forest.nodes.map view

/-- A forest without its nodes. -/
def rest (forest : Forest) : Forest := { forest with nodes := #[] }

/-- A column has one entry per node. -/
@[simp] theorem size_column (forest : Forest) : (forest.column view).size = forest.nodes.size :=
  Array.size_map

/-- Forests that share a column have the same number of nodes. -/
theorem size_eq_of_column_eq {a b : Forest} (h : a.column view = b.column view) :
    a.nodes.size = b.nodes.size := by
  simpa using congrArg Array.size h

/-- Forests that share a column agree on the attribute of every node. -/
theorem view_node_eq_of_column_eq {a b : Forest} (h : a.column view = b.column view)
    (id : NodeId) : view (a.node id) = view (b.node id) := by
  have hentry := congrArg (·[id]?) h
  simp only [column, Array.getElem?_map] at hentry
  unfold node
  rw [Array.getD_eq_getD_getElem?, Array.getD_eq_getD_getElem?]
  cases ha : a.nodes[id]? <;> cases hb : b.nodes[id]? <;> simp_all

/-- Forests that agree on an attribute of every node share its column. -/
theorem column_eq_of_view_node_eq {a b : Forest} (hsize : a.nodes.size = b.nodes.size)
    (h : ∀ id, view (a.node id) = view (b.node id)) : a.column view = b.column view := by
  refine Array.ext (by simpa using hsize) fun id ha hb => ?_
  simp only [size_column] at ha hb
  have hid := h id
  simpa [node, Array.getD, ha, hb, column] using hid

/-- Forests with the same types have the same classes. -/
theorem isClass_eq {a b : Forest} (h : a.column Node.type = b.column Node.type) (id : NodeId) :
    (a.node id).isClass = (b.node id).isClass := by
  rw [Node.isClass, Node.isClass, view_node_eq_of_column_eq h id]

/-- Forests with the same types have the same sections. -/
theorem isSection_eq {a b : Forest} (h : a.column Node.type = b.column Node.type) (id : NodeId) :
    (a.node id).isSection = (b.node id).isSection := by
  rw [Node.isSection, Node.isSection, view_node_eq_of_column_eq h id]

/-- Forests with the same nodes agree on every node. -/
theorem node_eq_of_nodes_eq {a b : Forest} (h : a.nodes = b.nodes) (id : NodeId) :
    a.node id = b.node id := by
  rw [node, node, h]

/-- Changing one node leaves the others as they are. -/
theorem node_modify (forest : Forest) (id : NodeId) (f : Node → Node) (other : NodeId) :
    (forest.modify id f).node other =
      if other = id ∧ id < forest.nodes.size then f (forest.node other) else forest.node other := by
  unfold node modify
  rw [Array.getD_eq_getD_getElem?, Array.getD_eq_getD_getElem?, Array.getElem?_modify]
  by_cases hid : id = other
  · subst hid
    by_cases hlt : id < forest.nodes.size <;> simp [hlt]
  · simp [hid, Ne.symm hid]

/-- A node that exists is changed as asked. -/
theorem node_modify_self {forest : Forest} {id : NodeId} (hid : id < forest.nodes.size)
    (f : Node → Node) : (forest.modify id f).node id = f (forest.node id) := by
  simp [node_modify, hid]

/-- Other nodes are not changed. -/
theorem node_modify_of_ne {forest : Forest} {id other : NodeId} (hne : other ≠ id)
    (f : Node → Node) : (forest.modify id f).node other = forest.node other := by
  simp [node_modify, hne]

/-- The number of nodes stays the same. -/
@[simp] theorem size_modify (forest : Forest) (id : NodeId) (f : Node → Node) :
    (forest.modify id f).nodes.size = forest.nodes.size :=
  Array.size_modify

/-- A node that does not exist has no children. -/
theorem node_eq_default {forest : Forest} {id : NodeId} (hid : forest.nodes.size ≤ id) :
    forest.node id = default := by
  unfold node
  rw [Array.getD_eq_getD_getElem?, Array.getElem?_eq_none hid, Option.getD_none]

/-- A class exists. -/
theorem lt_size_of_isClass {forest : Forest} {id : NodeId}
    (hclass : (forest.node id).isClass = true) : id < forest.nodes.size := by
  refine Nat.lt_of_not_le fun hsize => ?_
  rw [node_eq_default hsize] at hclass
  cases hclass

/-- An attribute that ignores a change of one node keeps its column. -/
theorem column_modify {f : Node → Node} (h : ∀ node, view (f node) = view node) (forest : Forest)
    (id : NodeId) : (forest.modify id f).column view = forest.column view := by
  refine column_eq_of_view_node_eq (size_modify ..) fun other => ?_
  rw [node_modify]
  split
  · exact h _
  · rfl

/-- Changing a node changes nothing but nodes. -/
@[simp] theorem rest_modify (forest : Forest) (id : NodeId) (f : Node → Node) :
    (forest.modify id f).rest = forest.rest := rfl

/-- A node that no item concerns stays as it is. -/
theorem node_foldl_modify_of_notMem {β : Type} (target : β → NodeId) (change : β → Node → Node)
    {items : List β} {id : NodeId} (hid : id ∉ items.map target) (forest : Forest) :
    (items.foldl (fun forest item => forest.modify (target item) (change item)) forest).node id =
      forest.node id := by
  refine foldl_keeps (node · id) (fun forest item hitem => node_modify_of_ne ?_ _) forest
  rintro rfl
  exact hid (List.mem_map_of_mem hitem)

/-- Forests that differ in nodes only have the same keys. -/
theorem keys_eq_of_rest_eq {a b : Forest} (h : a.rest = b.rest) : a.keys = b.keys :=
  show a.rest.keys = b.rest.keys by rw [h]

/-- Forests that differ in nodes only have the same top. -/
theorem top_eq_of_rest_eq {a b : Forest} (h : a.rest = b.rest) : a.top = b.top :=
  show a.rest.top = b.rest.top by rw [h]

/-- Forests that differ in nodes only have the same lookup. -/
theorem lookup_eq_of_rest_eq {a b : Forest} (h : a.rest = b.rest) : a.lookup = b.lookup :=
  show a.rest.lookup = b.rest.lookup by rw [h]

/-- Forests that differ in nodes only have the same diagnostics. -/
theorem diagnostics_eq_of_rest_eq {a b : Forest} (h : a.rest = b.rest) :
    a.diagnostics = b.diagnostics :=
  show a.rest.diagnostics = b.rest.diagnostics by rw [h]

/-- Forests that differ in nodes only, and agree on every node, are equal. -/
theorem eq_of_rest_eq {a b : Forest} (hrest : a.rest = b.rest) (hsize : a.nodes.size = b.nodes.size)
    (hnode : ∀ id, a.node id = b.node id) : a = b := by
  have hnodes : a.nodes = b.nodes := by
    have hcolumn : a.column (fun node => node) = b.column fun node => node :=
      column_eq_of_view_node_eq hsize hnode
    simpa [column] using hcolumn
  cases a
  cases b
  simp_all [rest]

/-- After one change for each item, distinct nodes have been changed by their own items. -/
theorem node_foldl_modify {β : Type} (target : β → NodeId) (change : β → Node → Node)
    {items : List β} (hnodup : (items.map target).Nodup) (forest : Forest) {item : β}
    (hitem : item ∈ items) (hid : target item < forest.nodes.size) :
    (items.foldl (fun forest item => forest.modify (target item) (change item)) forest).node
      (target item) = change item (forest.node (target item)) := by
  induction items generalizing forest with
  | nil => simp at hitem
  | cons first items ih =>
    obtain ⟨hfresh, hrest⟩ := List.nodup_cons.mp hnodup
    rw [List.foldl_cons]
    rcases List.mem_cons.mp hitem with rfl | hmem
    · rw [node_foldl_modify_of_notMem target change hfresh, node_modify_self hid]
    · have hne : target item ≠ target first := fun heq => hfresh (heq ▸ List.mem_map_of_mem hmem)
      rw [ih hrest _ hmem (by simpa using hid), node_modify_of_ne hne]

end Forest

end SymbolTree
