import SymbolTree.Document
import SymbolTree.Proofs.Ownership.Traversal
import SymbolTree.Proofs.ResolvedForest
import Mathlib.Data.List.Forall2

/-!
# Views of a resolved tree

A view follows owned edges and, until it has taken one, inherited edges. Owned edges form a forest,
but an inherited edge may lead back up. No chain of edges is therefore longer than two walks down the
forest, and the bound on the depth of a document is never met. `Renders` states the recursion without
that bound. What is rendered shows the forest itself along owned edges, and nothing inherited below an
inherited edge.
-/

namespace SymbolTree

/-- Exactly the owned edges come from no ancestor. -/
theorem Edge.inheritedFrom?_eq_none_iff (edge : Edge) :
    edge.inheritedFrom? = none ↔ edge.isOwned = true := by
  cases edge <;> simp [inheritedFrom?, isOwned]

/-- The edges of a tree: those at the top, and those to the children of a node. -/
def ResolvedTree.HasEdge (tree : ResolvedTree) (edge : Edge) : Prop :=
  edge ∈ tree.top ∨ ∃ id, edge ∈ (tree.node id).children

namespace NodeView

variable {tree : ResolvedTree} {members : List NodeId} {rank : NodeId → Nat}
  {withInherited : Bool} {edge : Edge} {view : NodeView}

/-- The edges that are followed below an edge: the owned ones, and the inherited ones if they are
asked for and the edge is owned. -/
def followed (tree : ResolvedTree) (withInherited : Bool) (edge : Edge) : List Edge :=
  (tree.node edge.child).children.filter fun child =>
    (withInherited && edge.isOwned) || child.isOwned

/-- What an edge is rendered to, however deep that goes. A derivation is a run of the recursion that
ends. -/
inductive Renders (tree : ResolvedTree) : Bool → Edge → NodeView → Prop
  | view {withInherited : Bool} {edge : Edge} (below : Edge → NodeView) :
      (∀ child ∈ followed tree withInherited edge,
        Renders tree (withInherited && edge.isOwned) child (below child)) →
      Renders tree withInherited edge
        { node := tree.node edge.child
          outFile := edge.partition?.getD (tree.node edge.child).outFile
          inheritedFrom := edge.inheritedFrom?
          children := (followed tree withInherited edge).map below }

/-- One view has the other among its children. -/
def HasChild (parent child : NodeView) : Prop := child ∈ parent.children

/-- The views that are not inherited. -/
def owned (views : List NodeView) : List NodeView := views.filter (·.inheritedFrom.isNone)

/-- Below an edge that stops inheritance, the owned edges are followed. -/
private theorem followed_eq_ownedEdges (hstops : (withInherited && edge.isOwned) = false) :
    followed tree withInherited edge = (tree.node edge.child).ownedEdges := by
  simp only [followed, hstops, Bool.false_or, Node.ownedEdges]

/-- Below an owned edge, all edges are followed if inherited ones are asked for. -/
private theorem followed_eq_children (howned : edge.isOwned = true) :
    followed tree true edge = (tree.node edge.child).children := by
  simp only [followed, howned, Bool.and_self, Bool.true_or, List.filter_true]

namespace Renders

/-- A rendered edge shows its node. -/
theorem node_eq (h : Renders tree withInherited edge view) : view.node = tree.node edge.child := by
  cases h
  rfl

/-- A rendered edge shows its output file, or else that of its node. -/
theorem outFile_eq (h : Renders tree withInherited edge view) :
    view.outFile = edge.partition?.getD (tree.node edge.child).outFile := by
  cases h
  rfl

/-- A rendered edge shows the ancestor that it comes from. -/
theorem inheritedFrom_eq (h : Renders tree withInherited edge view) :
    view.inheritedFrom = edge.inheritedFrom? := by
  cases h
  rfl

/-- An edge is rendered to one view only. -/
theorem unique {other : NodeView} (h : Renders tree withInherited edge view)
    (hother : Renders tree withInherited edge other) : view = other := by
  induction h generalizing other with
  | view below _ ih =>
    cases hother with
    | view otherBelow hotherBelow =>
      congr 1
      apply List.map_congr_left
      intro child hchild
      exact ih child hchild (hotherBelow child hchild)

/-- The children of a rendered view are rendered from edges that are followed. -/
theorem of_hasChild {child : NodeView} (h : Renders tree withInherited edge view)
    (hchild : HasChild view child) :
    ∃ next ∈ followed tree withInherited edge,
      Renders tree (withInherited && edge.isOwned) next child := by
  cases h with
  | view below hbelow =>
    obtain ⟨next, hnext, rfl⟩ := List.mem_map.mp hchild
    exact ⟨next, hnext, hbelow next hnext⟩

/-- Every view at or below a rendered one is rendered. -/
theorem of_reflTransGen {other : NodeView} (h : Renders tree withInherited edge view)
    (hchain : Relation.ReflTransGen HasChild view other) :
    ∃ flag next, Renders tree flag next other := by
  induction hchain with
  | refl => exact ⟨_, _, h⟩
  | tail _ hchild ih =>
    obtain ⟨flag, next, hnext⟩ := ih
    obtain ⟨last, _, hlast⟩ := hnext.of_hasChild hchild
    exact ⟨_, last, hlast⟩

/-- Every view at or below one that is rendered from an edge of the tree is rendered from such an
edge. -/
theorem exists_hasEdge {other : NodeView} (h : Renders tree withInherited edge view)
    (hedge : tree.HasEdge edge) (hchain : Relation.ReflTransGen HasChild view other) :
    ∃ flag next, tree.HasEdge next ∧ Renders tree flag next other := by
  cases hchain with
  | refl => exact ⟨_, edge, hedge, h⟩
  | tail hchain hchild =>
    obtain ⟨flag, next, hnext⟩ := h.of_reflTransGen hchain
    obtain ⟨last, hlast, hrenders⟩ := hnext.of_hasChild hchild
    exact ⟨_, last, .inr ⟨next.child, (List.mem_filter.mp hlast).1⟩, hrenders⟩

/-- Below an edge that stops inheritance, nothing is inherited. -/
theorem inheritedFrom_below {below : NodeView} (h : Renders tree withInherited edge view)
    (hstops : (withInherited && edge.isOwned) = false)
    (hchain : Relation.TransGen HasChild view below) : below.inheritedFrom = none := by
  induction hchain using Relation.TransGen.head_induction_on generalizing withInherited edge with
  | single hchild =>
    obtain ⟨next, hnext, hrenders⟩ := h.of_hasChild hchild
    rw [followed_eq_ownedEdges hstops] at hnext
    rw [hrenders.inheritedFrom_eq, next.inheritedFrom?_eq_none_iff]
    exact (List.mem_filter.mp hnext).2
  | head hchild _ ih =>
    obtain ⟨next, _, hrenders⟩ := h.of_hasChild hchild
    apply ih hrenders
    rw [hstops, Bool.false_and]

end Renders

/-- Below an edge that stops inheritance, a view needs no more levels than the forest has below its
node. A node outside the forest owns nothing, so one level is enough there. -/
private theorem renders_of_stops (h : tree.ownership.IsForest members rank)
    (hrank : ∀ id ∈ members, rank id < tree.nodes.size) {depth : Nat}
    (hstops : (withInherited && edge.isOwned) = false) (hpositive : 0 < depth)
    (hdepth : edge.child ∈ members → tree.nodes.size ≤ rank edge.child + depth) :
    Renders tree withInherited edge (ofEdge tree depth withInherited edge) := by
  induction depth generalizing withInherited edge with
  | zero => omega
  | succ depth ih =>
    refine .view _ fun child hchild => ?_
    rw [followed_eq_ownedEdges hstops] at hchild
    have howns : tree.ownership.Owns edge.child child.child := List.mem_map_of_mem hchild
    have hhere := hdepth (h.owner_mem howns)
    have hlower := h.rank_lt howns
    have hbound := hrank child.child (h.child_mem howns)
    apply ih
    · rw [hstops, Bool.false_and]
    · omega
    · intro _
      omega

/-- From an owned edge, a view needs at most two walks down the forest: one by owned edges, and one
after an inherited edge. -/
private theorem renders_of_owned (h : tree.ownership.IsForest members rank)
    (hrank : ∀ id ∈ members, rank id < tree.nodes.size) {depth : Nat}
    (howned : edge.isOwned = true) (hmember : edge.child ∈ members)
    (hdepth : 2 * tree.nodes.size < rank edge.child + depth) :
    Renders tree true edge (ofEdge tree depth true edge) := by
  have hbound := hrank edge.child hmember
  induction depth generalizing edge with
  | zero => omega
  | succ depth ih =>
    refine .view _ fun child hchild => ?_
    rw [followed_eq_children howned] at hchild
    rw [howned, Bool.and_self]
    cases hkind : child.isOwned with
    | true =>
      have howns : tree.ownership.Owns edge.child child.child :=
        List.mem_map_of_mem (List.mem_filter.mpr ⟨hchild, hkind⟩)
      have hlower := h.rank_lt howns
      have hnext := h.child_mem howns
      exact ih hkind hnext (by omega) (hrank child.child hnext)
    | false =>
      apply renders_of_stops h hrank
      · rw [hkind, Bool.and_false]
      · omega
      · intro _
        omega

/-- A view of an owned edge, with inherited members. -/
def Shows (tree : ResolvedTree) (edge : Edge) (view : NodeView) : Prop :=
  edge.isOwned = true ∧ Renders tree true edge view

/-- Among views of edges, those of the owned edges are the ones that are not inherited. -/
private theorem forall₂_shows_owned {edges : List Edge} {below : Edge → NodeView}
    (hbelow : ∀ child ∈ edges, Renders tree true child (below child)) :
    List.Forall₂ (Shows tree) (edges.filter (·.isOwned)) (owned (edges.map below)) := by
  have hfilter : owned (edges.map below) = (edges.filter (·.isOwned)).map below := by
    rw [owned, List.filter_map]
    refine congrArg _ (List.filter_congr fun child hchild => ?_)
    rw [Function.comp_apply, (hbelow child hchild).inheritedFrom_eq, Bool.eq_iff_iff,
      Option.isNone_iff_eq_none, child.inheritedFrom?_eq_none_iff]
  rw [hfilter, List.forall₂_map_right_iff, List.forall₂_same]
  intro child hchild
  obtain ⟨hmem, howned⟩ := List.mem_filter.mp hchild
  exact ⟨howned, hbelow child hmem⟩

/-- A view of an owned edge shows the owned edges of its node, in order. -/
private theorem Shows.forall₂_children (h : Shows tree edge view) :
    List.Forall₂ (Shows tree) (tree.node edge.child).ownedEdges (owned view.children) := by
  obtain ⟨howned, hrenders⟩ := h
  cases hrenders with
  | view below hbelow =>
    rw [howned, Bool.and_self] at hbelow
    rw [followed_eq_children howned] at hbelow ⊢
    exact forall₂_shows_owned hbelow

end NodeView

/-- What stands at a position of one list belongs to what stands there in the other. -/
private theorem exists_getElem?_of_forall₂ {α β : Type} {R : α → β → Prop} {as : List α}
    {bs : List β} (h : List.Forall₂ R as bs) {position : Nat} {a : α}
    (ha : as[position]? = some a) : ∃ b, bs[position]? = some b ∧ R a b := by
  obtain ⟨hlength, hall⟩ := List.forall₂_iff_get.mp h
  obtain ⟨hlt, rfl⟩ := List.getElem?_eq_some_iff.mp ha
  exact ⟨_, List.getElem?_eq_getElem (hlength ▸ hlt), hall position hlt (hlength ▸ hlt)⟩

namespace Document

variable {tree : ResolvedTree} {document : Document} {path : List Nat} {id : NodeId}
  {view : NodeView}

/-- A path from the top of a document to a view that takes no inherited edge: the positions of the
owned views to follow, the last one first. -/
inductive OwnedPath (document : Document) : List Nat → NodeView → Prop
  | top {position : Nat} {view : NodeView} :
      (NodeView.owned document.tree)[position]? = some view → OwnedPath document [position] view
  | child {path : List Nat} {position : Nat} {parent view : NodeView} :
      OwnedPath document path parent →
      (NodeView.owned parent.children)[position]? = some view →
      OwnedPath document (position :: path) view

/-- A view that the document holds at the top or anywhere below. -/
def Holds (document : Document) (view : NodeView) : Prop :=
  ∃ start ∈ document.tree, Relation.ReflTransGen NodeView.HasChild start view

/-- A path leads to one view. -/
theorem OwnedPath.view_unique {other : NodeView} (h : document.OwnedPath path view)
    (hother : document.OwnedPath path other) : view = other := by
  induction h generalizing other with
  | top hview =>
    cases hother with
    | top hposition => exact Option.some.inj (hview.symm.trans hposition)
    | child hpath _ => cases hpath
  | child hpath hview ih =>
    cases hother with
    | top => cases hpath
    | child hotherPath hposition =>
      obtain rfl := ih hotherPath
      exact Option.some.inj (hview.symm.trans hposition)

/-- The document has every path of the tree. -/
private theorem exists_view
    (h : List.Forall₂ (NodeView.Shows tree) tree.top (NodeView.owned document.tree))
    (hpath : tree.ownership.Path path id) :
    ∃ edge view, edge.child = id ∧ NodeView.Shows tree edge view ∧
      document.OwnedPath path view := by
  induction hpath with
  | top hposition =>
    obtain ⟨edge, hedge, rfl⟩ := Option.map_eq_some_iff.mp (List.getElem?_map.symm.trans hposition)
    obtain ⟨view, hview, hshows⟩ := exists_getElem?_of_forall₂ h hedge
    exact ⟨edge, view, rfl, hshows, .top hview⟩
  | child _ hposition ih =>
    obtain ⟨parent, parentView, rfl, hparent, hpath⟩ := ih
    obtain ⟨edge, hedge, rfl⟩ := Option.map_eq_some_iff.mp (List.getElem?_map.symm.trans hposition)
    obtain ⟨view, hview, hshows⟩ := exists_getElem?_of_forall₂ hparent.forall₂_children hedge
    exact ⟨edge, view, rfl, hshows, .child hpath hview⟩

/-- The document has no other paths. -/
private theorem exists_edge
    (h : List.Forall₂ (NodeView.Shows tree) tree.top (NodeView.owned document.tree))
    (hpath : document.OwnedPath path view) :
    ∃ edge, NodeView.Shows tree edge view ∧ tree.ownership.Path path edge.child := by
  induction hpath with
  | top hposition =>
    obtain ⟨edge, hedge, hshows⟩ := exists_getElem?_of_forall₂ h.flip hposition
    refine ⟨edge, hshows, .top ?_⟩
    exact List.getElem?_map.trans (congrArg _ hedge)
  | child _ hposition ih =>
    obtain ⟨parent, hparent, hpath⟩ := ih
    obtain ⟨edge, hedge, hshows⟩ :=
      exists_getElem?_of_forall₂ hparent.forall₂_children.flip hposition
    refine ⟨edge, hshows, .child hpath ?_⟩
    exact List.getElem?_map.trans (congrArg _ hedge)

end Document

namespace Collection

/-- After any sequence of insertions and for all settings, every edge at the top of the resolved tree
is rendered to exactly one view, however deep that goes, and the document lists these views. Along
owned edges the document shows every node that can be reached exactly once, and nothing else. No view
at or below an inherited one has an inherited view anywhere below it. -/
theorem document_shows_each_node_once (records : List Record) (settings : Settings)
    (title date : String) (globals : List String) :
    let tree := (empty.insertAll records).resolve settings
    let document := Document.ofTree tree title date globals
    (∀ edge ∈ tree.top, ∃! view, NodeView.Renders tree true edge view) ∧
    List.Forall₂ (NodeView.Renders tree true) tree.top document.tree ∧
    (∀ id, tree.ownership.Reachable id →
      ∃! place : List Nat × NodeView,
        tree.ownership.Path place.1 id ∧ document.OwnedPath place.1 place.2) ∧
    (∀ path view, document.OwnedPath path view →
      ∃ id, tree.ownership.Path path id ∧ view.node = tree.node id) ∧
    (∀ inherited view below, document.Holds inherited → inherited.inheritedFrom ≠ none →
      Relation.ReflTransGen NodeView.HasChild inherited view →
      Relation.TransGen NodeView.HasChild view below → below.inheritedFrom = none) := by
  intro tree document
  obtain ⟨root, hroot, _⟩ := exists_root records
  have hlinked := (Forest.nestable_assignSections hroot).wellLinked settings
  have hforest : tree.ownership.IsForest _ _ := hlinked.isForest
  obtain ⟨rank, hranked, hrank⟩ := hforest.exists_rank_lt_size
  have hrenders (edge : Edge) (hedge : edge ∈ tree.top) : NodeView.Renders tree true edge
      (NodeView.ofEdge tree (2 * tree.nodes.size + 1) true edge) :=
    NodeView.renders_of_owned hranked hrank (hlinked.isOwned_top hedge)
      (hforest.top_mem (List.mem_map_of_mem hedge)) (by omega)
  have htop : tree.top.filter (·.isOwned) = tree.top :=
    List.filter_eq_self.mpr fun edge hedge => hlinked.isOwned_top hedge
  have hshown : List.Forall₂ (NodeView.Shows tree) tree.top (NodeView.owned document.tree) :=
    htop ▸ NodeView.forall₂_shows_owned hrenders
  refine ⟨?_, ?_, ?_, ?_, ?_⟩
  · intro edge hedge
    exact ⟨_, hrenders edge hedge, fun other hother => hother.unique (hrenders edge hedge)⟩
  · exact List.forall₂_map_right_iff.mpr (List.forall₂_same.mpr hrenders)
  · intro id hreachable
    obtain ⟨path, hpath⟩ := hreachable
    obtain ⟨edge, view, _, _, hview⟩ := Document.exists_view hshown hpath
    refine ⟨(path, view), ⟨hpath, hview⟩, ?_⟩
    rintro ⟨otherPath, otherView⟩ ⟨hotherPath, hotherView⟩
    obtain rfl := hforest.path_unique hpath hotherPath
    rw [hview.view_unique hotherView]
  · intro path view hview
    obtain ⟨edge, hshows, hpath⟩ := Document.exists_edge hshown hview
    exact ⟨edge.child, hpath, hshows.2.node_eq⟩
  · intro inherited view below hholds hinherited hdown hbelow
    obtain ⟨start, hstart, hchain⟩ := hholds
    obtain ⟨edge, hedge, rfl⟩ := List.mem_map.mp hstart
    obtain ⟨flag, last, hlast⟩ := (hrenders edge hedge).of_reflTransGen hchain
    have hkind : last.isOwned = false := by
      rw [hlast.inheritedFrom_eq, ne_eq, last.inheritedFrom?_eq_none_iff] at hinherited
      exact Bool.eq_false_iff.mpr hinherited
    apply hlast.inheritedFrom_below
    · rw [hkind, Bool.and_false]
    · exact Relation.TransGen.trans_right hdown hbelow

/-- Every view that a document holds is what some edge of the resolved tree is rendered to. -/
theorem exists_renders_of_holds (records : List Record) (settings : Settings)
    (title date : String) (globals : List String) {view : NodeView} :
    let tree := (empty.insertAll records).resolve settings
    (Document.ofTree tree title date globals).Holds view →
      ∃ withInherited edge, tree.HasEdge edge ∧ NodeView.Renders tree withInherited edge view := by
  rintro tree ⟨start, hstart, hchain⟩
  obtain ⟨root, hroot, _⟩ := exists_root records
  have hlinked := (Forest.nestable_assignSections hroot).wellLinked settings
  have hforest : tree.ownership.IsForest _ _ := hlinked.isForest
  obtain ⟨rank, hranked, hrank⟩ := hforest.exists_rank_lt_size
  obtain ⟨edge, hedge, rfl⟩ := List.mem_map.mp hstart
  have hrenders : NodeView.Renders tree true edge
      (NodeView.ofEdge tree (2 * tree.nodes.size + 1) true edge) :=
    NodeView.renders_of_owned hranked hrank (hlinked.isOwned_top hedge)
      (hforest.top_mem (List.mem_map_of_mem hedge)) (by omega)
  exact hrenders.exists_hasEdge (.inl hedge) hchain

end Collection

end SymbolTree
