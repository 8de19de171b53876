import SymbolTree.Proofs.AncestorTree
import SymbolTree.Proofs.CanonicalOrder

/-!
# Members that a class inherits

A class is offered the members that its ancestors own, in the order in which the walk meets the
ancestors: depth first, an ancestor before its own ancestors. Own members keep their keys, and every
other key goes to the first member that is offered with it. All merges read what the classes own
before the first merge, so the classes may be merged in any order.
-/

namespace SymbolTree

mutual

/-- The id of an ancestor, and then those below it. -/
def Ancestor.preorder : Ancestor → List String
  | ⟨id, parents⟩ => id :: Ancestor.listPreorder parents

/-- The ids in a tree of ancestors, each before those below it. -/
def Ancestor.listPreorder : List Ancestor → List String
  | [] => []
  | ancestor :: rest => ancestor.preorder ++ Ancestor.listPreorder rest

end

/-- What a merge reads of a node, apart from the edges that it owns. -/
def Node.identity (node : Node) : String × String × NodeType × List String :=
  (node.id, node.name, node.type, node.inherits)

/-- The members that a node lists and the ancestors that they come from. -/
def Node.listing (node : Node) : List Edge × List Ancestor := (node.children, node.hierarchy)

namespace Forest

variable {lineage : Lineage} {className : String} {path names : List String}
  {found : AncestorWalk} {forest later : Forest}

/-- Links to the members that a class offers to those who inherit from it. -/
def Lineage.offers (lineage : Lineage) (name : String) : List Edge :=
  match lineage.lookup.get? name with
  | some node => (lineage.own node).map fun edge => .inherited edge.child name none
  | none => []

/-- A walk finds what the ancestors in its tree offer. -/
theorem Walks.members_eq (h : Walks lineage className path names found) :
    found.members = (Ancestor.listPreorder found.hierarchy).flatMap lineage.offers := by
  induction h with
  | nil => rfl
  | onPath _ _ ihRest => exact ihRest
  | missing _ _ _ ihRest => exact ihRest
  | followed _ hfound _ _ ihAbove ihRest =>
    simp [Ancestor.listPreorder, Ancestor.preorder, Lineage.offers, hfound, ihAbove, ihRest]

/-- What it means to merge offered members with own ones by their keys. -/
structure IsMerge (key : Edge → String) (own offered merged : List Edge) : Prop where
  /-- The members stand in canonical order of their keys. -/
  sorted : merged.Pairwise fun a b => (compareIds (key a) (key b)).isLE = true
  /-- Own members keep their keys, and those that share a key keep their order. -/
  own_kept : ∀ name ∈ own.map key,
    merged.filter (fun edge => decide (key edge = name)) =
      own.filter fun edge => decide (key edge = name)
  /-- Any other key goes to the first member that is offered with it. -/
  first_offered : ∀ name ∉ own.map key,
    merged.filter (fun edge => decide (key edge = name)) =
      (offered.find? fun edge => decide (key edge = name)).toList

section Merge

variable {key : Edge → String} {own : List Edge} {name : String}

/-- Nothing is added to a key of an own member. -/
theorem filter_mergeMembers_of_mem (hname : name ∈ own.map key) (offered : List Edge) :
    (mergeMembers key own offered).filter (fun edge => decide (key edge = name)) =
      own.filter fun edge => decide (key edge = name) := by
  induction offered generalizing own with
  | nil => rfl
  | cons edge offered ih =>
    rw [mergeMembers_cons]
    split
    · exact ih hname
    · rename_i hfresh
      have hother : key edge ≠ name := fun heq => hfresh (heq ▸ hname)
      rw [ih (by simpa using Or.inl (by simpa using hname)), List.filter_append]
      simp [hother]

/-- A key of no own member goes to the first member that is offered with it. -/
theorem filter_mergeMembers_of_notMem (hname : name ∉ own.map key) (offered : List Edge) :
    (mergeMembers key own offered).filter (fun edge => decide (key edge = name)) =
      (offered.find? fun edge => decide (key edge = name)).toList := by
  have hnone : own.filter (fun edge => decide (key edge = name)) = [] := by
    refine List.filter_eq_nil_iff.mpr fun edge hedge hkey => hname ?_
    exact List.mem_map.mpr ⟨edge, hedge, by simpa using hkey⟩
  induction offered generalizing own with
  | nil => simpa [mergeMembers] using hnone
  | cons edge offered ih =>
    rw [mergeMembers_cons]
    by_cases hkey : key edge = name
    · have hadded : name ∈ (own ++ [edge]).map key := by simp [hkey]
      rw [if_neg (hkey ▸ hname), filter_mergeMembers_of_mem hadded, List.filter_append, hnone]
      simp [hkey]
    · rw [List.find?_cons_of_neg (by simpa using hkey)]
      split
      · exact ih hname hnone
      · refine ih ?_ ?_
        · simpa [Ne.symm hkey] using hname
        · simpa [hkey] using hnone

/-- Merged members that are sorted by their keys are what merging means. -/
theorem isMerge_sortByIds (key : Edge → String) (own offered : List Edge) :
    IsMerge key own offered (sortByIds key (mergeMembers key own offered)) where
  sorted := pairwise_sortByIds key _
  own_kept name hname := by
    rw [filter_sortByIds, filter_mergeMembers_of_mem hname]
  first_offered name hname := by
    rw [filter_sortByIds, filter_mergeMembers_of_notMem hname]

/-- There is one way to merge members. -/
theorem IsMerge.unique {offered merged other : List Edge} (h : IsMerge key own offered merged)
    (hother : IsMerge key own offered other) : merged = other := by
  refine eq_of_filter_eq key h.sorted hother.sorted fun name => ?_
  by_cases hname : name ∈ own.map key
  · rw [h.own_kept name hname, hother.own_kept name hname]
  · rw [h.first_offered name hname, hother.first_offered name hname]

end Merge

/-- A merge gives the same members as long as nodes have the same identity. -/
theorem listing_merged_congr (lineage : Lineage)
    (h : later.column Node.identity = forest.column Node.identity) (id : NodeId) :
    mergedChildren lineage later id = mergedChildren lineage forest id ∧
      ancestorWalk lineage later id = ancestorWalk lineage forest id := by
  have hidentity (other : NodeId) := view_node_eq_of_column_eq h other
  simp only [Node.identity, Prod.mk.injEq] at hidentity
  have hkey (other : NodeId) : memberKey (later.node other) = memberKey (forest.node other) := by
    obtain ⟨hid, hname, htype, _⟩ := hidentity other
    rw [memberKey, memberKey, hid, hname, htype]
  obtain ⟨hid, _, _, hinherits⟩ := hidentity id
  have hwalk : ancestorWalk lineage later id = ancestorWalk lineage forest id := by
    rw [ancestorWalk, ancestorWalk, hid, hinherits]
  refine ⟨?_, hwalk⟩
  simp only [mergedChildren, hkey, hwalk]

/-- Nodes with the same identity receive members or not. -/
theorem receives_iff (h : later.column Node.identity = forest.column Node.identity) (id : NodeId) :
    (later.node id).Receives ↔ (forest.node id).Receives := by
  have hidentity := view_node_eq_of_column_eq h id
  simp only [Node.identity, Prod.mk.injEq] at hidentity
  obtain ⟨_, _, htype, hinherits⟩ := hidentity
  rw [Node.Receives, Node.Receives, Node.isClass, Node.isClass, htype, hinherits]

/-- After any run of merges every class that it concerns lists what merging into it alone gives. -/
theorem listing_foldl_mergeInto (h : later.column Node.identity = forest.column Node.identity)
    (order : List NodeId) (id : NodeId) :
    ((order.foldl (mergeInto lineage) later).node id).listing =
      if id ∈ order ∧ (forest.node id).Receives then
        (mergedChildren lineage forest id, (ancestorWalk lineage forest id).hierarchy)
      else (later.node id).listing := by
  induction order generalizing later with
  | nil => rfl
  | cons first order ih =>
    have hkept : (mergeInto lineage later first).column Node.identity =
        forest.column Node.identity :=
      (column_mergeInto (fun _ _ _ => rfl) lineage later first).trans h
    rw [List.foldl_cons, ih hkept, node_mergeInto]
    by_cases hreceives : (forest.node id).Receives
    · by_cases hfirst : id = first
      · obtain ⟨hchildren, hwalk⟩ := listing_merged_congr lineage h id
        rw [if_pos (c := id = first ∧ _) ⟨hfirst, (receives_iff h id).mpr hreceives⟩, Node.listing,
          hchildren, hwalk, ite_self, if_pos ⟨List.mem_cons.mpr (.inl hfirst), hreceives⟩]
      · simp [hfirst, hreceives]
    · simp [hreceives, receives_iff h]

/-- Merging equals its specification, for any state at its start and whatever order the classes are
merged in. A class that receives members records the tree of its ancestors. It then lists what it
owned before and, for every other key, the first member that an ancestor owned with this key, tagged
with the ancestor. The ancestors come depth first, and the members are sorted by their keys, which
leaves one list. The children of other nodes stay as they are. -/
theorem inherited_members_merged (forest : Forest) (order : List NodeId) (id : NodeId) :
    let before := forest.node id
    let merged := (order.foldl (mergeInto forest.lineage) forest).node id
    let key (edge : Edge) : String := memberKey (forest.node edge.child)
    (id ∈ order ∧ before.Receives →
      forest.lineage.IsTree before.id id merged.hierarchy ∧
      ∀ children, IsMerge key before.ownedEdges
        ((Ancestor.listPreorder merged.hierarchy).flatMap forest.lineage.offers) children ↔
          children = merged.children) ∧
    (¬ (id ∈ order ∧ before.Receives) → merged.children = before.children) := by
  intro before merged key
  have hlisting : merged.listing = _ := listing_foldl_mergeInto rfl order id
  constructor
  · intro hreceives
    rw [if_pos hreceives] at hlisting
    obtain ⟨hchildren, hhierarchy⟩ := Prod.mk.inj hlisting
    have hwalks : Walks forest.lineage before.id [before.id] before.inherits.eraseDups
        (ancestorWalk forest.lineage forest id) := walks_walk ..
    rw [hchildren, hhierarchy, ← hwalks.members_eq]
    have hmerge := isMerge_sortByIds key before.ownedEdges
      (ancestorWalk forest.lineage forest id).members
    exact ⟨hwalks.isTree, fun _ => ⟨fun h => h.unique hmerge, fun h => h ▸ hmerge⟩⟩
  · intro hskipped
    rw [if_neg hskipped] at hlisting
    exact (Prod.mk.inj hlisting).1

/-- Two classes that inherit from each other. The first one has two members, and the second one has
a member of its own that shadows one of them. -/
def shadowedMember : Forest where
  nodes := #[
    { Node.ofRecord { id := "Base", kind := .class, inherits := ["Leaf"] } with
      children := [.owned 1, .owned 2] },
    .ofRecord { id := "Base#init", kind := .method },
    .ofRecord { id := "Base#render", kind := .method },
    { Node.ofRecord { id := "Leaf", kind := .class, inherits := ["Base"] } with
      children := [.owned 4] },
    .ofRecord { id := "Leaf#render", kind := .method }]
  keys := .empty
  top := [.owned 0, .owned 3]
  lookup := .ofList [("Base", 0), ("Base#init", 1), ("Base#render", 2), ("Leaf", 3),
    ("Leaf#render", 4)]
  diagnostics := []

/-- Even when the first class is merged first, the second one keeps its own member and inherits the
other one. -/
theorem inherited_members_merged_of_shadowedMember :
    let merged := ([0, 3].foldl (mergeInto shadowedMember.lineage) shadowedMember).node 3
    let withKey (name : String) (edge : Edge) : Bool :=
      decide (memberKey (shadowedMember.node edge.child) = name)
    merged.children.filter (withKey "#render") = [.owned 4] ∧
      merged.children.filter (withKey "#init") = [.inherited 1 "Base" none] := by
  intro merged withKey
  obtain ⟨htree, hunique⟩ := (inherited_members_merged shadowedMember [0, 3] 3).1 (by decide)
  have hmerge := (hunique merged.children).mpr rfl
  have hfollowed : shadowedMember.lineage.followed ["Leaf"] 3 = ["Base"] ∧
      shadowedMember.lineage.followed ["Leaf", "Base"] 0 = [] := by decide +kernel
  have hfound : shadowedMember.lineage.lookup.get? "Base" = some 0 := by decide +kernel
  obtain ⟨base, hbase, hbaseId⟩ := List.map_eq_singleton_iff.mp (htree.roots_eq.trans hfollowed.1)
  obtain ⟨node, hnode, hparents⟩ :=
    htree.parents_eq (.root (hbase ▸ List.mem_singleton_self base))
  rw [hbaseId, hfound] at hnode
  cases hnode
  rw [hbaseId] at hparents
  have hnone : base.parents = [] := List.map_eq_nil_iff.mp (hparents.trans hfollowed.2)
  have hids : Ancestor.listPreorder merged.hierarchy = ["Base"] := by
    obtain ⟨_, _⟩ := base
    subst hbaseId hnone
    rw [hbase]
    rfl
  constructor
  · exact (hmerge.own_kept "#render" (by decide +kernel)).trans (by decide +kernel)
  · refine (hmerge.first_offered "#init" (by decide +kernel)).trans ?_
    rw [hids]
    decide +kernel

end Forest

end SymbolTree
