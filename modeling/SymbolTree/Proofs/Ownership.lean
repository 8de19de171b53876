import SymbolTree.Resolution
import Mathlib.Data.List.Perm.Lattice
import Mathlib.Data.List.Pairwise
import Mathlib.Data.Nat.Init
import Mathlib.Logic.Relation

/-!
# Ownership

The owned edges of a tree form an `Ownership`: the nodes at the top and the children of every node.
It is a forest when every member is linked exactly once and a rank increases along the edges. The
members are then reached by exactly one path each, nothing else is reached, and no path returns to
its start. The owners along the path to a member are its line. The three ways in which later stages
move edges (reordering, detaching a child to the top, and lifting grandchildren) keep a forest with
the same members and the same rank.
-/

namespace SymbolTree

/-- Who owns whom. -/
@[ext] structure Ownership where
  /-- The number of nodes. -/
  size : Nat
  /-- The nodes at the top. -/
  top : List NodeId
  /-- The children that each node owns. -/
  owned : NodeId → List NodeId

/-- The ownership of a forest under construction. -/
def Forest.ownership (forest : Forest) : Ownership :=
  ⟨forest.nodes.size, forest.top.map (·.child), fun id => (forest.node id).ownedChildren⟩

/-- What a node of a forest owns. -/
theorem Forest.owned_ownership (forest : Forest) (id : NodeId) :
    forest.ownership.owned id = (forest.node id).ownedChildren := rfl

/-- The ownership of a resolved tree. -/
def ResolvedTree.ownership (tree : ResolvedTree) : Ownership :=
  ⟨tree.nodes.size, tree.top.map (·.child), fun id => (tree.node id).ownedChildren⟩

namespace Ownership

/-- One node owns another. -/
def Owns (ownership : Ownership) (parent child : NodeId) : Prop := child ∈ ownership.owned parent

/-- The children of all owners, one list after another. -/
def below (ownership : Ownership) : List NodeId :=
  (List.range ownership.size).flatMap ownership.owned

/-- Every node as often as it is linked, from the top or from an owner. -/
def links (ownership : Ownership) : List NodeId := ownership.top ++ ownership.below

/-- A path from the top to a node: the positions of the links to follow, the last one first. -/
inductive Path (ownership : Ownership) : List Nat → NodeId → Prop
  | top {position : Nat} {id : NodeId} :
      ownership.top[position]? = some id → Path ownership [position] id
  | child {path : List Nat} {position : Nat} {parent id : NodeId} :
      Path ownership path parent → (ownership.owned parent)[position]? = some id →
      Path ownership (position :: path) id

/-- A path descends from a node at the top. -/
theorem Path.exists_top {ownership : Ownership} {path : List Nat} {id : NodeId}
    (hpath : ownership.Path path id) :
    ∃ start ∈ ownership.top, Relation.ReflTransGen ownership.Owns start id := by
  induction hpath with
  | top hposition => exact ⟨_, List.mem_of_getElem? hposition, .refl⟩
  | child _ hposition ih =>
    obtain ⟨start, hstart, hchain⟩ := ih
    exact ⟨start, hstart, hchain.tail (List.mem_of_getElem? hposition)⟩

/-- Some path leads to the node. -/
def Reachable (ownership : Ownership) (id : NodeId) : Prop := ∃ path, ownership.Path path id

/-- The owners of a node up to the top, the nearest one first. -/
inductive Line (ownership : Ownership) : List NodeId → NodeId → Prop
  | top {id : NodeId} : id ∈ ownership.top → Line ownership [] id
  | child {above : List NodeId} {parent id : NodeId} :
      Line ownership above parent → ownership.Owns parent id → Line ownership (parent :: above) id

/-- Some path leads to the nodes that have a line of owners. -/
theorem reachable_iff_exists_line {ownership : Ownership} {id : NodeId} :
    ownership.Reachable id ↔ ∃ above, ownership.Line above id := by
  constructor
  · rintro ⟨path, hpath⟩
    induction hpath with
    | top hposition => exact ⟨[], .top (List.mem_of_getElem? hposition)⟩
    | child _ hposition ih =>
      obtain ⟨above, hline⟩ := ih
      exact ⟨_, .child hline (List.mem_of_getElem? hposition)⟩
  · rintro ⟨above, hline⟩
    induction hline with
    | top htop =>
      obtain ⟨position, hposition⟩ := List.mem_iff_getElem?.mp htop
      exact ⟨[position], .top hposition⟩
    | child _ howns ih =>
      obtain ⟨path, hpath⟩ := ih
      obtain ⟨position, hposition⟩ := List.mem_iff_getElem?.mp howns
      exact ⟨position :: path, .child hpath hposition⟩

/-- Every member is linked exactly once, only members own nodes, and a rank increases downwards. -/
structure IsForest (ownership : Ownership) (members : List NodeId) (rank : NodeId → Nat) :
    Prop where
  /-- No member is listed twice. -/
  nodup : members.Nodup
  /-- The links lead to the members, once each. -/
  links_perm : ownership.links.Perm members
  /-- Owners are members. -/
  owner_mem : ∀ {parent child}, ownership.Owns parent child → parent ∈ members
  /-- Children rank above their owners. -/
  rank_lt : ∀ {parent child}, ownership.Owns parent child → rank parent < rank child
  /-- Members are nodes. -/
  lt_size : ∀ {id}, id ∈ members → id < ownership.size

namespace IsForest

variable {ownership : Ownership} {members : List NodeId} {rank : NodeId → Nat}

/-- No node is linked twice. -/
theorem nodup_links (h : ownership.IsForest members rank) : ownership.links.Nodup :=
  h.links_perm.nodup_iff.mpr h.nodup

/-- The members are the linked nodes. -/
theorem mem_links_iff (h : ownership.IsForest members rank) {id : NodeId} :
    id ∈ ownership.links ↔ id ∈ members :=
  h.links_perm.mem_iff

/-- An owned child is linked below the top. -/
theorem mem_below (h : ownership.IsForest members rank) {parent child : NodeId}
    (howns : ownership.Owns parent child) : child ∈ ownership.below :=
  List.mem_flatMap.mpr ⟨parent, List.mem_range.mpr (h.lt_size (h.owner_mem howns)), howns⟩

/-- An owned child is a member. -/
theorem child_mem (h : ownership.IsForest members rank) {parent child : NodeId}
    (howns : ownership.Owns parent child) : child ∈ members :=
  h.mem_links_iff.mp (List.mem_append_right _ (h.mem_below howns))

/-- A node at the top is a member. -/
theorem top_mem (h : ownership.IsForest members rank) {id : NodeId}
    (htop : id ∈ ownership.top) : id ∈ members :=
  h.mem_links_iff.mp (List.mem_append_left _ htop)

/-- The top lists no node twice. -/
theorem nodup_top (h : ownership.IsForest members rank) : ownership.top.Nodup :=
  (List.nodup_append.mp h.nodup_links).1

/-- An owner lists no child twice. -/
theorem nodup_owned (h : ownership.IsForest members rank) (id : NodeId) :
    (ownership.owned id).Nodup := by
  have hbelow : ownership.below.Nodup := (List.nodup_append.mp h.nodup_links).2.1
  rcases List.eq_nil_or_concat (ownership.owned id) with hnil | ⟨_, child, hconcat⟩
  · simp [hnil]
  · have howns : ownership.Owns id child := by simp [Owns, hconcat]
    exact (List.nodup_flatMap.mp hbelow).1 id (List.mem_range.mpr (h.lt_size (h.owner_mem howns)))

/-- A node at the top has no owner. -/
theorem not_owns_of_mem_top (h : ownership.IsForest members rank) {parent id : NodeId}
    (htop : id ∈ ownership.top) : ¬ ownership.Owns parent id := by
  intro howns
  exact (List.nodup_append.mp h.nodup_links).2.2 id htop id (h.mem_below howns) rfl

/-- A node has at most one owner. -/
theorem owner_unique (h : ownership.IsForest members rank) {a b child : NodeId}
    (ha : ownership.Owns a child) (hb : ownership.Owns b child) : a = b := by
  by_contra hne
  have hbelow : ownership.below.Nodup := (List.nodup_append.mp h.nodup_links).2.1
  have hpairwise := (List.nodup_flatMap.mp hbelow).2
  have : Std.Symm (Function.onFun List.Disjoint ownership.owned) :=
    ⟨fun _ _ hdisjoint => hdisjoint.symm⟩
  have hdisjoint := hpairwise.forall (List.mem_range.mpr (h.lt_size (h.owner_mem ha)))
    (List.mem_range.mpr (h.lt_size (h.owner_mem hb))) hne
  exact hdisjoint ha hb

/-- Two paths to one node are the same path. -/
theorem path_unique (h : ownership.IsForest members rank) {p q : List Nat} {id : NodeId}
    (hp : ownership.Path p id) (hq : ownership.Path q id) : p = q := by
  induction hp generalizing q with
  | top hi =>
    cases hq with
    | top hj =>
      have hlt := (List.getElem?_eq_some_iff.mp hi).1
      rw [(List.getElem?_inj hlt h.nodup_top).mp (hi.trans hj.symm)]
    | child _ hj =>
      exact absurd (List.mem_of_getElem? hj) (h.not_owns_of_mem_top (List.mem_of_getElem? hi))
  | child _ hi ih =>
    cases hq with
    | top hj =>
      exact absurd (List.mem_of_getElem? hi) (h.not_owns_of_mem_top (List.mem_of_getElem? hj))
    | child hrest hj =>
      obtain rfl := h.owner_unique (List.mem_of_getElem? hi) (List.mem_of_getElem? hj)
      have hlt := (List.getElem?_eq_some_iff.mp hi).1
      rw [ih hrest, (List.getElem?_inj hlt (h.nodup_owned _)).mp (hi.trans hj.symm)]

/-- Some path leads to every member. The induction follows the rank: the owner of a member ranks
below it. -/
theorem reachable_of_mem (h : ownership.IsForest members rank) {id : NodeId}
    (hid : id ∈ members) : ownership.Reachable id := by
  induction hrank : rank id using Nat.strongRecOn generalizing id with
  | _ r ih =>
    rcases List.mem_append.mp (h.mem_links_iff.mpr hid) with htop | hbelow
    · obtain ⟨position, hposition⟩ := List.mem_iff_getElem?.mp htop
      exact ⟨[position], .top hposition⟩
    · obtain ⟨parent, _, howns⟩ := List.mem_flatMap.mp hbelow
      obtain ⟨path, hpath⟩ := ih (rank parent) (hrank ▸ h.rank_lt howns) (h.owner_mem howns) rfl
      obtain ⟨position, hposition⟩ := List.mem_iff_getElem?.mp howns
      exact ⟨position :: path, .child hpath hposition⟩

/-- A path leads to a member. -/
theorem mem_of_path (h : ownership.IsForest members rank) {path : List Nat} {id : NodeId}
    (hpath : ownership.Path path id) : id ∈ members := by
  cases hpath with
  | top hposition => exact h.top_mem (List.mem_of_getElem? hposition)
  | child _ hposition => exact h.child_mem (List.mem_of_getElem? hposition)

/-- The members are exactly the nodes that can be reached. -/
theorem reachable_iff (h : ownership.IsForest members rank) {id : NodeId} :
    ownership.Reachable id ↔ id ∈ members :=
  ⟨fun ⟨_, hpath⟩ => h.mem_of_path hpath, h.reachable_of_mem⟩

/-- Exactly one path leads to every member. -/
theorem existsUnique_path (h : ownership.IsForest members rank) {id : NodeId}
    (hid : id ∈ members) : ∃! path, ownership.Path path id := by
  obtain ⟨path, hpath⟩ := h.reachable_of_mem hid
  exact ⟨path, hpath, fun _ hother => h.path_unique hother hpath⟩

/-- Two lines of owners of one node are the same line. -/
theorem line_unique (h : ownership.IsForest members rank) {above other : List NodeId} {id : NodeId}
    (hline : ownership.Line above id) (hother : ownership.Line other id) : above = other := by
  induction hline generalizing other with
  | top htop =>
    cases hother with
    | top _ => rfl
    | child _ howns => exact absurd howns (h.not_owns_of_mem_top htop)
  | child _ howns ih =>
    cases hother with
    | top htop => exact absurd howns (h.not_owns_of_mem_top htop)
    | child hrest hotherOwns =>
      obtain rfl := h.owner_unique howns hotherOwns
      rw [ih hrest]

/-- A node with a line is a member, and so are its owners. -/
theorem mem_of_line (h : ownership.IsForest members rank) {above : List NodeId} {id : NodeId}
    (hline : ownership.Line above id) : id ∈ members ∧ ∀ owner ∈ above, owner ∈ members := by
  induction hline with
  | top htop => exact ⟨h.top_mem htop, by simp⟩
  | child _ howns ih => exact ⟨h.child_mem howns, List.forall_mem_cons.mpr ih⟩

/-- What owners hand down along their lines is a function of the node: there is one line to each. -/
theorem exists_handedDown (h : ownership.IsForest members rank) {α : Type} (start : α)
    (step : NodeId → α → α) :
    ∃ value : NodeId → α, ∀ above id, ownership.Line above id →
      value id = above.foldr step start := by
  have hvalue (id : NodeId) :
      ∃ value, ∀ above, ownership.Line above id → value = above.foldr step start := by
    by_cases hline : ∃ above, ownership.Line above id
    · obtain ⟨above, habove⟩ := hline
      exact ⟨_, fun other hother => congrArg _ (h.line_unique habove hother)⟩
    · exact ⟨start, fun above habove => absurd ⟨above, habove⟩ hline⟩
  choose value hvalue using hvalue
  exact ⟨value, fun above id => hvalue id above⟩

/-- The rank increases along every chain of owned edges. -/
theorem rank_lt_of_transGen (h : ownership.IsForest members rank) {a b : NodeId}
    (hchain : Relation.TransGen ownership.Owns a b) : rank a < rank b := by
  induction hchain with
  | single howns => exact h.rank_lt howns
  | tail _ howns ih => exact Nat.lt_trans ih (h.rank_lt howns)

/-- No chain of owned edges returns to its start. -/
theorem acyclic (h : ownership.IsForest members rank) (id : NodeId) :
    ¬ Relation.TransGen ownership.Owns id id := by
  intro hcycle
  exact Nat.lt_irrefl _ (h.rank_lt_of_transGen hcycle)

end IsForest

end Ownership

end SymbolTree
