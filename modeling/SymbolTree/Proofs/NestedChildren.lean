import SymbolTree.Proofs.Evaluation
import SymbolTree.Proofs.Origins

/-!
# Where nesting puts every node

Nesting has a closed form in terms of keys alone. The children of a keyed node are the nodes whose
structural parent has its key; the top level has those below the root key and then all nodes whose
parent is not keyed; and all of them stand in canonical order of their keys. Attaching one node
after another in reverse order, each in front of its siblings, comes to the same children.
-/

namespace SymbolTree

/-- The key of the structural parent. -/
def parentKey? (key : String) : Option String := (QualifiedName.parse key).parent?.map (·.text)

namespace Forest

variable {forest : Forest} {root : NodeId}

/-- Edges to all keyed nodes whose keys meet a condition, in canonical order of the keys. -/
def LinksTo (forest : Forest) (condition : String → Prop) (edges : List Edge) : Prop :=
  ∃ entries : List (String × NodeId),
    entries.Pairwise (fun a b => compareIds a.1 b.1 = .lt) ∧
    (∀ key id, (key, id) ∈ entries ↔ forest.keys.get? key = some id ∧ condition key) ∧
    edges = entries.map fun entry => .owned entry.2

/-- The seats that meet a condition lead to all keyed nodes that do. -/
theorem linksTo_filter (forest : Forest) {keep : Seat → Bool} {condition : String → Prop}
    (hkeep : ∀ entry, keep (seatOf entry) = true ↔ condition entry.1) :
    forest.LinksTo condition ((forest.seats.filter keep).map fun seat => .owned seat.id) := by
  refine ⟨(forest.seats.filter keep).map fun seat => (seat.key, seat.id), ?_, fun key id => ?_, ?_⟩
  · exact List.pairwise_map.mpr (forest.pairwise_seats.filter keep)
  · simp only [List.mem_map, List.mem_filter, Prod.mk.injEq]
    constructor
    · rintro ⟨seat, ⟨hseat, hkept⟩, rfl, rfl⟩
      obtain ⟨key, id, hkey, rfl⟩ := mem_seats_iff.mp hseat
      exact ⟨hkey, (hkeep (key, id)).mp hkept⟩
    · rintro ⟨hkey, hcondition⟩
      exact ⟨seatOf (key, id), ⟨mem_seats_iff.mpr ⟨key, id, hkey, rfl⟩,
        (hkeep (key, id)).mpr hcondition⟩, rfl, rfl⟩
  · rw [List.map_map]
    rfl

/-- The nodes below a key are linked in canonical order. -/
theorem linksTo_childrenOf (forest : Forest) (key : String) :
    forest.LinksTo (fun child => parentKey? child = some key) (childrenOf forest.seats key) :=
  forest.linksTo_filter fun entry => by rw [beq_iff_eq]; rfl

/-- The root sits before all others. -/
theorem exists_seats_eq_cons (hroot : forest.keys.get? "" = some root) :
    ∃ rest, forest.seats = ⟨"", none, root⟩ :: rest ∧ ∀ seat ∈ rest, seat.key ≠ "" := by
  have hmem : seatOf ("", root) ∈ forest.seats := mem_seats_iff.mpr ⟨"", root, hroot, rfl⟩
  have hsorted := forest.pairwise_seats
  obtain ⟨before, rest, hsplit⟩ := List.append_of_mem hmem
  rw [hsplit] at hsorted
  obtain ⟨_, hrest, hbefore⟩ := List.pairwise_append.mp hsorted
  cases before with
  | nil =>
    refine ⟨rest, hsplit, fun seat hseat hempty => ?_⟩
    have hlt : compareIds "" seat.key = .lt := List.rel_of_pairwise_cons hrest hseat
    rw [hempty] at hlt
    cases hlt
  | cons first before =>
    have hlt : compareIds first.key "" = .lt :=
      hbefore first List.mem_cons_self (seatOf ("", root)) List.mem_cons_self
    by_cases hempty : first.key = ""
    · rw [hempty] at hlt
      cases hlt
    · rw [Std.OrientedCmp.gt_of_lt (compareIds_empty_lt hempty)] at hlt
      cases hlt

/-- Whether a node other than the root has a keyed parent decides whether it comes to the top. -/
theorem flatMap_topEdges {seats : List Seat} (hkeys : ∀ seat ∈ seats, seat.key ≠ "") :
    seats.flatMap forest.topEdges =
      (seats.filter fun seat => !seat.parent.any forest.keys.contains).map
        fun seat => .owned seat.id := by
  induction seats with
  | nil => rfl
  | cons seat seats ih =>
    have hfirst : seat.key ≠ "" := hkeys seat List.mem_cons_self
    rw [List.flatMap_cons, ih fun other hother => hkeys other (List.mem_cons_of_mem _ hother),
      topEdges]
    by_cases hnested : seat.parent.any forest.keys.contains = true
    · simp [hnested]
    · simp [hnested, hfirst]

namespace Nestable

/-- The top level has the children of the root, then the nodes whose parent is not keyed. -/
theorem top_nest_eq (h : forest.Nestable root) :
    forest.nest.top = childrenOf forest.seats "" ++
      (forest.seats.filter fun seat => seat.key ≠ "" ∧ !seat.parent.any forest.keys.contains).map
        fun seat => .owned seat.id := by
  obtain ⟨rest, hseats, hkeys⟩ := exists_seats_eq_cons h.root_key
  have hroot : forest.withEntries.topEdges ⟨"", none, root⟩ = childrenOf forest.seats "" := by
    rw [← h.children_of_key h.root_key]
    rfl
  have hfilter : (forest.seats.filter
      fun seat => seat.key ≠ "" ∧ !seat.parent.any forest.keys.contains) =
        rest.filter fun seat => !seat.parent.any forest.keys.contains := by
    rw [hseats, List.filter_cons_of_neg (by simp)]
    refine List.filter_congr fun seat hseat => ?_
    simp [hkeys seat hseat]
  rw [top_nest_edges, hfilter, ← forest.keys_withEntries, ← flatMap_topEdges hkeys, ← hroot]
  conv_lhs => rw [hseats, List.flatMap_cons]

/-- The top level links to the nodes below the root key and then to those whose parent is not keyed.
-/
theorem exists_top_nest (h : forest.Nestable root) :
    ∃ belowRoot loose, forest.nest.top = belowRoot ++ loose ∧
      forest.LinksTo (fun key => parentKey? key = some "") belowRoot ∧
      forest.LinksTo (fun key => key ≠ "" ∧
        ∀ parent, parentKey? key = some parent → forest.keys.get? parent = none) loose := by
  refine ⟨_, _, h.top_nest_eq, forest.linksTo_childrenOf "", forest.linksTo_filter fun entry => ?_⟩
  have hparent : (seatOf entry).parent = parentKey? entry.1 := rfl
  have hentry : (seatOf entry).key = entry.1 := rfl
  rw [decide_eq_true_eq, hparent, hentry]
  refine and_congr_right fun _ => ?_
  cases parentKey? entry.1 with
  | none => simp
  | some parent => simp [KeyMap.contains]

/-- A keyed node other than the root links to the nodes below its key. -/
theorem linksTo_children_nest (h : forest.Nestable root) {key : String} {id : NodeId}
    (hne : key ≠ "") (hkey : forest.keys.get? key = some id) :
    forest.LinksTo (fun child => parentKey? child = some key) (forest.nest.node id).children := by
  have hother : id ≠ root := by
    rintro rfl
    exact hne (KeyMap.get?_inj_of_nodup_values h.nodup_values hkey h.root_key)
  rw [h.children_nest, if_neg hother, h.children_of_key hkey]
  exact forest.linksTo_childrenOf key

end Nestable

/-- Attach a node in front of the other children of its structural parent, if that is keyed. -/
def attachSeat (forest : Forest) (seat : Seat) : Forest :=
  match seat.parent.bind forest.keys.get? with
  | some parent =>
    forest.modify parent fun node => { node with children := .owned seat.id :: node.children }
  | none => forest

/-- Attaching a node changes nothing but nodes. -/
theorem rest_attachSeat (forest : Forest) (seat : Seat) :
    (forest.attachSeat seat).rest = forest.rest := by
  unfold attachSeat
  split <;> rfl

/-- Attaching a node changes the children of its parent. -/
theorem node_attachSeat (forest : Forest) (seat : Seat) {id : NodeId}
    (hid : id < forest.nodes.size) :
    (forest.attachSeat seat).node id =
      { forest.node id with
        children := (if seat.parent.bind forest.keys.get? == some id then [.owned seat.id] else [])
          ++ (forest.node id).children } := by
  unfold attachSeat
  split
  · rename_i parent hparent
    rw [node_modify, hparent]
    by_cases hsame : id = parent
    · subst hsame
      simp [hid]
    · simp [hsame, Ne.symm hsame]
  · rename_i hparent
    rw [hparent]
    rfl

/-- Attaching nodes changes nothing but nodes. -/
theorem rest_foldr_attachSeat (forest : Forest) (seats : List Seat) :
    (seats.foldr (fun seat later => later.attachSeat seat) forest).rest = forest.rest := by
  rw [← List.foldl_reverse]
  exact foldl_keeps rest (fun later seat _ => rest_attachSeat later seat) forest

/-- Attaching nodes keeps their number. -/
theorem size_foldr_attachSeat (forest : Forest) (seats : List Seat) :
    (seats.foldr (fun seat later => later.attachSeat seat) forest).nodes.size =
      forest.nodes.size := by
  rw [← List.foldl_reverse]
  refine foldl_keeps (·.nodes.size) (fun later seat _ => ?_) forest
  unfold attachSeat
  split
  · exact size_modify later _ _
  · rfl

/-- After nodes are attached from the last to the first, a node has them before its other children,
in their order. -/
theorem node_foldr_attachSeat (forest : Forest) (seats : List Seat) {id : NodeId}
    (hid : id < forest.nodes.size) :
    (seats.foldr (fun seat later => later.attachSeat seat) forest).node id =
      { forest.node id with
        children :=
          ((seats.filter fun seat => seat.parent.bind forest.keys.get? == some id).map
            fun seat => .owned seat.id) ++ (forest.node id).children } := by
  induction seats with
  | nil => rfl
  | cons seat seats ih =>
    let later := seats.foldr (fun seat later => later.attachSeat seat) forest
    have hkeys : later.keys = forest.keys :=
      keys_eq_of_rest_eq (forest.rest_foldr_attachSeat seats)
    have hsize : id < later.nodes.size := by
      rw [forest.size_foldr_attachSeat]
      exact hid
    rw [List.foldr_cons, node_attachSeat later seat hsize, ih, hkeys, List.filter_cons]
    split <;> simp [*]

namespace Nestable

/-- The nodes that are attached to a keyed node are those below its key. -/
theorem filter_parent_eq (h : forest.Nestable root) {key : String} {id : NodeId}
    (hkey : forest.keys.get? key = some id) :
    (forest.seats.filter fun seat => seat.parent.bind forest.keys.get? == some id) =
      forest.seats.filter fun seat => seat.parent == some key := by
  refine List.filter_congr fun seat _ => ?_
  cases hparent : seat.parent with
  | none => rfl
  | some parent =>
    rw [Option.bind_some, Bool.eq_iff_iff, beq_iff_eq, beq_iff_eq, Option.some.injEq]
    constructor
    · intro hheld
      exact KeyMap.get?_inj_of_nodup_values h.nodup_values hheld hkey
    · rintro rfl
      exact hkey

/-- No node is attached to one that is not keyed. -/
theorem filter_parent_eq_nil {id : NodeId} (hid : id ∉ forest.keys.values) :
    (forest.seats.filter fun seat => seat.parent.bind forest.keys.get? == some id) = [] := by
  refine List.filter_eq_nil_iff.mpr fun seat _ hattached => hid ?_
  obtain ⟨parent, _, hheld⟩ := Option.bind_eq_some_iff.mp (beq_iff_eq.mp hattached)
  exact KeyMap.mem_values_iff.mpr ⟨parent, hheld⟩

/-- Attaching the nodes one by one, in reverse order, gives all nodes their children. -/
theorem foldl_attachSeat (h : forest.Nestable root) :
    forest.seats.reverse.foldl attachSeat forest = forest.withChildren := by
  have hattachedSize := forest.size_foldr_attachSeat forest.seats
  rw [List.foldl_reverse]
  refine eq_of_rest_eq ((forest.rest_foldr_attachSeat forest.seats).trans
    forest.rest_withChildren.symm) (hattachedSize.trans forest.size_withChildren.symm) fun id => ?_
  by_cases hid : id < forest.nodes.size
  · rw [node_foldr_attachSeat forest forest.seats hid, h.children_eq, List.append_nil]
    by_cases hkeyed : id ∈ forest.keys.values
    · obtain ⟨key, hkey⟩ := KeyMap.mem_values_iff.mp hkeyed
      rw [h.filter_parent_eq hkey, h.node_withChildren hkey]
      rfl
    · rw [filter_parent_eq_nil hkeyed, node_withChildren_of_not_keyed hkeyed, List.map_nil,
        ← h.children_eq id]
  · have hout := Nat.le_of_not_lt hid
    rw [node_eq_default (hattachedSize.trans_le hout),
      node_eq_default (forest.size_withChildren.trans_le hout)]

end Nestable

end Forest

namespace Collection

/-- For every collection with a root key whose sections are guessed, nesting gives every keyed node
but the root the nodes whose structural parent has its key, in canonical order of their keys. The
top level has the nodes below the root key and then those whose parent is not keyed or that have
none, each in this order, and the root keeps no children. Attaching the nodes from the last to the
first, each in front of its siblings, gives the same children. -/
theorem nested_children_exact (collection : Collection)
    (hroot : collection.records.contains "" = true) :
    let forest := (Forest.ofCollection collection).assignSections
    let nested := forest.nest
    (∀ key id, key ≠ "" → forest.keys.get? key = some id →
      forest.LinksTo (fun child => parentKey? child = some key) (nested.node id).children) ∧
    (∃ belowRoot loose, nested.top = belowRoot ++ loose ∧
      forest.LinksTo (fun key => parentKey? key = some "") belowRoot ∧
      forest.LinksTo (fun key => key ≠ "" ∧
        ∀ parent, parentKey? key = some parent → forest.keys.get? parent = none) loose) ∧
    (∃ root, forest.keys.get? "" = some root ∧ (nested.node root).children = []) ∧
    forest.seats.reverse.foldl Forest.attachSeat forest =
      forest.seats.foldl (Forest.seatChildren forest.seats) forest := by
  intro forest nested
  obtain ⟨record, hrecord⟩ := Option.isSome_iff_exists.mp hroot
  obtain ⟨root, hkey, _⟩ := Forest.exists_position hrecord
  have h : forest.Nestable root := Forest.nestable_assignSections hkey
  refine ⟨fun key id hne hid => h.linksTo_children_nest hne hid, h.exists_top_nest,
    ⟨root, h.root_key, ?_⟩, h.foldl_attachSeat⟩
  rw [h.children_nest, if_pos rfl]

/-- A class with two methods, the later one first, and a member of an owner that has no record. -/
def classWithMembers : List Record :=
  [{ id := "Element#show", kind := .method }, { id := "Element#hide", kind := .method },
    { id := "Element", kind := .class }, { id := "Loose.thing", kind := .property }]

/-- The class has its methods in order, and the member without an owner comes to the top level after
the class. -/
theorem nested_children_exact_of_classWithMembers :
    let collection := empty.insertAll classWithMembers
    let forest := (Forest.ofCollection collection).assignSections
    let nested := forest.nest
    collection.records.contains "" = true ∧ forest.keys.get? ".Element" = some 1 ∧
      forest.LinksTo (fun child => parentKey? child = some ".Element") (nested.node 1).children ∧
      (nested.node 1).children = [.owned 2, .owned 3] ∧
      (∃ belowRoot loose, nested.top = belowRoot ++ loose ∧
        forest.LinksTo (fun key => parentKey? key = some "") belowRoot ∧
        forest.LinksTo (fun key => key ≠ "" ∧
          ∀ parent, parentKey? key = some parent → forest.keys.get? parent = none) loose) ∧
      nested.top = [.owned 1, .owned 4] := by
  intro collection forest nested
  have hroot : collection.records.contains "" = true := by decide +kernel
  obtain ⟨hclass, hmembers, htop⟩ :
      forest.keys.get? ".Element" = some 1 ∧ (nested.node 1).children = [.owned 2, .owned 3] ∧
      nested.top = [.owned 1, .owned 4] := by
    simp only [nested, forest, Forest.nest_eval, Forest.assignSections_eval]
    decide +kernel
  obtain ⟨hchildren, htopLevel, _⟩ := nested_children_exact collection hroot
  exact ⟨hroot, hclass, hchildren ".Element" 1 (by decide) hclass, hmembers, htopLevel, htop⟩

end Collection

end SymbolTree
