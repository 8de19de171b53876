import SymbolTree.Proofs.CanonicalOrder
import SymbolTree.Proofs.Names
import SymbolTree.Proofs.Ownership.Moves
import SymbolTree.Proofs.Sections

/-!
# Nesting yields a forest

Nesting starts from nodes without children that hold distinct keys, the root section among them. It
gives every keyed node the nodes whose structural parent has its key, hands the children of the root
to the top, and adds the nodes without a parent there. The result is a forest whose members are the
keyed nodes other than the root. Keys grow from parent to child, so their lengths rank the nodes.
-/

namespace SymbolTree.Forest

open scoped List

variable {forest : Forest} {root : NodeId}

/-- The keyed nodes are distinct nodes, without children, and one of them is the root. -/
structure Nestable (forest : Forest) (root : NodeId) : Prop where
  /-- No node has two keys. -/
  nodup_values : forest.keys.values.Nodup
  /-- Keys are held by nodes. -/
  lt_size : ∀ {id}, id ∈ forest.keys.values → id < forest.nodes.size
  /-- No node has children yet. -/
  children_eq : ∀ id, (forest.node id).children = []
  /-- The root has the empty key. -/
  root_key : forest.keys.get? "" = some root

/-- The keyed nodes other than the root. -/
def seated (forest : Forest) : List NodeId := (forest.keys.erase "").values

/-- The length of a node's key. -/
def keyLength (forest : Forest) (id : NodeId) : Nat :=
  ((forest.keys.entries.find? (·.2 == id)).map (·.1.length)).getD 0

/-- The nodes whose structural parent has a key. -/
def childIds (forest : Forest) (key : String) : List NodeId :=
  (forest.seats.filter fun seat => seat.parent == some key).map (·.id)

/-- The forest after every keyed node has its children. -/
def withChildren (forest : Forest) : Forest := forest.seats.foldl (seatChildren forest.seats) forest

/-- The forest after every keyed node has its name. -/
def withNames (forest : Forest) : Forest := forest.seats.foldl nameSeat forest.withChildren

/-- The forest after every keyed node is entered. -/
def withEntries (forest : Forest) : Forest := forest.seats.foldl enterSeat forest.withNames

/-- The forest after its top is set. -/
def withTop (forest : Forest) : Forest :=
  { forest.withEntries with top := forest.seats.flatMap forest.withEntries.topEdges }.clearRoot

/-- Nesting ends with naming the bound twins and forgetting the keys. -/
theorem nest_eq (forest : Forest) :
    forest.nest = { forest.seats.foldl nameTwin forest.withTop with keys := .empty } := rfl

/-- There is one seat for each entry. -/
theorem seats_perm (forest : Forest) : forest.seats ~ forest.keys.entries.map seatOf :=
  (List.mergeSort_perm _ _).map seatOf

/-- The seats are those of the keyed nodes. -/
theorem mem_seats_iff {seat : Seat} :
    seat ∈ forest.seats ↔ ∃ key id, forest.keys.get? key = some id ∧ seatOf (key, id) = seat := by
  rw [forest.seats_perm.mem_iff, List.mem_map]
  simp only [Prod.exists, KeyMap.mem_entries_iff]

/-- A seat is determined by its key and node. -/
theorem get?_keys_of_mem_seats {seat : Seat} (hseat : seat ∈ forest.seats) :
    forest.keys.get? seat.key = some seat.id := by
  obtain ⟨key, id, hkey, rfl⟩ := mem_seats_iff.mp hseat
  exact hkey

/-- The nodes in the seats are the keyed nodes. -/
theorem seats_map_id_perm (forest : Forest) : forest.seats.map (·.id) ~ forest.keys.values := by
  have hperm := forest.seats_perm.map Seat.id
  rwa [List.map_map] at hperm

/-- Seats stand in strict canonical order of their keys. -/
theorem pairwise_seats (forest : Forest) :
    forest.seats.Pairwise fun a b => compareIds a.key b.key = .lt := by
  refine List.pairwise_map.mpr (pairwise_lt_of_nodup Prod.fst (pairwise_sortByIds _ _) ?_)
  have hperm : (sortByIds Prod.fst forest.keys.entries).Perm forest.keys.entries :=
    List.mergeSort_perm _ _
  exact (hperm.map Prod.fst).nodup_iff.mpr forest.keys.nodup_keys

/-- The root's seat comes with those of the other keyed nodes. -/
theorem seats_perm_root (hroot : forest.keys.get? "" = some root) :
    forest.seats ~ ⟨"", none, root⟩ :: (forest.keys.erase "").entries.map seatOf :=
  forest.seats_perm.trans ((KeyMap.entries_perm_of_get? hroot).map seatOf)

/-- Grouping items by a key that each of some keys may match finds the items that match one. -/
private theorem flatMap_filter_perm {β : Type} (keyOf : β → Option String) (items : List β)
    {keys : List String} (hnodup : keys.Nodup) :
    (keys.flatMap fun key => items.filter fun item => keyOf item == some key) ~
      items.filter fun item => (keyOf item).any (· ∈ keys) := by
  induction keys with
  | nil => simp
  | cons key keys ih =>
    obtain ⟨hfresh, hrest⟩ := List.nodup_cons.mp hnodup
    let matched := items.filter fun item => (keyOf item).any (· ∈ key :: keys)
    have hhere : (matched.filter fun item => keyOf item == some key) =
        items.filter fun item => keyOf item == some key := by
      rw [List.filter_filter]
      refine List.filter_congr fun item _ => ?_
      cases keyOf item <;> simp +contextual
    have hthere : (matched.filter fun item => !(keyOf item == some key)) =
        items.filter fun item => (keyOf item).any (· ∈ keys) := by
      rw [List.filter_filter]
      refine List.filter_congr fun item _ => ?_
      cases hkey : keyOf item with
      | none => rfl
      | some other =>
        by_cases heq : other = key
        · simp [heq, hfresh]
        · simp [heq]
    rw [List.flatMap_cons]
    refine ((ih hrest).append_left _).trans ?_
    rw [← hhere, ← hthere]
    exact List.filter_append_perm _ _

/-- Counting the children of all keys finds every seat whose parent is keyed. -/
private theorem flatMap_childIds_perm (forest : Forest) :
    forest.keys.keys.flatMap forest.childIds ~
      (forest.seats.filter fun seat => seat.parent.any forest.keys.contains).map (·.id) := by
  have hgrouped := (flatMap_filter_perm Seat.parent forest.seats forest.keys.nodup_keys).map Seat.id
  rw [List.map_flatMap] at hgrouped
  refine hgrouped.trans (List.Perm.of_eq (congrArg _ (List.filter_congr fun seat _ => ?_)))
  cases seat.parent with
  | none => rfl
  | some parent => exact Bool.eq_iff_iff.mpr (by simp [KeyMap.contains_iff_mem_keys])

/-- Entering an id leaves the keys alone. -/
theorem keys_enter (forest : Forest) (id : String) (incoming : NodeId) :
    (forest.enter id incoming).keys = forest.keys := by
  cases hheld : forest.lookup.get? id with
  | none => rw [enter_of_free hheld]
  | some holder => rw [enter_of_held hheld]

/-- Entering a keyed node leaves the keys alone. -/
theorem keys_enterSeat (forest : Forest) (seat : Seat) :
    (forest.enterSeat seat).keys = forest.keys := by
  unfold enterSeat
  simp only
  split
  · rfl
  · exact keys_enter forest _ _

/-- Naming a twin changes nothing but nodes. -/
theorem rest_nameTwin (forest : Forest) (seat : Seat) :
    (forest.nameTwin seat).rest = forest.rest := by
  unfold nameTwin
  split <;> rfl

/-- Giving the keyed nodes their children changes nothing but nodes. -/
theorem rest_withChildren (forest : Forest) : forest.withChildren.rest = forest.rest :=
  foldl_keeps rest
    (fun later seat _ => show (seatChildren forest.seats later seat).rest = later.rest from rfl)
    forest

/-- Giving the keyed nodes their children keeps the number of nodes. -/
theorem size_withChildren (forest : Forest) :
    forest.withChildren.nodes.size = forest.nodes.size :=
  foldl_keeps (·.nodes.size) (fun later seat _ => size_modify later seat.id _) forest

/-- A node without a key gets no children. -/
theorem node_withChildren_of_not_keyed {id : NodeId} (hid : id ∉ forest.keys.values) :
    forest.withChildren.node id = forest.node id := by
  have hseat : id ∉ forest.seats.map (·.id) := fun hmem =>
    hid (forest.seats_map_id_perm.mem_iff.mp hmem)
  exact node_foldl_modify_of_notMem Seat.id
    (fun seat (node : Node) => { node with children := childrenOf forest.seats seat.key })
    hseat forest

/-- Naming the keyed nodes changes nothing but nodes. -/
theorem rest_withNames (forest : Forest) : forest.withNames.rest = forest.rest := by
  have hnamed : forest.withNames.rest = forest.withChildren.rest :=
    foldl_keeps rest (fun later seat _ => show (nameSeat later seat).rest = later.rest from rfl)
      forest.withChildren
  rw [hnamed, rest_withChildren]

/-- The keys are known until nesting is complete. -/
theorem keys_withEntries (forest : Forest) : forest.withEntries.keys = forest.keys := by
  have hentered : forest.withEntries.keys = forest.withNames.keys :=
    foldl_keeps keys (fun forest seat _ => keys_enterSeat forest seat) forest.withNames
  rw [hentered, keys_eq_of_rest_eq forest.rest_withNames]

/-- Naming and entering keep the children. -/
theorem column_children_withEntries (forest : Forest) :
    forest.withEntries.column Node.children = forest.withChildren.column Node.children := by
  have hentered : forest.withEntries.column Node.children =
      forest.withNames.column Node.children :=
    foldl_keeps (column Node.children)
      (fun forest seat _ => column_eq_of_nodes_eq (nodes_enterSeat forest seat)) forest.withNames
  have hnamed : forest.withNames.column Node.children =
      forest.withChildren.column Node.children :=
    foldl_keeps (column Node.children)
      (fun forest seat _ =>
        column_modify (view_nameNode (fun _ _ _ _ _ => rfl) seat.key) forest seat.id)
      forest.withChildren
  rw [hentered, hnamed]

/-- The top is made up from the seats, in their order. -/
theorem top_nest_edges (forest : Forest) :
    forest.nest.top = forest.seats.flatMap forest.withEntries.topEdges := by
  have hrest : (forest.seats.foldl nameTwin forest.withTop).rest = forest.withTop.rest :=
    foldl_keeps rest (fun forest seat _ => rest_nameTwin forest seat) forest.withTop
  rw [nest_eq]
  simp only [top_eq_of_rest_eq hrest]
  rw [withTop, clearRoot]
  split <;> rfl

namespace Nestable

/-- The seats hold distinct nodes. -/
theorem nodup_seats (h : forest.Nestable root) : (forest.seats.map (·.id)).Nodup :=
  forest.seats_map_id_perm.nodup_iff.mpr h.nodup_values

/-- The node of a key exists. -/
theorem lt_size_of_key (h : forest.Nestable root) {key : String} {id : NodeId}
    (hkey : forest.keys.get? key = some id) : id < forest.nodes.size :=
  h.lt_size (KeyMap.mem_values_iff.mpr ⟨key, hkey⟩)

/-- A keyed node gets the children of its key, and is else as it was. -/
theorem node_withChildren (h : forest.Nestable root) {key : String} {id : NodeId}
    (hkey : forest.keys.get? key = some id) :
    forest.withChildren.node id =
      { forest.node id with children := childrenOf forest.seats key } :=
  node_foldl_modify Seat.id
    (fun seat (node : Node) => { node with children := childrenOf forest.seats seat.key })
    h.nodup_seats forest (mem_seats_iff.mpr ⟨key, id, hkey, rfl⟩) (h.lt_size_of_key hkey)

/-- A keyed node has the children of its key. -/
theorem children_of_key (h : forest.Nestable root) {key : String} {id : NodeId}
    (hkey : forest.keys.get? key = some id) :
    (forest.withEntries.node id).children = childrenOf forest.seats key := by
  rw [view_node_eq_of_column_eq forest.column_children_withEntries id, h.node_withChildren hkey]

/-- A node without a key has no children. -/
theorem children_of_not_keyed (h : forest.Nestable root) {id : NodeId}
    (hid : id ∉ forest.keys.values) : (forest.withEntries.node id).children = [] := by
  rw [view_node_eq_of_column_eq forest.column_children_withEntries id,
    node_withChildren_of_not_keyed hid, h.children_eq]

/-- The root gives its children away, and no other node does. -/
theorem children_withTop (h : forest.Nestable root) (id : NodeId) :
    (forest.withTop.node id).children =
      if id = root then [] else (forest.withEntries.node id).children := by
  have hroot : forest.withEntries.keys.get? "" = some root := by
    rw [keys_withEntries, h.root_key]
  have hsize : root < forest.withEntries.nodes.size := by
    rw [size_eq_of_column_eq forest.column_children_withEntries, size_withChildren]
    exact h.lt_size_of_key h.root_key
  unfold withTop clearRoot
  simp only [hroot]
  by_cases hid : id = root
  · rw [if_pos hid, node_modify, if_pos ⟨hid, hsize⟩]
  · rw [if_neg hid, node_modify_of_ne hid]
    rfl

/-- Naming the twins keeps the children. -/
theorem children_nest (h : forest.Nestable root) (id : NodeId) :
    (forest.nest.node id).children =
      if id = root then [] else (forest.withEntries.node id).children := by
  rw [← h.children_withTop]
  have hcolumn : forest.nest.column Node.children = forest.withTop.column Node.children :=
    foldl_keeps (column Node.children)
      (fun forest seat _ => column_nameTwin (fun _ _ => rfl) forest seat) forest.withTop
  exact view_node_eq_of_column_eq hcolumn id

/-- Every child is owned before the root gives its children away. -/
theorem isOwned_withEntries (h : forest.Nestable root) {id : NodeId} {edge : Edge}
    (hedge : edge ∈ (forest.withEntries.node id).children) : edge.isOwned = true := by
  by_cases hid : id ∈ forest.keys.values
  · obtain ⟨key, hkey⟩ := KeyMap.mem_values_iff.mp hid
    rw [h.children_of_key hkey] at hedge
    obtain ⟨_, _, rfl⟩ := List.mem_map.mp hedge
    rfl
  · rw [h.children_of_not_keyed hid] at hedge
    cases hedge

/-- Nesting leads to owned children only. -/
theorem isOwned_nest (h : forest.Nestable root) {id : NodeId} {edge : Edge}
    (hedge : edge ∈ (forest.nest.node id).children) : edge.isOwned = true := by
  rw [h.children_nest] at hedge
  split at hedge
  · cases hedge
  · exact h.isOwned_withEntries hedge

/-- Nesting leads to an owned top. -/
theorem isOwned_top_nest (h : forest.Nestable root) {edge : Edge}
    (hedge : edge ∈ forest.nest.top) : edge.isOwned = true := by
  rw [top_nest_edges] at hedge
  obtain ⟨seat, _, hedge⟩ := List.mem_flatMap.mp hedge
  unfold topEdges at hedge
  split at hedge
  · cases hedge
  · split at hedge
    · exact h.isOwned_withEntries hedge
    · rw [List.mem_singleton.mp hedge]
      rfl

/-- A keyed node other than the root owns the children of its key. -/
theorem owned_of_key (h : forest.Nestable root) {key : String} {id : NodeId} (hne : key ≠ "")
    (hkey : forest.keys.get? key = some id) :
    forest.nest.ownership.owned id = forest.childIds key := by
  have hroot : id ≠ root := by
    rintro rfl
    exact hne (KeyMap.get?_inj_of_nodup_values h.nodup_values hkey h.root_key)
  have hchildren : (forest.nest.node id).children = childrenOf forest.seats key := by
    rw [h.children_nest, if_neg hroot, h.children_of_key hkey]
  simp [ownership, Node.ownedChildren, Node.ownedEdges, hchildren, childrenOf, childIds,
    List.filter_map, Function.comp_def, Edge.isOwned, Edge.child]

/-- The root and the nodes without a key own nothing. -/
theorem owned_eq_nil (h : forest.Nestable root) {id : NodeId} (hid : id ∉ forest.seated) :
    forest.nest.ownership.owned id = [] := by
  have hchildren : (forest.nest.node id).children = [] := by
    rw [h.children_nest]
    by_cases hroot : id = root
    · rw [if_pos hroot]
    · rw [if_neg hroot]
      refine h.children_of_not_keyed fun hmem => hid ?_
      have hperm := KeyMap.values_perm_of_get? h.root_key
      exact (List.mem_cons.mp (hperm.mem_iff.mp hmem)).resolve_left hroot
  simp [ownership, Node.ownedChildren, Node.ownedEdges, hchildren]

/-- The top holds the children of the root and the nodes without a parent. -/
theorem top_nest (h : forest.Nestable root) :
    forest.nest.ownership.top = forest.seats.flatMap fun seat =>
      if seat.parent.any forest.keys.contains then []
      else if seat.key = "" then forest.childIds "" else [seat.id] := by
  have hroot : (forest.withEntries.node root).children = childrenOf forest.seats "" :=
    h.children_of_key h.root_key
  simp only [ownership, top_nest_edges, List.map_flatMap]
  refine List.flatMap_congr fun seat hseat => ?_
  rw [topEdges, keys_withEntries]
  split
  · rfl
  · split
    · rename_i hkey
      have hid : seat.id = root := by
        have hseated := get?_keys_of_mem_seats hseat
        rw [hkey, h.root_key] at hseated
        exact (Option.some.inj hseated).symm
      rw [hid, hroot]
      simp [childrenOf, childIds, Edge.child]
    · rfl

/-- The keyed nodes are the root and the seated ones. -/
theorem values_perm (h : forest.Nestable root) : forest.keys.values ~ root :: forest.seated :=
  KeyMap.values_perm_of_get? h.root_key

/-- The seated nodes are distinct. -/
theorem nodup_seated (h : forest.Nestable root) : forest.seated.Nodup :=
  (List.nodup_cons.mp (h.values_perm.nodup h.nodup_values)).2

/-- The seated nodes exist. -/
theorem lt_size_of_seated (h : forest.Nestable root) {id : NodeId} (hid : id ∈ forest.seated) :
    id < forest.nest.ownership.size := by
  have hlocations : forest.nest.column Node.location = forest.column Node.location :=
    column_nest (fun _ _ => rfl) (fun _ _ _ _ _ => rfl) (fun _ _ => rfl) forest
  have hsize : forest.nest.nodes.size = forest.nodes.size := size_eq_of_column_eq hlocations
  rw [ownership, hsize]
  exact h.lt_size (h.values_perm.mem_iff.mpr (List.mem_cons_of_mem _ hid))

/-- The top holds the children of the root and the seated nodes whose parent has no key. -/
theorem top_perm (h : forest.Nestable root) :
    forest.nest.ownership.top ~ forest.childIds "" ++
      (((forest.keys.erase "").entries.map seatOf).filter
        fun seat => !seat.parent.any forest.keys.contains).map (·.id) := by
  rw [h.top_nest]
  refine ((seats_perm_root h.root_key).flatMap_right _).trans ?_
  rw [List.flatMap_cons]
  refine List.Perm.append_left _ (List.Perm.of_eq ?_)
  have hkey : ∀ seat ∈ (forest.keys.erase "").entries.map seatOf, seat.key ≠ "" := by
    intro seat hseat hempty
    obtain ⟨⟨key, id⟩, hentry, rfl⟩ := List.mem_map.mp hseat
    have hget := KeyMap.mem_entries_iff.mp hentry
    rw [KeyMap.get?_erase, if_pos (show key = "" from hempty)] at hget
    cases hget
  generalize (forest.keys.erase "").entries.map seatOf = seats at hkey
  induction seats with
  | nil => rfl
  | cons seat seats ih =>
    have hfirst : seat.key ≠ "" := hkey seat List.mem_cons_self
    rw [List.flatMap_cons, ih fun other hother => hkey other (List.mem_cons_of_mem _ hother)]
    by_cases hnested : seat.parent.any forest.keys.contains = true
    · simp [hnested]
    · simp [hnested, hfirst]

/-- The links below the top lead to the nodes whose parent is keyed and is not the root. -/
theorem below_perm (h : forest.Nestable root) :
    forest.nest.ownership.below ~ (forest.keys.erase "").keys.flatMap forest.childIds := by
  refine (Ownership.below_perm _ h.nodup_seated (fun id hid => h.lt_size_of_seated hid)
    fun id hid => h.owned_eq_nil hid).trans ?_
  rw [seated, KeyMap.values, KeyMap.keys, List.flatMap_map, List.flatMap_map]
  refine List.Perm.of_eq (List.flatMap_congr fun entry hentry => ?_)
  have hget := KeyMap.mem_entries_iff.mp hentry
  rw [KeyMap.get?_erase] at hget
  split at hget
  · cases hget
  · rename_i hne
    exact h.owned_of_key hne hget

/-- The links of the nested nodes lead to every seated node once. -/
theorem links_perm (h : forest.Nestable root) :
    forest.nest.ownership.links ~ forest.seated := by
  let seats := (forest.keys.erase "").entries.map seatOf
  let isNested (seat : Seat) : Bool := seat.parent.any forest.keys.contains
  have hkeys : forest.keys.keys ~ "" :: (forest.keys.erase "").keys :=
    (KeyMap.entries_perm_of_get? h.root_key).map Prod.fst
  have hchildren : forest.childIds "" ++ (forest.keys.erase "").keys.flatMap forest.childIds ~
      (seats.filter isNested).map (·.id) := by
    refine (hkeys.flatMap_right forest.childIds).symm.trans ?_
    refine forest.flatMap_childIds_perm.trans ?_
    have hseats := ((seats_perm_root h.root_key).filter isNested).map Seat.id
    rwa [List.filter_cons_of_neg (by simp [isNested])] at hseats
  calc forest.nest.ownership.links
      _ ~ (forest.childIds "" ++ (seats.filter (!isNested ·)).map (·.id)) ++
          (forest.keys.erase "").keys.flatMap forest.childIds := h.top_perm.append h.below_perm
      _ ~ (forest.childIds "" ++ (forest.keys.erase "").keys.flatMap forest.childIds) ++
          (seats.filter (!isNested ·)).map (·.id) := by
        rw [List.append_assoc, List.append_assoc]
        exact List.perm_append_comm.append_left _
      _ ~ (seats.filter isNested).map (·.id) ++ (seats.filter (!isNested ·)).map (·.id) :=
        hchildren.append_right _
      _ ~ seats.map (·.id) := by
        rw [← List.map_append]
        exact (List.filter_append_perm isNested seats).map Seat.id
      _ ~ forest.seated := by
        rw [List.map_map]
        exact List.Perm.refl _

/-- The rank of a keyed node is the length of its key. -/
theorem keyLength_eq (h : forest.Nestable root) {key : String} {id : NodeId}
    (hkey : forest.keys.get? key = some id) : forest.keyLength id = key.length := by
  unfold keyLength
  cases hfound : forest.keys.entries.find? (·.2 == id) with
  | none =>
    have hnone := List.find?_eq_none.mp hfound (key, id) (KeyMap.mem_entries_iff.mpr hkey)
    simp at hnone
  | some entry =>
    obtain ⟨other, value⟩ := entry
    have hvalue : value = id := by simpa using List.find?_some hfound
    have hother := KeyMap.mem_entries_iff.mp (List.mem_of_find?_eq_some hfound)
    rw [hvalue] at hother
    rw [KeyMap.get?_inj_of_nodup_values h.nodup_values hkey hother]
    rfl

/-- Nested nodes form a forest of the keyed nodes other than the root. -/
theorem isForest_nest (h : forest.Nestable root) :
    forest.nest.ownership.IsForest forest.seated forest.keyLength where
  nodup := h.nodup_seated
  links_perm := h.links_perm
  owner_mem {parent child} howns := by
    by_contra hparent
    rw [Ownership.Owns, h.owned_eq_nil hparent] at howns
    cases howns
  rank_lt {parent child} howns := by
    by_cases hparent : parent ∈ forest.seated
    · obtain ⟨key, hkey⟩ := KeyMap.mem_values_iff.mp hparent
      rw [KeyMap.get?_erase] at hkey
      split at hkey
      · cases hkey
      · rename_i hne
        rw [Ownership.Owns, h.owned_of_key hne hkey] at howns
        obtain ⟨seat, hseat, rfl⟩ := List.mem_map.mp howns
        obtain ⟨hseat, hbelow⟩ := List.mem_filter.mp hseat
        obtain ⟨childKey, id, hchild, rfl⟩ := mem_seats_iff.mp hseat
        obtain ⟨name, hname, htext⟩ := Option.map_eq_some_iff.mp (beq_iff_eq.mp hbelow)
        have hlt := QualifiedName.length_text_parent?_lt hname
        have hchildLength : forest.keyLength (seatOf (childKey, id)).id = childKey.length :=
          h.keyLength_eq hchild
        rw [h.keyLength_eq hkey, hchildLength, ← htext]
        exact hlt
    · rw [Ownership.Owns, h.owned_eq_nil hparent] at howns
      cases howns
  lt_size := h.lt_size_of_seated

end Nestable

end SymbolTree.Forest
