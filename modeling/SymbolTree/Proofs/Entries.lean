import SymbolTree.Proofs.Ownership.Lifting
import SymbolTree.Proofs.Ownership.Traversal
import SymbolTree.Proofs.ResolvedForest

/-!
# Entries of the lookup

Ids are entered while nodes are nested, and entries of constructors move when these are renamed.
Both go through clashes: a node that asks for an id holds it afterwards or is dropped, and each
entry that is not made is a clash. No later stage touches the lookup or adds a clash.
-/

namespace SymbolTree.Forest

open scoped List

variable {forest : Forest} {root : NodeId}

/-- The entries of the lookup and the locations that clashes drop. -/
def account (forest : Forest) : KeyMap NodeId × List SourceLocation :=
  (forest.lookup, droppedLocations forest.diagnostics)

/-- Forests that differ in nodes only have the same account. -/
theorem account_eq_of_rest_eq {a b : Forest} (h : a.rest = b.rest) : a.account = b.account := by
  rw [account, account, lookup_eq_of_rest_eq h, diagnostics_eq_of_rest_eq h]

/-- The requests for ids so far: each has made an entry of the lookup or ended in a clash. -/
def requests (forest : Forest) : Nat :=
  forest.lookup.size + (droppedLocations forest.diagnostics).length

/-- Forests with the same account have seen as many requests. -/
theorem requests_eq_of_account_eq {a b : Forest} (h : a.account = b.account) :
    a.requests = b.requests := by
  obtain ⟨hlookup, hdropped⟩ := Prod.mk.inj h
  rw [requests, requests, hlookup, hdropped]

/-- A node holds an id, or its location is dropped by a clash. -/
def HoldsOrDropped (forest : Forest) (key : String) (id : NodeId) : Prop :=
  forest.lookup.get? key = some id ∨
    (forest.node id).location ∈ droppedLocations forest.diagnostics

/-- Entering an id leaves the nodes as they are. -/
@[simp] theorem node_enter (forest : Forest) (key : String) (incoming id : NodeId) :
    (forest.enter key incoming).node id = forest.node id :=
  node_eq_of_nodes_eq (nodes_enter forest key incoming) id

namespace HoldsOrDropped

variable {key : String} {id : NodeId}

/-- Whoever asks for an id holds it or is dropped. -/
theorem enter_self (forest : Forest) (key : String) (id : NodeId) :
    (forest.enter key id).HoldsOrDropped key id := by
  unfold HoldsOrDropped
  rw [node_enter]
  exact holds_or_dropped_enter forest key id (.inl rfl)

/-- Whoever holds an id or is dropped does so after another node is entered. -/
theorem enter (h : forest.HoldsOrDropped key id) (other : String) (incoming : NodeId) :
    (forest.enter other incoming).HoldsOrDropped key id := by
  unfold HoldsOrDropped
  rw [node_enter]
  rcases h with hheld | hdropped
  · by_cases hkey : key = other
    · subst hkey
      exact holds_or_dropped_enter forest key incoming (.inr hheld)
    · exact .inl (by rw [get?_lookup_enter_of_ne forest hkey, hheld])
  · exact .inr (mem_droppedLocations_enter hdropped other incoming)

/-- Nothing but the account and the location of the node matters. -/
theorem of_account_eq (h : forest.HoldsOrDropped key id) {other : Forest}
    (haccount : other.account = forest.account)
    (hlocation : (other.node id).location = (forest.node id).location) :
    other.HoldsOrDropped key id := by
  obtain ⟨hlookup, hdropped⟩ := Prod.mk.inj haccount
  unfold HoldsOrDropped
  rw [hlookup, hdropped, hlocation]
  exact h

end HoldsOrDropped

/-- Entering a keyed node leaves the nodes as they are. -/
theorem node_enterSeat (forest : Forest) (seat : Seat) (id : NodeId) :
    (forest.enterSeat seat).node id = forest.node id :=
  node_eq_of_nodes_eq (nodes_enterSeat forest seat) id

/-- Entering keyed nodes makes one request for each that is no section. -/
private theorem requests_foldl_enterSeat (seats : List Seat) (forest : Forest) :
    (seats.foldl enterSeat forest).requests =
      forest.requests + seats.countP fun seat => !(forest.node seat.id).isSection := by
  induction seats generalizing forest with
  | nil => rfl
  | cons seat seats ih =>
    rw [List.foldl_cons, ih, List.countP_cons]
    simp only [node_enterSeat]
    cases hsection : (forest.node seat.id).isSection with
    | true =>
      have hskip : forest.enterSeat seat = forest := by simp [enterSeat, hsection]
      rw [hskip]
      simp
    | false =>
      have henter : forest.enterSeat seat = forest.enter (forest.node seat.id).id seat.id := by
        simp [enterSeat, hsection]
      have hrequests := size_lookup_enter forest (forest.node seat.id).id seat.id
      rw [henter]
      simp only [requests, Bool.not_false, if_true] at hrequests ⊢
      omega

/-- What holds once a keyed node is entered and survives every other entry holds once all keyed nodes
are entered. -/
theorem foldl_enterSeat_of_mem {motive : Forest → Prop} {seats : List Seat} {seat : Seat}
    (hseat : seat ∈ seats) (forest : Forest) (hsection : (forest.node seat.id).isSection = false)
    (hself : ∀ later : Forest, motive (later.enter (forest.node seat.id).id seat.id))
    (hkeep : ∀ later key incoming, motive later → motive (later.enter key incoming)) :
    motive (seats.foldl enterSeat forest) := by
  obtain ⟨before, rest, rfl⟩ := List.append_of_mem hseat
  have hnode : (before.foldl enterSeat forest).node seat.id = forest.node seat.id :=
    foldl_keeps (node · seat.id) (fun forest other _ => node_enterSeat forest other seat.id) forest
  have henter : (before.foldl enterSeat forest).enterSeat seat =
      (before.foldl enterSeat forest).enter (forest.node seat.id).id seat.id := by
    simp [enterSeat, hnode, hsection]
  rw [List.foldl_append, List.foldl_cons, henter]
  refine List.foldlRecOn (motive := motive) rest enterSeat (hself _) fun later hlater other _ => ?_
  unfold enterSeat
  simp only
  split
  · exact hlater
  · exact hkeep later _ _ hlater

/-- Naming the keyed nodes keeps the types. -/
theorem types_withNames (forest : Forest) :
    forest.withNames.column Node.type = forest.column Node.type := by
  have hchildren (node : Node) (children : List Edge) :
      Node.type { node with children } = node.type := rfl
  have hnamed : forest.withNames.column Node.type = forest.withChildren.column Node.type :=
    foldl_keeps (column Node.type)
      (fun forest seat _ =>
        column_modify (view_nameNode (fun _ _ _ _ _ => rfl) seat.key) forest seat.id)
      forest.withChildren
  rw [hnamed]
  exact foldl_keeps (column Node.type)
    (fun forest seat _ => column_modify (fun node => hchildren node _) forest seat.id) forest

/-- Nesting keeps the types. -/
theorem types_nest (forest : Forest) : forest.nest.column Node.type = forest.column Node.type :=
  column_nest (fun _ _ => rfl) (fun _ _ _ _ _ => rfl) (fun _ _ => rfl) forest

/-- Nesting enters ids and reports clashes only while it enters the keyed nodes. -/
theorem account_nest (forest : Forest) :
    forest.nest.account = forest.withEntries.account := by
  have htwinned : (forest.seats.foldl nameTwin forest.withTop).rest = forest.withTop.rest :=
    foldl_keeps rest (fun forest seat _ => rest_nameTwin forest seat) forest.withTop
  have hraised : forest.withTop.account = forest.withEntries.account := by
    unfold withTop clearRoot
    split <;> rfl
  exact (account_eq_of_rest_eq htwinned).trans hraised

/-- After the nodes are named, nesting sets only children and bound ids. -/
theorem column_nest_withNames {α : Type} {view : Node → α}
    (hchildren : ∀ node children, view { node with children } = view node)
    (hbound : ∀ node bound, view { node with bound } = view node) (forest : Forest) :
    forest.nest.column view = forest.withNames.column view := by
  have hentered : forest.withEntries.column view = forest.withNames.column view :=
    foldl_keeps (column view)
      (fun forest seat _ => column_eq_of_nodes_eq (nodes_enterSeat forest seat)) forest.withNames
  have htwinned : (forest.seats.foldl nameTwin forest.withTop).column view =
      forest.withTop.column view :=
    foldl_keeps (column view) (fun forest seat _ => column_nameTwin hbound forest seat)
      forest.withTop
  rw [← hentered]
  exact htwinned.trans (column_clearRoot hchildren _)

/-- Nesting makes one request for each keyed node that is no section. -/
theorem requests_nest (forest : Forest) :
    forest.nest.requests =
      forest.requests + forest.keys.values.countP fun id => !(forest.node id).isSection := by
  have hstart : forest.withNames.requests = forest.requests :=
    requests_eq_of_account_eq (account_eq_of_rest_eq forest.rest_withNames)
  have hend : forest.nest.requests = forest.withEntries.requests :=
    requests_eq_of_account_eq forest.account_nest
  rw [hend, withEntries, requests_foldl_enterSeat, hstart]
  simp only [isSection_eq forest.types_withNames]
  rw [← forest.seats_map_id_perm.countP_eq, List.countP_map]
  rfl

/-- After nesting, a seated node that is no section holds its id or is dropped. -/
theorem Nestable.holdsOrDropped_nest (h : forest.Nestable root) {id : NodeId}
    (hid : id ∈ forest.seated) (hsection : (forest.nest.node id).isSection = false) :
    forest.nest.HoldsOrDropped (forest.nest.node id).id id := by
  have hvalue : id ∈ forest.keys.values := h.values_perm.mem_iff.mpr (List.mem_cons_of_mem _ hid)
  obtain ⟨key, hkey⟩ := KeyMap.mem_values_iff.mp hvalue
  have hseat : seatOf (key, id) ∈ forest.seats := mem_seats_iff.mpr ⟨key, id, hkey, rfl⟩
  have hids : forest.nest.column Node.id = forest.withNames.column Node.id :=
    column_nest_withNames (fun _ _ => rfl) (fun _ _ => rfl) forest
  have hlocations : forest.nest.column Node.location = forest.withNames.column Node.location :=
    column_nest_withNames (fun _ _ => rfl) (fun _ _ => rfl) forest
  have hnamed : (forest.withNames.node id).isSection = false := by
    rw [isSection_eq forest.types_withNames, ← isSection_eq forest.types_nest, hsection]
  have hentered : forest.withEntries.HoldsOrDropped (forest.withNames.node id).id id :=
    foldl_enterSeat_of_mem (motive := (HoldsOrDropped · (forest.withNames.node id).id id)) hseat
      forest.withNames hnamed (fun later => .enter_self later _ _)
      fun _ key incoming hlater => hlater.enter key incoming
  rw [view_node_eq_of_column_eq hids id]
  refine hentered.of_account_eq forest.account_nest ?_
  have hnode : forest.withEntries.node id = forest.withNames.node id :=
    foldl_keeps (node · id) (fun forest seat _ => node_enterSeat forest seat id) forest.withNames
  rw [hnode, view_node_eq_of_column_eq hlocations id]

/-- Moving the entry of a renamed constructor leaves the nodes as they are. -/
theorem node_renameEntry (forest : Forest) (rename : String × NodeId) (id : NodeId) :
    (forest.renameEntry rename).node id = forest.node id :=
  node_eq_of_nodes_eq (nodes_renameEntry forest rename) id

/-- The forest after its nodes are classified, with all entries where they were. -/
def withTypes (forest : Forest) : Forest :=
  forest.placed.foldl (fun forest id => forest.modify id classifyNode) forest

/-- The constructors that have a place, each with the id that it loses. -/
def renames (forest : Forest) : List (String × NodeId) :=
  (forest.placed.filter fun id => (forest.node id).type = .constructor).map
    fun id => ((forest.node id).id, id)

/-- Classification ends with moving the entries of the constructors. -/
theorem classify_eq (forest : Forest) :
    forest.classify = forest.renames.foldl renameEntry forest.withTypes := rfl

/-- The constructors that have a place. -/
theorem map_snd_renames (forest : Forest) :
    forest.renames.map (·.2) =
      forest.placed.filter fun id => (forest.node id).type = .constructor := by
  simp [renames, Function.comp_def]

/-- Classifying nodes changes nothing but nodes. -/
theorem rest_withTypes (forest : Forest) : forest.withTypes.rest = forest.rest :=
  foldl_keeps rest
    (fun later id _ => show (later.modify id classifyNode).rest = later.rest from rfl) forest

/-- Moving entries leaves the nodes as they are classified. -/
theorem node_classify (forest : Forest) (id : NodeId) :
    forest.classify.node id = forest.withTypes.node id :=
  foldl_keeps (node · id) (fun forest rename _ => node_renameEntry forest rename id)
    forest.withTypes

/-- A placed node is classified on its own. -/
theorem node_withTypes_of_mem (hnodup : forest.placed.Nodup) {id : NodeId}
    (hid : id ∈ forest.placed) (hsize : id < forest.nodes.size) :
    forest.withTypes.node id = classifyNode (forest.node id) :=
  node_foldl_modify (fun id => id) (fun _ => classifyNode) (by simpa using hnodup) forest hid hsize

/-- A node that is not placed is not classified. -/
theorem node_withTypes_of_notMem {id : NodeId} (hid : id ∉ forest.placed) :
    forest.withTypes.node id = forest.node id :=
  node_foldl_modify_of_notMem (fun id => id) (fun _ => classifyNode) (by simpa using hid) forest

/-- Moving an entry gives one up and makes a request for another. -/
private theorem requests_renameEntry (forest : Forest) (rename : String × NodeId) :
    (forest.renameEntry rename).requests = forest.requests := by
  unfold renameEntry
  split
  · rename_i hheld
    have herase := KeyMap.size_erase_of_get? hheld
    have hrequests := size_lookup_enter { forest with lookup := forest.lookup.erase rename.1 }
      (forest.node rename.2).id rename.2
    simp only [requests] at hrequests ⊢
    omega
  · rfl

/-- Classification makes no request in total. -/
theorem requests_classify (forest : Forest) : forest.classify.requests = forest.requests := by
  unfold classify classifyAlong
  simp only
  rw [foldl_keeps requests fun forest rename _ => requests_renameEntry forest rename]
  exact foldl_keeps requests
    (fun later id _ => show (later.modify id classifyNode).requests = later.requests from rfl)
    forest

namespace HoldsOrDropped

variable {key : String} {id : NodeId}

/-- Moving the entry of another node makes no difference. -/
theorem renameEntry (h : forest.HoldsOrDropped key id) {rename : String × NodeId}
    (hne : rename.2 ≠ id) : (forest.renameEntry rename).HoldsOrDropped key id := by
  unfold Forest.renameEntry
  split
  · rename_i hmoving
    refine HoldsOrDropped.enter ?_ _ _
    rcases h with hheld | hdropped
    · -- The erased id belongs to the other node, so it is not the one that this node holds.
      have hkey : key ≠ rename.1 := by
        rintro rfl
        rw [hmoving] at hheld
        exact hne (Option.some.inj hheld)
      exact .inl (by rw [KeyMap.get?_erase, if_neg hkey, hheld])
    · exact .inr hdropped
  · exact h

/-- A node whose own entry is moved holds its new id or is dropped. -/
theorem renameEntry_self (h : forest.HoldsOrDropped key id) :
    (forest.renameEntry (key, id)).HoldsOrDropped (forest.node id).id id := by
  unfold Forest.renameEntry
  split
  · exact enter_self _ _ _
  · rename_i hlost
    rcases h with hheld | hdropped
    · exact absurd hheld hlost
    · exact .inr hdropped

/-- Moving the entries of other nodes makes no difference. -/
theorem foldl_renameEntry (h : forest.HoldsOrDropped key id) {renames : List (String × NodeId)}
    (hne : id ∉ renames.map (·.2)) :
    (renames.foldl Forest.renameEntry forest).HoldsOrDropped key id := by
  refine List.foldlRecOn (motive := fun later => later.HoldsOrDropped key id) renames
    Forest.renameEntry h fun later hlater rename hrename => hlater.renameEntry ?_
  rintro rfl
  exact hne (List.mem_map_of_mem hrename)

/-- A node among those whose entries are moved holds its new id or is dropped. -/
theorem foldl_renameEntry_self (h : forest.HoldsOrDropped key id)
    {renames : List (String × NodeId)} (hnodup : (renames.map (·.2)).Nodup)
    (hmem : (key, id) ∈ renames) :
    (renames.foldl Forest.renameEntry forest).HoldsOrDropped (forest.node id).id id := by
  obtain ⟨before, rest, rfl⟩ := List.append_of_mem hmem
  rw [List.map_append, List.map_cons] at hnodup
  obtain ⟨_, hrest, hdisjoint⟩ := List.nodup_append.mp hnodup
  have hbefore : id ∉ before.map (·.2) := fun hid =>
    hdisjoint id hid id List.mem_cons_self rfl
  have hnode : (before.foldl Forest.renameEntry forest).node id = forest.node id :=
    foldl_keeps (node · id) (fun forest rename _ => node_renameEntry forest rename id) forest
  have hmoved := (h.foldl_renameEntry hbefore).renameEntry_self
  rw [hnode] at hmoved
  rw [List.foldl_append, List.foldl_cons]
  exact hmoved.foldl_renameEntry (List.nodup_cons.mp hrest).1

/-- A placed node that holds its id or is dropped does so after classification. -/
theorem classify (hnodup : forest.placed.Nodup) (hid : id ∈ forest.placed)
    (hsize : id < forest.nodes.size) (h : forest.HoldsOrDropped (forest.node id).id id) :
    forest.classify.HoldsOrDropped (forest.classify.node id).id id := by
  have hnode := node_withTypes_of_mem hnodup hid hsize
  have hclassified : forest.withTypes.HoldsOrDropped (forest.node id).id id := by
    refine h.of_account_eq (account_eq_of_rest_eq forest.rest_withTypes) ?_
    rw [hnode, classifyNode]
    split
    · rfl
    · split <;> rfl
  rw [node_classify, classify_eq]
  by_cases htype : (forest.node id).type = .constructor
  · have hmem : ((forest.node id).id, id) ∈ forest.renames :=
      List.mem_map.mpr ⟨id, List.mem_filter.mpr ⟨hid, by simpa using htype⟩, rfl⟩
    exact hclassified.foldl_renameEntry_self (forest.map_snd_renames ▸ hnodup.filter _) hmem
  · have hsame : (forest.withTypes.node id).id = (forest.node id).id := by
      rw [hnode, classifyNode, if_neg htype]
      split <;> rfl
    rw [hsame]
    refine hclassified.foldl_renameEntry ?_
    rw [map_snd_renames]
    simp [htype]

end HoldsOrDropped

private theorem memberType_ne {type generic : NodeType}
    (htype : type = .section ∨ type = .constructor) (hne : generic ≠ type) (id : String) :
    memberType id generic ≠ type := by
  unfold memberType
  simp only
  rcases htype with rfl | rfl <;> split_ifs <;> first | exact hne | exact NodeType.noConfusion

/-- Classification turns no node into a section or a constructor, and neither of them into anything
else. -/
theorem type_classifyNode_eq_iff {type : NodeType} (htype : type = .section ∨ type = .constructor)
    (node : Node) : (classifyNode node).type = type ↔ node.type = type := by
  unfold classifyNode
  split
  · rfl
  · split
    · rename_i hgeneric
      have hne : node.type ≠ type := by
        rintro rfl
        rcases htype with heq | heq <;> simp [heq, NodeType.isGeneric] at hgeneric
      exact iff_of_false (memberType_ne htype hne node.id) hne
    · rfl

/-- Classification turns no node into a section, and no section into anything else. -/
theorem isSection_classifyNode (node : Node) : (classifyNode node).isSection = node.isSection := by
  rw [Node.isSection, Node.isSection, Bool.eq_iff_iff, beq_iff_eq, beq_iff_eq]
  exact type_classifyNode_eq_iff (.inl rfl) node

/-- A resolution turns no node into a section, and no section into anything else. -/
theorem isSection_resolve (settings : Settings) (forest : Forest) (id : NodeId) :
    ((forest.resolve settings).node id).isSection = (forest.node id).isSection :=
  view_node_eq_of_column_eq
    (column_resolve (fun _ _ _ _ _ => rfl) isSection_classifyNode (fun _ _ => rfl)
      (fun _ _ _ _ _ _ _ _ => rfl) settings forest) id

private theorem account_linkSuperclass (forest : Forest) (id : NodeId) :
    (forest.linkSuperclass id).account = forest.account := by
  have hreport (diagnostic : Diagnostic) (hclash : droppedLocations [diagnostic] = []) :
      (forest.report diagnostic).account = forest.account := by
    simp only [account, report, droppedLocations_append, hclash, List.append_nil]
  rcases forest.linkSuperclass_cases id with
    ⟨_, heq⟩ | ⟨superclass, _, _, ⟨_, heq⟩ | ⟨parent, _, _, _, heq⟩ | ⟨_, heq⟩⟩
  · rw [heq]
  · rw [heq]
    exact hreport _ rfl
  · rw [heq, adopt]
    split <;> rfl
  · rw [heq]
    exact hreport _ rfl

private theorem account_mergeInto (lineage : Lineage) (forest : Forest) (id : NodeId) :
    (mergeInto lineage forest id).account = forest.account := by
  refine Prod.ext ?_ (droppedLocations_mergeInto lineage forest id)
  rw [mergeInto_eq]
  split <;> rfl

/-- Linking relations leaves the lookup alone and reports no clash. -/
theorem account_linkRelations (forest : Forest) :
    forest.linkRelations.account = forest.account := by
  unfold linkRelations linkAlong
  simp only
  rw [foldl_keeps account fun forest id _ => account_mergeInto _ forest id,
    foldl_keeps account fun forest id _ => account_linkSuperclass forest id,
    foldl_keeps account fun forest id _ => account_eq_of_rest_eq (rest_copyDocs forest id),
    foldl_keeps account fun forest id _ => account_eq_of_rest_eq (rest_linkAlias forest id)]

/-- Assigning output files leaves the lookup and the diagnostics alone. -/
theorem entries_assignPartitions (settings : Settings) (forest : Forest) :
    (forest.assignPartitions settings).lookup = forest.lookup ∧
      (forest.assignPartitions settings).diagnostics = forest.diagnostics := by
  let entries (forest : Forest) : KeyMap NodeId × List Diagnostic :=
    (forest.lookup, forest.diagnostics)
  have hrest {a b : Forest} (h : a.rest = b.rest) : entries a = entries b :=
    Prod.ext (lookup_eq_of_rest_eq h) (diagnostics_eq_of_rest_eq h)
  suffices hentries : entries (forest.assignPartitions settings) = entries forest from
    Prod.mk.inj hentries
  unfold assignPartitions redirected partitioned
  simp only
  rw [foldl_keeps entries fun forest id _ => hrest (rest_redirectExtension settings forest id),
    foldl_keeps entries fun forest id _ => hrest (rest_assignBranch settings _ none forest id)]
  split
  · rw [liftClasses_eq,
      foldl_keeps entries fun forest id _ => hrest (rest_liftInSection forest id)]
    exact foldl_keeps entries (fun forest edge _ => hrest (rest_dropClasses forest edge)) forest
  · rfl

/-- Assigning output files leaves the lookup and the clashes alone. -/
theorem account_assignPartitions (settings : Settings) (forest : Forest) :
    (forest.assignPartitions settings).account = forest.account := by
  obtain ⟨hlookup, hdiagnostics⟩ := entries_assignPartitions settings forest
  rw [account, account, hlookup, hdiagnostics]

end SymbolTree.Forest
