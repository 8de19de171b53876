import SymbolTree.Proofs.LinkedRelations
import SymbolTree.Proofs.NestedChildren
import SymbolTree.Proofs.Partitions

/-!
# Where redirected nodes get their output files from

Extensions are redirected one after another, and each redirect takes a whole branch along. A node is
thus moved any number of times, and what an extension reads off its owner may itself be moved before
or after. Nothing but output files changes on the way, so who moves whom is settled beforehand. Going
through the redirects from the last one back to the first, a node is traced to the node from which it
has its output file in the end, its source.
-/

namespace SymbolTree

namespace Forest

variable {settings : Settings} {forest a b : Forest}

/-- A node in another output file, with the members that it lists there. -/
def inFile (outFile : String) (node : Node) : Node :=
  { node with outFile, children := node.children.map (·.withPartition outFile) }

/-- Moving a node twice leaves it where it is moved last. -/
@[simp] theorem inFile_inFile (first second : String) (node : Node) :
    inFile second (inFile first node) = inFile second node := by
  simp [inFile, Function.comp_def]

/-- Moving a node keeps what it owns. -/
@[simp] theorem ownedChildren_inFile (outFile : String) (node : Node) :
    (inFile outFile node).ownedChildren = node.ownedChildren :=
  ownedChildren_moved node outFile node.anchor

/-- Two forests that differ in output files only. -/
structure Alike (a b : Forest) : Prop where
  /-- All but the nodes is the same. -/
  rest_eq : a.rest = b.rest
  /-- The nodes are the same once they are in one file. -/
  column_eq : a.column (inFile "") = b.column (inFile "")

namespace Alike

/-- Being alike is transitive. -/
theorem trans {c : Forest} (hab : Alike a b) (hbc : Alike b c) : Alike a c :=
  ⟨hab.rest_eq.trans hbc.rest_eq, hab.column_eq.trans hbc.column_eq⟩

/-- Forests that are alike have the same number of nodes. -/
theorem size_eq (h : Alike a b) : a.nodes.size = b.nodes.size := size_eq_of_column_eq h.column_eq

/-- Forests that are alike have the same lookup. -/
theorem lookup_eq (h : Alike a b) : a.lookup = b.lookup := lookup_eq_of_rest_eq h.rest_eq

/-- Forests that are alike agree on what does not depend on output files. -/
theorem view_eq {α : Type} (h : Alike a b) (view : Node → α)
    (hview : ∀ node, view (inFile "" node) = view node) (id : NodeId) :
    view (a.node id) = view (b.node id) := by
  rw [← hview, view_node_eq_of_column_eq h.column_eq id, hview]

end Alike

/-- Redirecting an extension leaves all but output files alone. -/
theorem alike_redirectExtension (settings : Settings) (forest : Forest) (id : NodeId) :
    Alike (redirectExtension settings forest id) forest :=
  ⟨rest_redirectExtension settings forest id,
    column_redirectExtension (fun node outFile => inFile_inFile outFile "" node) settings forest id⟩

/-- Moving a branch leaves all but output files alone. -/
theorem alike_moveBranch (settings : Settings) (outFile : String) (depth : Nat) (forest : Forest)
    (id : NodeId) : Alike (moveBranch settings outFile depth forest id) forest :=
  ⟨rest_moveBranch settings outFile depth forest id,
    column_moveBranch (fun node outFile => inFile_inFile outFile "" node) settings outFile depth
      forest id⟩

/-- Whether a node goes along when its owner is moved. -/
def goesAlong (settings : Settings) (forest : Forest) (child : NodeId) : Bool :=
  !(settings.policy == .perClass && (forest.node child).isClass)

/-- The nodes that are moved with a node. `depth` bounds how far down. -/
def movedWith (settings : Settings) (forest : Forest) : (depth : Nat) → NodeId → List NodeId
  | 0, _ => []
  | depth + 1, id =>
    id :: ((forest.node id).ownedChildren.filter (forest.goesAlong settings)).flatMap
      (forest.movedWith settings depth)

/-- Who is moved does not depend on output files. -/
theorem Alike.movedWith_eq (h : Alike a b) (settings : Settings) (depth : Nat) (id : NodeId) :
    a.movedWith settings depth id = b.movedWith settings depth id := by
  have hgoes : a.goesAlong settings = b.goesAlong settings := by
    funext child
    rw [goesAlong, goesAlong, h.view_eq Node.isClass fun _ => rfl]
  induction depth generalizing id with
  | zero => rfl
  | succ depth ih =>
    rw [movedWith, movedWith, hgoes,
      h.view_eq Node.ownedChildren fun node => ownedChildren_inFile "" node, funext ih]

/-- What is moved with a node lies below it. -/
theorem reflTransGen_of_mem_movedWith {depth : Nat} {id other : NodeId}
    (hmoved : other ∈ forest.movedWith settings depth id) :
    Relation.ReflTransGen forest.ownership.Owns id other := by
  induction depth generalizing id with
  | zero => cases hmoved
  | succ depth ih =>
    rcases List.mem_cons.mp hmoved with rfl | hbelow
    · exact .refl
    · obtain ⟨child, hchild, hmem⟩ := List.mem_flatMap.mp hbelow
      exact .head (List.mem_filter.mp hchild).1 (ih hmem)

/-- When steps put the nodes that each of them moves into one output file and change nothing else, a run
of steps does so with the nodes that one of them moves. -/
theorem outFile_foldl {step : Forest → NodeId → Forest} {moved : NodeId → List NodeId}
    {outFile : String} {other : NodeId}
    (hstep : ∀ later id, Alike later forest → Alike (step later id) forest ∧
      ((step later id).node other).outFile =
        if other ∈ moved id then outFile else (later.node other).outFile)
    (ids : List NodeId) {later : Forest} (hlater : Alike later forest) :
    ((ids.foldl step later).node other).outFile =
      if other ∈ ids.flatMap moved then outFile else (later.node other).outFile := by
  induction ids generalizing later with
  | nil => rfl
  | cons id ids ih =>
    obtain ⟨hnext, hmoved⟩ := hstep later id hlater
    rw [List.foldl_cons, ih hnext, hmoved]
    by_cases hrest : other ∈ ids.flatMap moved
    · simp only [List.flatMap_cons, List.mem_append, hrest, or_true, if_true]
    · simp only [List.flatMap_cons, List.mem_append, hrest, or_false, if_false]

/-- Moving a branch changes the output files of the nodes that are moved, and of no other. -/
theorem outFile_moveBranch (outFile : String) (depth : Nat) (id : NodeId) {other : NodeId}
    (hother : other < forest.nodes.size) :
    ((moveBranch settings outFile depth forest id).node other).outFile =
      if other ∈ forest.movedWith settings depth id then outFile
      else (forest.node other).outFile := by
  induction depth generalizing forest id with
  | zero => rfl
  | succ depth ih =>
    let below := (forest.node id).ownedChildren.filter (forest.goesAlong settings)
    have hself : Alike (forest.modify id (inFile outFile)) forest :=
      ⟨rfl, column_modify (fun node => inFile_inFile outFile "" node) forest id⟩
    have hbelow : ((moveBranch settings outFile (depth + 1) forest id).node other).outFile =
        if other ∈ below.flatMap (forest.movedWith settings depth) then outFile
        else ((forest.modify id (inFile outFile)).node other).outFile := by
      -- who is moved with a child stays the same while its siblings are moved
      refine outFile_foldl (fun later child hlater => ?_) below hself
      refine ⟨(alike_moveBranch settings outFile depth later child).trans hlater, ?_⟩
      rw [ih child (hlater.size_eq ▸ hother), hlater.movedWith_eq]
    have hmem : other ∈ forest.movedWith settings (depth + 1) id ↔ other = id ∨
        other ∈ below.flatMap (forest.movedWith settings depth) := List.mem_cons
    rw [hbelow, node_modify]
    simp only [hmem]
    by_cases hid : other = id
    · subst hid
      simp [hother, inFile]
    · simp only [hid, false_and, if_false, false_or]

/-- The node to whose output file an extension is redirected. -/
def redirect? (forest : Forest) (id : NodeId) : Option NodeId :=
  if !(forest.node id).extension || (forest.node id).isClass || (forest.node id).isSection then none
  else forest.extensionOwner? id

/-- Only extensions are redirected, and neither classes nor sections are. -/
theorem extension_of_redirect? {id : NodeId} (h : (forest.redirect? id).isSome) :
    (forest.node id).extension = true ∧ (forest.node id).isClass = false ∧
      (forest.node id).isSection = false := by
  unfold redirect? at h
  split at h
  · cases h
  · rename_i hguard
    simpa [and_assoc] using hguard

/-- A text without the delimiters that it starts with. -/
def trimStart (text : String) : String := String.ofList (text.toList.dropWhile isDelimiter)

/-- The owner of an extension has the id of its structural parent, or else this id without the
delimiters that it starts with. -/
theorem extensionOwner?_eq {id : NodeId} {parent : String}
    (hparent : parentKey? (forest.node id).id = some parent) :
    forest.extensionOwner? id =
      ((forest.lookup.get? parent).or (forest.lookup.get? (trimStart parent))).filter (· ≠ id) := by
  obtain ⟨name, hname, rfl⟩ := Option.map_eq_some_iff.mp hparent
  have hcandidates : ownerCandidates (forest.node id).id =
      if trimStart name.text = name.text then [name.text]
      else [name.text, trimStart name.text] := by
    rw [ownerCandidates, hname]
    rfl
  have hfirst : (ownerCandidates (forest.node id).id).findSome? forest.lookup.get? =
      (forest.lookup.get? name.text).or (forest.lookup.get? (trimStart name.text)) := by
    rw [hcandidates]
    split
    · rename_i htrimmed
      rw [htrimmed, Option.or_self, List.findSome?_singleton]
    · rw [List.findSome?, List.findSome?_singleton]
      cases forest.lookup.get? name.text <;> rfl
  rw [extensionOwner?, hfirst]

/-- Without a structural parent there is no owner. -/
theorem extensionOwner?_eq_none {id : NodeId} (hparent : parentKey? (forest.node id).id = none) :
    forest.extensionOwner? id = none := by
  rw [extensionOwner?, ownerCandidates, Option.map_eq_none_iff.mp hparent]
  rfl

/-- An extension is redirected to its owner, unless it is a class or a section. -/
theorem redirect?_eq {id : NodeId} (hextension : (forest.node id).extension = true)
    (hclass : (forest.node id).isClass = false) (hsection : (forest.node id).isSection = false) :
    forest.redirect? id = forest.extensionOwner? id := by
  simp [redirect?, hextension, hclass, hsection]

/-- Redirecting an extension moves its branch. -/
theorem redirectExtension_eq (settings : Settings) (forest : Forest) (id : NodeId) :
    redirectExtension settings forest id =
      match forest.redirect? id with
      | none => forest
      | some owner =>
        moveBranch settings (forest.node owner).outFile forest.nodes.size forest id := by
  unfold redirectExtension redirect?
  simp only
  split <;> rfl

/-- Where an extension is redirected does not depend on output files. -/
theorem Alike.redirect?_eq (h : Alike a b) (id : NodeId) : a.redirect? id = b.redirect? id := by
  rw [redirect?, redirect?, extensionOwner?, extensionOwner?, h.lookup_eq,
    h.view_eq Node.id fun _ => rfl, h.view_eq Node.extension fun _ => rfl,
    h.view_eq Node.isClass fun _ => rfl, h.view_eq Node.isSection fun _ => rfl]

/-- Whether the redirect of one extension moves a node. -/
def Moves (settings : Settings) (forest : Forest) (turn id : NodeId) : Prop :=
  (forest.redirect? turn).isSome ∧ id ∈ forest.movedWith settings forest.nodes.size turn

/-- The node whose output file another one has right after the redirect of one extension, if there
is such a redirect. -/
def takesFrom (settings : Settings) (forest : Forest) (turn id : NodeId) : NodeId :=
  match forest.redirect? turn with
  | none => id
  | some owner =>
    if id ∈ forest.movedWith settings forest.nodes.size turn then owner else id

/-- The node whose output file another one has after the redirects of some extensions, the first one
first: the last redirect comes first in the trace. -/
def traceBack (settings : Settings) (forest : Forest) (order : List NodeId) (id : NodeId) : NodeId :=
  order.foldr (forest.takesFrom settings) id

/-- The first redirect is the last step of a trace. -/
theorem traceBack_cons (settings : Settings) (forest : Forest) (turn : NodeId)
    (order : List NodeId) (id : NodeId) :
    forest.traceBack settings (turn :: order) id =
      forest.takesFrom settings turn (forest.traceBack settings order id) := rfl

/-- The node whose output file another one has in the end. -/
def source (settings : Settings) (forest : Forest) (id : NodeId) : NodeId :=
  forest.traceBack settings forest.placed id

/-- Redirecting extensions leaves all but output files alone. -/
theorem alike_redirected (settings : Settings) (forest : Forest) :
    Alike (forest.redirected settings) forest :=
  ⟨foldl_keeps rest (fun later id _ => (alike_redirectExtension settings later id).rest_eq) forest,
    foldl_keeps (column (inFile ""))
      (fun later id _ => (alike_redirectExtension settings later id).column_eq) forest⟩

/-- A redirect that does not move a node leaves it alone. -/
theorem takesFrom_of_not_moves {turn id : NodeId} (h : ¬ forest.Moves settings turn id) :
    forest.takesFrom settings turn id = id := by
  unfold takesFrom
  split
  · rfl
  · rename_i owner howner
    exact if_neg fun hmoved => h ⟨by simp [howner], hmoved⟩

/-- A redirect leaves the node alone to which it goes, moved or not. -/
theorem takesFrom_owner {turn owner : NodeId} (howner : forest.redirect? turn = some owner) :
    forest.takesFrom settings turn owner = owner := by
  simp [takesFrom, howner]

/-- Redirects that do not move a node leave it alone. -/
theorem traceBack_of_not_moves {order : List NodeId} {id : NodeId}
    (h : ∀ turn ∈ order, ¬ forest.Moves settings turn id) :
    forest.traceBack settings order id = id := by
  induction order with
  | nil => rfl
  | cons turn order ih =>
    rw [traceBack_cons, ih fun other hother => h other (List.mem_cons_of_mem _ hother),
      takesFrom_of_not_moves (h turn List.mem_cons_self)]

/-- The entries of the lookup are nodes. -/
def LookupInRange (forest : Forest) : Prop :=
  ∀ {key id}, forest.lookup.get? key = some id → id < forest.nodes.size

/-- An extension is redirected to an entry of the lookup. -/
theorem exists_entry_of_redirect? {turn owner : NodeId} (h : forest.redirect? turn = some owner) :
    ∃ key ∈ ownerCandidates (forest.node turn).id, forest.lookup.get? key = some owner := by
  unfold redirect? extensionOwner? at h
  split at h
  · cases h
  · obtain ⟨hfound, _⟩ := Option.filter_eq_some_iff.mp h
    exact List.exists_of_findSome?_eq_some hfound

/-- A trace ends with a node. -/
theorem traceBack_lt_size (hlookup : forest.LookupInRange) (order : List NodeId) {id : NodeId}
    (hid : id < forest.nodes.size) : forest.traceBack settings order id < forest.nodes.size := by
  induction order with
  | nil => exact hid
  | cons turn order ih =>
    rw [traceBack_cons, takesFrom]
    split
    · exact ih
    · rename_i owner howner
      obtain ⟨key, _, hentry⟩ := exists_entry_of_redirect? howner
      split
      · exact hlookup hentry
      · exact ih

/-- After the redirect of one extension, every node has the output file that the node had from which
it takes it. -/
theorem outFile_redirectExtension (turn : NodeId) {id : NodeId} (hid : id < forest.nodes.size) :
    ((redirectExtension settings forest turn).node id).outFile =
      (forest.node (forest.takesFrom settings turn id)).outFile := by
  rw [redirectExtension_eq, takesFrom]
  split
  · rfl
  · rw [outFile_moveBranch _ _ _ hid]
    split <;> rfl

/-- After the redirects of some extensions, every node has the output file that the node had to which
it is traced back. The induction is on the redirects; the first one is the last step of the trace. -/
theorem outFile_foldl_redirectExtension (hlookup : forest.LookupInRange) (order : List NodeId)
    {id : NodeId} (hid : id < forest.nodes.size) :
    ((order.foldl (redirectExtension settings) forest).node id).outFile =
      (forest.node (forest.traceBack settings order id)).outFile := by
  induction order generalizing forest with
  | nil => rfl
  | cons turn order ih =>
    have halike := alike_redirectExtension settings forest turn
    have htrace : (redirectExtension settings forest turn).traceBack settings order id =
        forest.traceBack settings order id := by
      unfold traceBack
      congr 1
      funext other id
      rw [takesFrom, takesFrom, halike.redirect?_eq, halike.movedWith_eq, halike.size_eq]
    have hrange : (redirectExtension settings forest turn).LookupInRange :=
      fun {key id} hentry => halike.size_eq ▸ hlookup (halike.lookup_eq ▸ hentry)
    rw [List.foldl_cons, ih hrange (halike.size_eq ▸ hid), htrace,
      outFile_redirectExtension turn (traceBack_lt_size hlookup order hid), traceBack_cons]

/-- In the end every node has the output file that its source was assigned. -/
theorem outFile_redirected (hlookup : forest.LookupInRange) {id : NodeId}
    (hid : id < forest.nodes.size) :
    ((forest.redirected settings).node id).outFile =
      (forest.node (forest.source settings id)).outFile :=
  outFile_foldl_redirectExtension hlookup forest.placed hid

/-- Whether an extension that is redirected after another one moves a node. -/
def MovedAfter (settings : Settings) (forest : Forest) (turn id : NodeId) : Prop :=
  ∃ earlier later, forest.placed = earlier ++ turn :: later ∧
    ∃ other ∈ later, forest.Moves settings other id

/-- What moves a node after the redirect of an extension is another extension that encloses it and does
not come before the first one. -/
theorem MovedAfter.exists_mover {turn id : NodeId} (h : forest.MovedAfter settings turn id)
    (hnodup : forest.placed.Nodup) :
    ∃ mover ∈ forest.placed, mover ≠ turn ∧
      (compareIds (forest.node turn).id (forest.node mover).id).isLE = true ∧
      (forest.redirect? mover).isSome ∧
      Relation.ReflTransGen forest.ownership.Owns mover id := by
  obtain ⟨earlier, later, hsplit, mover, hmover, hredirect, hmoved⟩ := h
  have hsorted := forest.pairwise_placed
  rw [hsplit] at hnodup hsorted ⊢
  have hfresh := (List.nodup_cons.mp (List.nodup_append.mp hnodup).2.1).1
  refine ⟨mover, by simp [hmover], fun heq => hfresh (heq ▸ hmover), ?_, hredirect,
    reflTransGen_of_mem_movedWith hmoved⟩
  exact (List.pairwise_cons.mp (List.pairwise_append.mp hsorted).2.1).1 mover hmover

/-- An extension has the same source as the node to which it is redirected, unless one of the two is
moved afterwards. -/
theorem source_eq_of_not_movedAfter {turn owner : NodeId} (hturn : turn ∈ forest.placed)
    (hsize : turn < forest.nodes.size) (howner : forest.redirect? turn = some owner)
    (hself : ¬ forest.MovedAfter settings turn turn)
    (hstays : ¬ forest.MovedAfter settings turn owner) :
    forest.source settings turn = forest.source settings owner := by
  obtain ⟨earlier, later, hsplit⟩ := List.append_of_mem hturn
  have hrest {id : NodeId} (hid : ¬ forest.MovedAfter settings turn id) :
      forest.traceBack settings later id = id :=
    traceBack_of_not_moves fun other hother hmoves =>
      hid ⟨earlier, later, hsplit, other, hother, hmoves⟩
  have hstep : forest.takesFrom settings turn turn = owner := by
    obtain ⟨size, hsucc⟩ := Nat.exists_eq_succ_of_ne_zero (Nat.ne_of_gt (Nat.zero_lt_of_lt hsize))
    have hmoved : turn ∈ forest.movedWith settings forest.nodes.size turn := by
      rw [hsucc]
      exact List.mem_cons_self
    simp [takesFrom, howner, hmoved]
  have htrace (id : NodeId) : forest.source settings id =
      forest.traceBack settings earlier
        (forest.takesFrom settings turn (forest.traceBack settings later id)) := by
    simp only [source, traceBack, hsplit, List.foldr_append, List.foldr_cons]
  rw [htrace, htrace, hrest hself, hrest hstays, hstep, takesFrom_owner howner]

end Forest

namespace Collection

/-- The nodes of a collection with the output files that they are assigned, before extensions are
redirected. -/
def assigned (collection : Collection) (settings : Settings) : Forest :=
  (if settings.policy = .liftClasses then collection.linked.liftClasses
    else collection.linked).partitioned settings

variable (collection : Collection) (settings : Settings)

/-- A resolution ends with redirecting extensions. -/
theorem resolve_eq_redirected :
    (Forest.ofCollection collection).resolve settings =
      (collection.assigned settings).redirected settings := rfl

/-- A resolved tree differs from the assigned nodes in output files only. -/
theorem alike_resolve :
    Forest.Alike ((Forest.ofCollection collection).resolve settings)
      (collection.assigned settings) := by
  rw [resolve_eq_redirected]
  exact Forest.alike_redirected settings (collection.assigned settings)

/-- A resolved tree has the lookup of the assigned nodes. -/
theorem lookup_resolve :
    (collection.resolve settings).lookup = (collection.assigned settings).lookup :=
  (collection.alike_resolve settings).lookup_eq

variable {collection}

/-- The assigned nodes form a forest with any rank that classified nodes have. -/
theorem isForest_assigned {members : List NodeId} {rank : NodeId → Nat}
    (h : collection.nested.classify.AllOwned members rank) :
    (collection.assigned settings).ownership.IsForest members rank := by
  have hlinked : collection.linked.WellLinked members rank := h.linkRelations
  unfold assigned
  rw [Forest.ownership_partitioned]
  split
  · exact hlinked.liftClasses.isForest
  · exact hlinked.isForest

/-- Entries of a resolved tree name nodes by their ids. The nodes are no sections and can be reached. -/
theorem entry_of_resolve {records : List Record} {settings : Settings} {key : String} {id : NodeId}
    (hentry : ((empty.insertAll records).resolve settings).lookup.get? key = some id) :
    let tree := (empty.insertAll records).resolve settings
    (tree.node id).id = key ∧ (tree.node id).isSection = false ∧ tree.ownership.Reachable id := by
  intro tree
  obtain ⟨root, hroot, h⟩ := exists_unentered records
  have hfound : (empty.insertAll records).nested.classify.lookup.get? key = some id := by
    rw [← hentry]
    exact congrArg (·.get? key) (Forest.lookup_placed settings _).symm
  obtain ⟨hkey, held, hheld⟩ := h.entry_of_classify hfound
  obtain ⟨_, hseated, hsection⟩ := h.seated_of_entry hheld
  rw [Forest.node_assignSections] at hsection
  exact ⟨(Forest.id_placed settings _ id).trans hkey,
    (Forest.isSection_resolve settings _ id).trans hsection,
    (reachable_resolve_iff hroot settings).mpr hseated⟩

/-- After any sequence of insertions the assigned nodes that can be reached form a forest, and entries
name such nodes. -/
theorem exists_isForest_assigned (records : List Record) (settings : Settings) :
    ∃ members rank,
      ((empty.insertAll records).assigned settings).ownership.IsForest members rank ∧
      ∀ id, id ∈ members ↔ ((empty.insertAll records).resolve settings).ownership.Reachable id := by
  obtain ⟨root, hroot, h⟩ := exists_unentered records
  exact ⟨_, _, isForest_assigned settings h.allOwned_classify,
    fun _ => (reachable_resolve_iff hroot settings).symm⟩

/-- In the end every node that can be reached has the output file that its source was assigned. -/
theorem outFile_resolve {records : List Record} {settings : Settings} {id : NodeId}
    (hreachable : ((empty.insertAll records).resolve settings).ownership.Reachable id) :
    let before := (empty.insertAll records).assigned settings
    (((empty.insertAll records).resolve settings).node id).outFile =
      (before.node (before.source settings id)).outFile := by
  intro before
  obtain ⟨members, rank, hforest, hmembers⟩ := exists_isForest_assigned records settings
  have hlookup : before.LookupInRange := fun {key id} hentry => by
    rw [← lookup_resolve] at hentry
    exact hforest.lt_size ((hmembers id).mpr (entry_of_resolve hentry).2.2)
  exact Forest.outFile_redirected hlookup (hforest.lt_size ((hmembers id).mpr hreachable))

end Collection

end SymbolTree
