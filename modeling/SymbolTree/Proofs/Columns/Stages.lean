import SymbolTree.Proofs.Columns

/-!
# Columns along the stages

For every stage of a resolution, the columns that it keeps. Sections are guessed without touching a
node; nesting sets children, names and bound ids; classification sets ids and types; linking sets
aliases, documentation, subclasses, children and hierarchies; partitioning sets output files,
anchors and children.
-/

namespace SymbolTree.Forest

variable {α : Type} {view : Node → α}

/-- Linking twins keeps every attribute but the sibling. -/
theorem column_linkTwins (hsibling : ∀ node sibling, view { node with boundSibling := sibling } =
    view node) (forest : Forest) (pair : String × String) :
    (forest.linkTwins pair).column view = forest.column view := by
  unfold linkTwins
  split
  · rw [column_modify fun node => hsibling node _, column_modify fun node => hsibling node _]
  · rfl

/-- Linking twins changes nothing but nodes. -/
theorem rest_linkTwins (forest : Forest) (pair : String × String) :
    (forest.linkTwins pair).rest = forest.rest := by
  unfold linkTwins
  split <;> rfl

/-- Settling a clash changes no node. -/
@[simp] theorem nodes_settleClash (forest : Forest) (id : String) (holder incoming : NodeId) :
    (forest.settleClash id holder incoming).2.nodes = forest.nodes := by
  unfold settleClash
  simp only
  split <;> rfl

/-- Entering an id changes no node. -/
@[simp] theorem nodes_enter (forest : Forest) (id : String) (incoming : NodeId) :
    (forest.enter id incoming).nodes = forest.nodes := by
  unfold enter
  split
  · rfl
  · exact nodes_settleClash forest id _ incoming

/-- Moving a key changes no node. -/
@[simp] theorem nodes_rekey (forest : Forest) (oldKey newKey : String) :
    (forest.rekey oldKey newKey).nodes = forest.nodes := by
  unfold rekey
  split
  · rfl
  · simp only
    split
    · rfl
    · exact nodes_settleClash { forest with keys := forest.keys.erase oldKey } newKey _ _

/-- Guessing the section of one key changes no node. -/
@[simp] theorem nodes_assignSection (names : List QualifiedName) (forest : Forest) (key : String) :
    (assignSection names forest key).nodes = forest.nodes := by
  unfold assignSection
  split
  · rfl
  · exact nodes_rekey forest key _

/-- Guessing sections changes no node. -/
@[simp] theorem nodes_assignSections (forest : Forest) :
    forest.assignSections.nodes = forest.nodes :=
  foldl_keeps nodes (fun forest key _ => nodes_assignSection _ forest key) forest

/-- Guessing sections leaves the nodes as they are. -/
@[simp] theorem node_assignSections (forest : Forest) (id : NodeId) :
    forest.assignSections.node id = forest.node id :=
  node_eq_of_nodes_eq (nodes_assignSections forest) id

/-- Entering a keyed node changes no node. -/
@[simp] theorem nodes_enterSeat (forest : Forest) (seat : Seat) :
    (forest.enterSeat seat).nodes = forest.nodes := by
  unfold enterSeat
  simp only
  split
  · rfl
  · exact nodes_enter forest _ _

/-- Forests with the same nodes share every column. -/
theorem column_eq_of_nodes_eq {a b : Forest} (h : a.nodes = b.nodes) :
    a.column view = b.column view := by
  unfold column
  rw [h]

/-- Columns do not depend on the top. -/
@[simp] theorem column_setTop (forest : Forest) (top : List Edge) :
    ({ forest with top } : Forest).column view = forest.column view := rfl

/-- Columns do not depend on the diagnostics. -/
@[simp] theorem column_setDiagnostics (forest : Forest) (diagnostics : List Diagnostic) :
    ({ forest with diagnostics } : Forest).column view = forest.column view := rfl

/-- Clearing the root keeps every attribute but the children. -/
theorem column_clearRoot (hchildren : ∀ node children, view { node with children } = view node)
    (forest : Forest) : forest.clearRoot.column view = forest.column view := by
  unfold clearRoot
  split
  · exact column_modify (fun node => hchildren node _) forest _
  · rfl

/-- Naming a twin keeps every attribute but the bound id. -/
theorem column_nameTwin (hbound : ∀ node bound, view { node with bound } = view node)
    (forest : Forest) (seat : Seat) : (forest.nameTwin seat).column view = forest.column view := by
  unfold nameTwin
  split
  · exact column_modify (fun node => hbound node _) forest _
  · rfl

/-- Naming a node sets its id, its name and what is derived from them. -/
theorem view_nameNode (hname : ∀ node id name ownerText path,
      view { node with id, name, ownerText, path } = view node) (key : String) (node : Node) :
    view (nameNode key node) = view node := by
  unfold nameNode
  simp only
  split <;> exact hname node _ _ _ _

/-- Classifying a node sets its id and its type. -/
theorem view_classifyNode (hclassify : ∀ node id type, view { node with id, type } = view node)
    (node : Node) : view (classifyNode node) = view node := by
  unfold classifyNode
  split
  · exact hclassify node _ _
  · split
    · exact hclassify node _ _
    · rfl

/-- Nesting keeps every attribute that depends neither on children nor on names nor on the id of
a twin. -/
theorem column_nest (hchildren : ∀ node children, view { node with children } = view node)
    (hname : ∀ node id name ownerText path,
      view { node with id, name, ownerText, path } = view node)
    (hbound : ∀ node bound, view { node with bound } = view node) (forest : Forest) :
    forest.nest.column view = forest.column view := by
  have hseated : (forest.seats.foldl (seatChildren forest.seats) forest).column view =
      forest.column view :=
    foldl_keeps (column view)
      (fun forest seat _ => column_modify (fun node => hchildren node _) forest seat.id) forest
  have hnamed (seated : Forest) : (forest.seats.foldl nameSeat seated).column view =
      seated.column view :=
    foldl_keeps (column view)
      (fun forest seat _ => column_modify (view_nameNode hname seat.key) forest seat.id) seated
  have hentered (named : Forest) : (forest.seats.foldl enterSeat named).column view =
      named.column view :=
    foldl_keeps (column view)
      (fun forest seat _ => column_eq_of_nodes_eq (nodes_enterSeat forest seat)) named
  have htwinned (raised : Forest) : (forest.seats.foldl nameTwin raised).column view =
      raised.column view :=
    foldl_keeps (column view) (fun forest seat _ => column_nameTwin hbound forest seat) raised
  refine (htwinned _).trans ((column_clearRoot hchildren _).trans ?_)
  exact (hentered _).trans ((hnamed _).trans hseated)

/-- Moving the entry of a renamed constructor changes no node. -/
@[simp] theorem nodes_renameEntry (forest : Forest) (rename : String × NodeId) :
    (forest.renameEntry rename).nodes = forest.nodes := by
  unfold renameEntry
  split
  · exact nodes_enter _ _ _
  · rfl

/-- Classification keeps every attribute that ignores what it does to a node. -/
theorem column_classify (hclassify : ∀ node, view (classifyNode node) = view node)
    (forest : Forest) : forest.classify.column view = forest.column view := by
  unfold classify classifyAlong
  simp only
  rw [foldl_keeps (column view)
    fun forest rename _ => column_eq_of_nodes_eq (nodes_renameEntry forest rename)]
  exact foldl_keeps (column view) (fun forest id _ => column_modify hclassify forest id) forest

/-- Linking an alias keeps every attribute but the aliases. -/
theorem column_linkAlias (haliases : ∀ node aliases, view { node with aliases } = view node)
    (forest : Forest) (id : NodeId) : (forest.linkAlias id).column view = forest.column view := by
  unfold linkAlias
  split
  · exact column_modify (fun node => haliases node _) forest _
  · rfl

/-- Linking an alias changes nothing but nodes. -/
theorem rest_linkAlias (forest : Forest) (id : NodeId) :
    (forest.linkAlias id).rest = forest.rest := by
  unfold linkAlias
  split <;> rfl

/-- Copying documentation keeps every attribute that ignores it. -/
theorem column_copyDocs (hdocs : ∀ node source, view (fillDocs node source) = view node)
    (forest : Forest) (id : NodeId) : (forest.copyDocs id).column view = forest.column view :=
  foldl_keeps (column view)
    (fun forest _ _ => column_modify (fun node => hdocs node _) forest id) forest

/-- Copying documentation changes nothing but nodes. -/
theorem rest_copyDocs (forest : Forest) (id : NodeId) : (forest.copyDocs id).rest = forest.rest :=
  foldl_keeps rest (fun forest _ _ => rest_modify forest id _) forest

/-- Listing a class with its superclass keeps every attribute but subclasses and children. -/
theorem column_adopt (hadopt : ∀ node subclasses children,
      view { node with subclasses, children } = view node) (forest : Forest)
    (parent id : NodeId) : (forest.adopt parent id).column view = forest.column view := by
  unfold adopt
  simp only
  split
  · rw [column_setTop, column_modify fun node => hadopt node _ _]
  · rw [column_modify fun node => hadopt node _ _]

/-- Linking a class to its superclass keeps every attribute but subclasses and children. -/
theorem column_linkSuperclass (hadopt : ∀ node subclasses children,
      view { node with subclasses, children } = view node) (forest : Forest) (id : NodeId) :
    (forest.linkSuperclass id).column view = forest.column view := by
  unfold linkSuperclass
  simp only
  split
  · split
    · split
      · rfl
      · split
        · exact column_adopt hadopt forest _ id
        · rfl
    · rfl
  · rfl

/-- Merging inherited members keeps every attribute but children and hierarchy. -/
theorem column_mergeInto (hmerge : ∀ node children hierarchy,
      view { node with children, hierarchy } = view node) (lineage : Lineage) (forest : Forest)
    (id : NodeId) : (mergeInto lineage forest id).column view = forest.column view := by
  unfold mergeInto
  simp only
  split
  · rfl
  · rw [column_setDiagnostics, column_modify fun node => hmerge node _ _]

/-- Linking relations keeps every attribute that ignores aliases, documentation, subclasses,
children and hierarchy. -/
theorem column_linkRelations (haliases : ∀ node aliases, view { node with aliases } = view node)
    (hdocs : ∀ node source, view (fillDocs node source) = view node)
    (hadopt : ∀ node subclasses children, view { node with subclasses, children } = view node)
    (hmerge : ∀ node children hierarchy, view { node with children, hierarchy } = view node)
    (forest : Forest) : forest.linkRelations.column view = forest.column view := by
  unfold linkRelations linkAlong
  simp only
  rw [foldl_keeps (column view) fun forest id _ => column_mergeInto hmerge _ forest id,
    foldl_keeps (column view) fun forest id _ => column_linkSuperclass hadopt forest id,
    foldl_keeps (column view) fun forest id _ => column_copyDocs hdocs forest id,
    foldl_keeps (column view) fun forest id _ => column_linkAlias haliases forest id]

/-- Taking classes out of a node keeps every attribute but the children. -/
theorem column_dropClasses (hchildren : ∀ node children, view { node with children } = view node)
    (forest : Forest) (edge : Edge) :
    (forest.dropClasses edge).column view = forest.column view := by
  unfold dropClasses
  split
  · rfl
  · exact column_modify (fun node => hchildren node _) forest _

/-- Taking classes out of a node changes nothing but nodes. -/
theorem rest_dropClasses (forest : Forest) (edge : Edge) :
    (forest.dropClasses edge).rest = forest.rest := by
  unfold dropClasses
  split <;> rfl

/-- Lifting classes within a section keeps every attribute but the children. -/
theorem column_liftInSection (hchildren : ∀ node children, view { node with children } = view node)
    (forest : Forest) (id : NodeId) :
    (forest.liftInSection id).column view = forest.column view :=
  (column_modify (fun node => hchildren node _) _ id).trans <|
    foldl_keeps (column view) (fun forest edge _ => column_dropClasses hchildren forest edge) forest

/-- Lifting classes within a section changes nothing but nodes. -/
theorem rest_liftInSection (forest : Forest) (id : NodeId) :
    (forest.liftInSection id).rest = forest.rest :=
  foldl_keeps rest (fun forest edge _ => rest_dropClasses forest edge) forest

/-- Lifting classes keeps every attribute but the children. -/
theorem column_liftClasses (hchildren : ∀ node children, view { node with children } = view node)
    (forest : Forest) : forest.liftClasses.column view = forest.column view := by
  unfold liftClasses
  simp only
  rw [foldl_keeps (column view) fun forest id _ => column_liftInSection hchildren forest id]
  exact foldl_keeps (column view) (fun forest edge _ => column_dropClasses hchildren forest edge)
    forest

/-- Assigning output files to a branch keeps every attribute but output file, anchor and
partitions. -/
theorem column_assignBranch (hassign : ∀ (node : Node) outFile anchor,
      view { node with
        outFile, anchor, children := node.children.map (·.withPartition outFile) } = view node)
    (settings : Settings) (depth : Nat) (owner : Option String) (forest : Forest) (id : NodeId) :
    (assignBranch settings depth owner forest id).column view = forest.column view := by
  induction depth generalizing owner forest id with
  | zero => rfl
  | succ depth ih =>
    rw [assignBranch, foldl_keeps (column view) fun forest id _ => ih _ forest id]
    exact column_modify (fun node => hassign node _ _) forest id

/-- Assigning output files to a branch changes nothing but nodes. -/
theorem rest_assignBranch (settings : Settings) (depth : Nat) (owner : Option String)
    (forest : Forest) (id : NodeId) :
    (assignBranch settings depth owner forest id).rest = forest.rest := by
  induction depth generalizing owner forest id with
  | zero => rfl
  | succ depth ih =>
    rw [assignBranch, foldl_keeps rest fun forest id _ => ih _ forest id, rest_modify]

/-- Moving a branch keeps every attribute but output file and partitions. -/
theorem column_moveBranch (hmove : ∀ (node : Node) outFile,
      view { node with outFile, children := node.children.map (·.withPartition outFile) } =
        view node)
    (settings : Settings) (outFile : String) (depth : Nat) (forest : Forest) (id : NodeId) :
    (moveBranch settings outFile depth forest id).column view = forest.column view := by
  induction depth generalizing forest id with
  | zero => rfl
  | succ depth ih =>
    rw [moveBranch, foldl_keeps (column view) fun forest id _ => ih forest id]
    exact column_modify (fun node => hmove node _) forest id

/-- Moving a branch changes nothing but nodes. -/
theorem rest_moveBranch (settings : Settings) (outFile : String) (depth : Nat) (forest : Forest)
    (id : NodeId) : (moveBranch settings outFile depth forest id).rest = forest.rest := by
  induction depth generalizing forest id with
  | zero => rfl
  | succ depth ih =>
    rw [moveBranch, foldl_keeps rest fun forest id _ => ih forest id, rest_modify]

/-- Redirecting an extension keeps every attribute but output file and partitions. -/
theorem column_redirectExtension (hmove : ∀ (node : Node) outFile,
      view { node with outFile, children := node.children.map (·.withPartition outFile) } =
        view node)
    (settings : Settings) (forest : Forest) (id : NodeId) :
    (redirectExtension settings forest id).column view = forest.column view := by
  unfold redirectExtension
  simp only
  split
  · rfl
  · split
    · rfl
    · exact column_moveBranch hmove settings _ _ forest id

/-- Redirecting an extension changes nothing but nodes. -/
theorem rest_redirectExtension (settings : Settings) (forest : Forest) (id : NodeId) :
    (redirectExtension settings forest id).rest = forest.rest := by
  unfold redirectExtension
  simp only
  split
  · rfl
  · split
    · rfl
    · exact rest_moveBranch settings _ _ forest id

/-- Once classes are lifted where the policy asks for it, assigning output files keeps every
attribute but output file, anchor and partitions. -/
theorem column_assignPartitions_shaped (hassign : ∀ (node : Node) outFile anchor,
      view { node with
        outFile, anchor, children := node.children.map (·.withPartition outFile) } = view node)
    (settings : Settings) (forest : Forest) :
    (forest.assignPartitions settings).column view =
      (if settings.policy = .liftClasses then forest.liftClasses else forest).column view := by
  unfold assignPartitions redirected partitioned
  simp only
  rw [foldl_keeps (column view) fun forest id _ => column_redirectExtension
      (fun node outFile => hassign node outFile node.anchor) settings forest id,
    foldl_keeps (column view) fun forest id _ => column_assignBranch hassign settings _ none forest
      id]

/-- Assigning output files keeps every attribute that ignores children, output file and anchor. -/
theorem column_assignPartitions (hplace : ∀ node children outFile anchor,
      view { node with children, outFile, anchor } = view node) (settings : Settings)
    (forest : Forest) : (forest.assignPartitions settings).column view = forest.column view := by
  rw [column_assignPartitions_shaped fun node outFile anchor => hplace node _ outFile anchor]
  split
  · exact column_liftClasses (fun node children => hplace node children _ _) forest
  · rfl

/-- What happens after classification keeps every attribute that ignores documentation, children and
what is derived from relations and places. -/
theorem column_placed (hdocs : ∀ node source, view (fillDocs node source) = view node)
    (hset : ∀ node children aliases subclasses hierarchy outFile anchor,
      view { node with children, aliases, subclasses, hierarchy, outFile, anchor } = view node)
    (settings : Settings) (forest : Forest) :
    (forest.linkRelations.assignPartitions settings).column view = forest.column view := by
  rw [column_assignPartitions fun node children => hset node children _ _ _]
  exact column_linkRelations (fun node aliases => hset node _ aliases _ _ _ _) hdocs
    (fun node subclasses children => hset node children _ subclasses _ _ _)
    (fun node children hierarchy => hset node children _ _ hierarchy _ _) forest

/-- A resolution keeps every attribute that ignores names, types, documentation, children and what
is derived from relations and places. -/
theorem column_resolve (hname : ∀ node id name ownerText path,
      view { node with id, name, ownerText, path } = view node)
    (hclassify : ∀ node, view (classifyNode node) = view node)
    (hdocs : ∀ node source, view (fillDocs node source) = view node)
    (hset : ∀ node children bound aliases subclasses hierarchy outFile anchor,
      view { node with children, bound, aliases, subclasses, hierarchy, outFile, anchor } =
        view node)
    (settings : Settings) (forest : Forest) :
    (forest.resolve settings).column view = forest.column view := by
  unfold resolve
  rw [column_placed hdocs fun node children => hset node children _, column_classify hclassify,
    column_nest (fun node children => hset node children _ _ _ _ _ _) hname
      (fun node bound => hset node _ bound _ _ _ _ _)]
  exact column_eq_of_nodes_eq (nodes_assignSections forest)

end SymbolTree.Forest
