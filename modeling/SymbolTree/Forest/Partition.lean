import SymbolTree.Forest
import SymbolTree.Settings

/-!
# Output files

Every node is assigned the output file that it belongs to, from the top level down. Inherited members
are shown in the output file of the class that lists them. Members that augment a symbol of another
file follow that symbol.
-/

namespace SymbolTree.Forest

/-- Section 4.6, `file_partition`: the output file of a node's source file, its lower-cased stem. -/
def filePartition (settings : Settings) (node : Node) : String :=
  settings.partitionName (Text.lowerCase (node.location.file.stem?.getD ""))

/-- The output file of a node whose owner has the output file `owner`. -/
def partitionOf (settings : Settings) (node : Node) (owner : Option String) : String :=
  if node.isSection then ""
  else
    match settings.policy, node.isClass, owner with
    | .perClass, true, _ => settings.partitionName node.id
    | .perClass, false, some owner => owner
    | _, _, _ => filePartition settings node

/-- Classes and sections are whole output files or more; every other node has a place inside one. -/
def anchorOf (node : Node) : Option String :=
  if node.isSection || node.isClass then none else some node.path

/-- Section 4.6, `assign_subtree`: assign output files to a node and all that it owns. `depth`
bounds how far down. -/
def assignBranch (settings : Settings) :
    (depth : Nat) → (owner : Option String) → Forest → NodeId → Forest
  | 0, _, forest, _ => forest
  | depth + 1, owner, forest, id =>
    let node := forest.node id
    let outFile := partitionOf settings node owner
    let assigned := forest.modify id fun node =>
      { node with
        outFile
        anchor := anchorOf node
        children := node.children.map (·.withPartition outFile) }
    let below := if node.isSection then none else some outFile
    node.ownedChildren.foldl (assignBranch settings depth below) assigned

/-- Section 4.6, `repartition`: move a node, and what it owns, to another output file. With one
output file per class, the classes below it stay where they are. `depth` bounds how far down. -/
def moveBranch (settings : Settings) (outFile : String) :
    (depth : Nat) → Forest → NodeId → Forest
  | 0, forest, _ => forest
  | depth + 1, forest, id =>
    let node := forest.node id
    let moved := forest.modify id fun node =>
      { node with outFile, children := node.children.map (·.withPartition outFile) }
    let follows (child : NodeId) : Bool :=
      !(settings.policy == .perClass && (forest.node child).isClass)
    (node.ownedChildren.filter follows).foldl (moveBranch settings outFile depth) moved

/-- Section 4.6, `owner_candidates`: the ids under which the owner of an id may be found, which are
the id without its trailing segment, also without the delimiters that it starts with. -/
def ownerCandidates (id : String) : List String :=
  match (QualifiedName.parse id).parent? with
  | none => []
  | some owner =>
    let text := owner.text
    let trimmed := String.ofList (text.toList.dropWhile isDelimiter)
    if trimmed = text then [text] else [text, trimmed]

/-- The symbol that an extension augments. -/
def extensionOwner? (forest : Forest) (id : NodeId) : Option NodeId :=
  ((ownerCandidates (forest.node id).id).findSome? forest.lookup.get?).filter (· ≠ id)

/-- Section 4.6, `redirect_extensions`: move one extension to the output file of the symbol that it
augments. -/
def redirectExtension (settings : Settings) (forest : Forest) (id : NodeId) : Forest :=
  let node := forest.node id
  if !node.extension || node.isClass || node.isSection then forest
  else
    match forest.extensionOwner? id with
    | none => forest
    | some owner => moveBranch settings (forest.node owner).outFile forest.nodes.size forest id

/-- Whether an edge leads to an owned class. -/
def leadsToClass (forest : Forest) (edge : Edge) : Bool :=
  edge.isOwned && (forest.node edge.child).isClass

/-- Section 4.6, `hoist_from`: the branches of a list, each one that is no section followed by the
classes it owns. -/
def liftedEdges (forest : Forest) (edges : List Edge) : List Edge :=
  edges.flatMap fun edge =>
    let node := forest.node edge.child
    if node.isSection then [edge] else edge :: node.children.filter forest.leadsToClass

/-- Take the classes that a node owns out of its children, unless it is a section. -/
def dropClasses (forest : Forest) (edge : Edge) : Forest :=
  if (forest.node edge.child).isSection then forest
  else
    forest.modify edge.child fun node =>
      { node with children := node.children.filter fun e => !forest.leadsToClass e }

/-- Lift the classes out of the direct children of a section. -/
def liftInSection (forest : Forest) (id : NodeId) : Forest :=
  let children := (forest.node id).children
  let lifted := forest.liftedEdges children
  (children.foldl dropClasses forest).modify id fun node => { node with children := lifted }

/-- Section 4.6, `hoist_namespace_classes`: lift classes out of the top-level nodes and out of the
direct children of top-level sections. -/
def liftClasses (forest : Forest) : Forest :=
  let lifted := forest.liftedEdges forest.top
  let raised := { forest.top.foldl dropClasses forest with top := lifted }
  let sections := (lifted.map (·.child)).filter fun id => (raised.node id).isSection
  sections.foldl liftInSection raised

/-- The forest after output files are assigned, before extensions are moved. -/
def partitioned (settings : Settings) (forest : Forest) : Forest :=
  (forest.top.map (·.child)).foldl (assignBranch settings forest.nodes.size none) forest

/-- The forest after all extensions are redirected. -/
def redirected (settings : Settings) (forest : Forest) : Forest :=
  forest.placed.foldl (redirectExtension settings) forest

/-- Section 4.6, `assign_partitions`: assign output files to all placed nodes. -/
def assignPartitions (settings : Settings) (forest : Forest) : Forest :=
  let shaped := if settings.policy = .liftClasses then forest.liftClasses else forest
  (shaped.partitioned settings).redirected settings

end SymbolTree.Forest
