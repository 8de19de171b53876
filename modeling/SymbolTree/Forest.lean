import SymbolTree.Collection
import SymbolTree.Forest.Node
import SymbolTree.Name.Order

/-!
# The forest of symbols

A `Forest` is the state of a resolution: the nodes, what is known about their places, and the
diagnostics so far. It starts with one node per collected record and no edges.
-/

namespace SymbolTree

/-- Section 2, `Resolver`: a forest under construction. -/
structure Forest where
  /-- All nodes. -/
  nodes : Array Node
  /-- Nodes by collection key, until they have a place. -/
  keys : KeyMap NodeId
  /-- Links to the top-level nodes. -/
  top : List Edge
  /-- Nodes by final id. Sections are left out. -/
  lookup : KeyMap NodeId
  /-- Problems so far, in the order in which they were found. -/
  diagnostics : List Diagnostic

namespace Forest

/-- The node at a position. -/
def node (forest : Forest) (id : NodeId) : Node := forest.nodes.getD id default

/-- Change the node at a position. -/
def modify (forest : Forest) (id : NodeId) (f : Node → Node) : Forest :=
  { forest with nodes := forest.nodes.modify id f }

/-- Record a problem. -/
def report (forest : Forest) (diagnostic : Diagnostic) : Forest :=
  { forest with diagnostics := forest.diagnostics ++ [diagnostic] }

/-- Link two nodes as bound twins, if both keys have nodes. -/
def linkTwins (forest : Forest) (pair : String × String) : Forest :=
  match forest.keys.get? pair.1, forest.keys.get? pair.2 with
  | some a, some b =>
    (forest.modify a fun node => { node with boundSibling := some b }).modify b
      fun node => { node with boundSibling := some a }
  | _, _ => forest

/-- The nodes of a collection before twins are linked: one per record, in key order. -/
def unlinked (collection : Collection) : Forest where
  nodes := (collection.records.values.map Node.ofRecord).toArray
  keys := collection.records.indices
  top := []
  lookup := .empty
  diagnostics := collection.diagnostics

/-- Section 2, `Resolver::new`: the nodes of a collection, with all twins linked. -/
def ofCollection (collection : Collection) : Forest :=
  collection.boundPairs.foldl linkTwins (unlinked collection)

/-- Section 5, `settle_clash`: settle which of two nodes keeps an id. The holder gives way to a node
of strictly smaller precedence, and the clash is recorded either way. -/
def settleClash (forest : Forest) (id : String) (holder incoming : NodeId) : NodeId × Forest :=
  let old := forest.node holder
  let new := forest.node incoming
  if new.precedence.beats old.precedence then
    (incoming, forest.report (.nameClash id new.location old.location))
  else (holder, forest.report (.nameClash id old.location new.location))

/-- Enter a node under its final id, settling a clash with the present holder. -/
def enter (forest : Forest) (id : String) (incoming : NodeId) : Forest :=
  match forest.lookup.get? id with
  | none => { forest with lookup := forest.lookup.insert id incoming }
  | some holder =>
    let (winner, settled) := forest.settleClash id holder incoming
    { settled with lookup := settled.lookup.insert id winner }

/-- A node and all nodes below it by owned edges, later branches first. `depth` bounds how far down
the branches are followed. -/
def branch (forest : Forest) : (depth : Nat) → NodeId → List NodeId
  | 0, _ => []
  | depth + 1, id => id :: (forest.node id).ownedChildren.reverse.flatMap (forest.branch depth)

/-- Every node with a place, later branches first. No branch is longer than the number of nodes. -/
def reachable (forest : Forest) : List NodeId :=
  (forest.top.map (·.child)).reverse.flatMap (forest.branch forest.nodes.size)

/-- The order in which symbols are resolved: by id, then by precedence. -/
def resolutionLE (forest : Forest) (a b : NodeId) : Bool :=
  let x := forest.node a
  let y := forest.node b
  ((compareIds x.id y.id).then (x.precedence.compare y.precedence)).isLE

/-- Section 5, `placed`: every node with a place that is no section, in the order of resolution. -/
def placed (forest : Forest) : List NodeId :=
  (forest.reachable.filter fun id => !(forest.node id).isSection).mergeSort forest.resolutionLE

/-- The text before a given ending. -/
def stripEnding? (ending text : String) : Option String :=
  if ending.toList <:+ text.toList then
    some (String.ofList (text.toList.take (text.toList.length - ending.toList.length)))
  else none

/-- Section 4.5, `resolve_reference`: the node that a reference means. Constructors are also found
under the id that they had before they were renamed. -/
def resolveReference (forest : Forest) (reference : String) : Option NodeId :=
  match forest.lookup.get? reference with
  | some id => some id
  | none => (stripEnding? ".new" reference).bind fun base => forest.lookup.get? ("new " ++ base)

end Forest

end SymbolTree
