import SymbolTree.Forest.Ancestry
import SymbolTree.Forest.Backlinks
import SymbolTree.Forest.Classification
import SymbolTree.Forest.InheritedDocs
import SymbolTree.Forest.Nesting
import SymbolTree.Forest.Partition
import SymbolTree.Forest.Sections

/-!
# Resolution

A collection is resolved in a fixed order: sections are guessed, nodes are nested and classified,
relations between them are linked, and output files are assigned.
-/

namespace SymbolTree

/-- Section 2, `DocTree`: a resolved collection. -/
structure ResolvedTree where
  /-- All nodes. -/
  nodes : Array Node
  /-- Links to the top-level nodes. -/
  top : List Edge
  /-- Nodes by final id. Sections are left out. -/
  lookup : KeyMap NodeId
  /-- Problems, in the order in which they were found. -/
  diagnostics : List Diagnostic
  /-- The source files, in the order in which they were added. -/
  files : List SourcePath

namespace Forest

/-- Link aliases, documentation, superclasses and inherited members of nodes in an order. -/
def linkAlong (forest : Forest) (order : List NodeId) : Forest :=
  let aliased := order.foldl linkAlias forest
  let documented := order.foldl copyDocs aliased
  let grouped := order.foldl linkSuperclass documented
  order.foldl (mergeInto grouped.lineage) grouped

/-- Section 4.5, `link_relations`: link the relations of every placed node. Their order is fixed at
the start. -/
def linkRelations (forest : Forest) : Forest := forest.linkAlong forest.placed

/-- Section 2, `run`: all stages of a resolution. -/
def resolve (settings : Settings) (forest : Forest) : Forest :=
  forest.assignSections.nest.classify.linkRelations.assignPartitions settings

end Forest

namespace Collection

/-- Section 5, `resolve`: resolve the records of a collection. -/
def resolve (collection : Collection) (settings : Settings) : ResolvedTree :=
  let forest := (Forest.ofCollection collection).resolve settings
  { nodes := forest.nodes
    top := forest.top
    lookup := forest.lookup
    diagnostics := forest.diagnostics
    files := collection.files }

end Collection

namespace ResolvedTree

/-- The node at a position. -/
def node (tree : ResolvedTree) (id : NodeId) : Node := tree.nodes.getD id default

/-- Section 2, `get`: the node with a final id. -/
def get? (tree : ResolvedTree) (id : String) : Option Node := (tree.lookup.get? id).map tree.node

/-- Section 2, `len`: the number of addressable symbols. -/
def size (tree : ResolvedTree) : Nat := tree.lookup.size

/-- Whether there is no addressable symbol. -/
def isEmpty (tree : ResolvedTree) : Bool := tree.lookup.entries.isEmpty

end ResolvedTree

end SymbolTree
