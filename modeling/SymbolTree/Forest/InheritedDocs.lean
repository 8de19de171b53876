import SymbolTree.Forest

/-!
# Inherited documentation

A symbol may name another one to copy missing documentation from, which may name a third one, and so
on. Each source along this chain fills what is still empty.
-/

namespace SymbolTree.Forest

/-- The sources of documentation that follow a node, up to an unresolved reference or a node that was
visited before. `length` bounds the chain. -/
def docSources (forest : Forest) : (length : Nat) → (visited : List NodeId) → NodeId → List NodeId
  | 0, _, _ => []
  | length + 1, visited, id =>
    match (forest.node id).inheritDoc.bind forest.resolveReference with
    | some source =>
      if source ∈ visited then []
      else source :: forest.docSources length (source :: visited) source
    | none => []

/-- Fill what is missing in `node` from `source`. -/
def fillDocs (node source : Node) : Node :=
  { node with
    description := if node.description.isEmpty then source.description else node.description
    summary := if node.summary.isEmpty then source.summary else node.summary
    extra := source.extra.entries.foldl (fun extra entry => extra.insertIfNew entry.1 entry.2)
      node.extra }

/-- Section 15.3, `copy_inherited_docs`: fill the documentation of one node. -/
def copyDocs (forest : Forest) (id : NodeId) : Forest :=
  (forest.docSources forest.nodes.size [id] id).foldl
    (fun forest source => forest.modify id fun node => fillDocs node (forest.node source)) forest

end SymbolTree.Forest
