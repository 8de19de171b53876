import SymbolTree.Forest

/-!
# Classification

Methods and properties receive their final type from the shape of their id, and constructors are
renamed to `new` followed by the name of their class.
-/

namespace SymbolTree.Forest

/-- Section 4.4, `classify_member`: the type of a method or property with an id. The first rule that
applies decides. -/
def memberType (id : String) (generic : NodeType) : NodeType :=
  let name := QualifiedName.parse id
  if id.toList.head? = some '$' then .utility
  else if name.hasQualifier .event then .event
  else if name.hasQualifier .inst then
    if generic = .method then .instanceMethod else .instanceProperty
  else if name.hasQualifier .static then
    if generic = .method then .classMethod else .classProperty
  else generic

/-- The id of a constructor after renaming. -/
def constructorId (id : String) : String := "new " ++ (stripEnding? ".new" id).getD id

/-- Classify one node on its own. -/
def classifyNode (node : Node) : Node :=
  if node.type = .constructor then { node with id := constructorId node.id }
  else if node.type.isGeneric then { node with type := memberType node.id node.type }
  else node

/-- Move the entry of a renamed constructor to its new id. A constructor that lost its old id stays
without an entry. -/
def renameEntry (forest : Forest) (rename : String × NodeId) : Forest :=
  if forest.lookup.get? rename.1 = some rename.2 then
    { forest with lookup := forest.lookup.erase rename.1 }.enter (forest.node rename.2).id rename.2
  else forest

/-- Classify nodes in an order. -/
def classifyAlong (forest : Forest) (order : List NodeId) : Forest :=
  let renames := (order.filter fun id => (forest.node id).type = .constructor).map
    fun id => ((forest.node id).id, id)
  let classified := order.foldl (fun forest id => forest.modify id classifyNode) forest
  renames.foldl renameEntry classified

/-- Section 4.4, `classify`: classify every placed node. -/
def classify (forest : Forest) : Forest := forest.classifyAlong forest.placed

end SymbolTree.Forest
