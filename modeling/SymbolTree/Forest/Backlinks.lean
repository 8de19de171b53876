import SymbolTree.Forest

/-!
# Backlinks

An alias is listed with the symbol it stands for, and a class with the class that it extends. A class
nested in its superclass becomes a branch of its own.
-/

namespace SymbolTree.Forest

/-- Append an item unless it is there already. -/
def appendNew (items : List String) (item : String) : List String :=
  if item ∈ items then items else items ++ [item]

/-- Section 4.5, `link_aliases`: list one node with the symbol that it is an alias of. -/
def linkAlias (forest : Forest) (id : NodeId) : Forest :=
  match (forest.node id).aliasOf.bind forest.resolveReference with
  | some target =>
    let aliasId := (forest.node id).id
    forest.modify target fun node => { node with aliases := appendNew node.aliases aliasId }
  | none => forest

/-- List a class with its superclass `parent`, and take it out of its children. -/
def adopt (forest : Forest) (parent id : NodeId) : Forest :=
  let classId := (forest.node id).id
  let nested := (forest.node parent).children.any (·.child == id)
  let linked := forest.modify parent fun node =>
    { node with
      subclasses := appendNew node.subclasses classId
      children := node.children.filter (·.child != id) }
  if nested then { linked with top := linked.top ++ [.owned id] } else linked

/-- Section 4.5, `group_subclasses`: link one class to its superclass. -/
def linkSuperclass (forest : Forest) (id : NodeId) : Forest :=
  let node := forest.node id
  match node.isClass, node.superclass with
  | true, some superclass =>
    match forest.lookup.get? superclass with
    | some parent =>
      if parent = id then forest.report (.cycle node.id [node.id, node.id])
      else if (forest.node parent).isClass then forest.adopt parent id
      else forest.report (.missingAncestor node.id superclass .superclass)
    | none => forest.report (.missingAncestor node.id superclass .superclass)
  | _, _ => forest

end SymbolTree.Forest
