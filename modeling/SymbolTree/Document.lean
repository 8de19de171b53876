import SymbolTree.Json.Writer
import SymbolTree.Resolution

/-!
# Documents

A document shows a resolved tree to readers. A `NodeView` is a node as it is seen through the edge
that leads to it. Below an inherited member only owned children are shown: following inherited edges
again could lead back to the class that lists the member.
-/

namespace SymbolTree

/-- A node as seen through an edge. -/
structure NodeView where
  /-- The node. -/
  node : Node
  /-- The output file in which it is shown. -/
  outFile : String
  /-- The ancestor that it comes from, when it is inherited. -/
  inheritedFrom : Option String
  /-- Its children. -/
  children : List NodeView

namespace NodeView

/-- Section 9, `from_edge`: view the node behind an edge, with the members that it inherits if they
are asked for and the edge is owned. `depth` bounds how far down. -/
def ofEdge (tree : ResolvedTree) : (depth : Nat) → (withInherited : Bool) → Edge → NodeView
  | 0, _, edge => ⟨tree.node edge.child, "", none, []⟩
  | depth + 1, withInherited, edge =>
    let node := tree.node edge.child
    let below := withInherited && edge.isOwned
    { node
      outFile := edge.partition?.getD node.outFile
      inheritedFrom := edge.inheritedFrom?
      children := (node.children.filter fun child => below || child.isOwned).map
        (ofEdge tree depth below) }

/-- Section 9, `from_node`: where the node is found, its output file and its place inside. -/
def link (view : NodeView) : String :=
  match view.node.anchor with
  | some anchor => view.outFile ++ "#" ++ anchor
  | none => view.outFile

end NodeView

/-- Section 9, `RESERVED_KEYS`: the names of the fields of a view. Extras never take their place. -/
def reservedFields : List String :=
  ["id", "name", "name_prefix", "path", "type", "description", "short_description", "file", "line",
    "superclass", "subclasses", "inherits", "hierarchy", "alias_of", "aliases", "bound",
    "extension", "out_file", "anchor", "link", "inherited_from", "children"]

mutual

/-- An ancestor as a value. -/
def Ancestor.toJson : Ancestor → Json
  | ⟨id, parents⟩ =>
    .object <| ("id", .string id) ::
      match parents with
      | [] => []
      | _ :: _ => [("parents", .array (Ancestor.listToJson parents))]

/-- Ancestors as values. -/
def Ancestor.listToJson : List Ancestor → List Json
  | [] => []
  | ancestor :: rest => ancestor.toJson :: Ancestor.listToJson rest

end

namespace NodeView

/-- A field that is left out when its text is empty. -/
def textField (name text : String) : List (String × Json) :=
  if text.isEmpty then [] else [(name, .string text)]

/-- A field that is left out when there is no text. -/
def optionalField (name : String) (text : Option String) : List (String × Json) :=
  text.toList.map fun text => (name, .string text)

/-- A field that is left out when its list is empty. -/
def listField (name : String) (items : List Json) : List (String × Json) :=
  if items.isEmpty then [] else [(name, .array items)]

/-- The extras of a node that do not collide with a field of a view. -/
def extras (node : Node) : KeyMap Json :=
  node.extra.filter fun name _ => !reservedFields.contains name

/-- Section 9, `from_node`: the fields of a view before its children. -/
def leadingFields (view : NodeView) : List (String × Json) :=
  let node := view.node
  [("id", .string node.id), ("name", .string node.name)]
    ++ textField "name_prefix" node.ownerText
    ++ [("path", .string node.path), ("type", .string node.type.text)]
    ++ textField "description" node.description
    ++ textField "short_description" node.summary
    ++ [("file", .string node.location.file.text), ("line", .ofNat node.location.line.toNat)]
    ++ optionalField "superclass" node.superclass
    ++ listField "subclasses" (node.subclasses.map .string)
    ++ listField "inherits" (node.inherits.map .string)
    ++ listField "hierarchy" (Ancestor.listToJson node.hierarchy)
    ++ optionalField "alias_of" node.aliasOf
    ++ listField "aliases" (node.aliases.map .string)
    ++ optionalField "bound" node.bound
    ++ (if node.extension then [("extension", .bool true)] else [])
    ++ [("out_file", .string view.outFile)]
    ++ optionalField "anchor" node.anchor
    ++ [("link", .string view.link)]
    ++ optionalField "inherited_from" view.inheritedFrom
    ++ (extras node).entries

mutual

/-- A view as a value. -/
def toJson : NodeView → Json
  | ⟨node, outFile, inheritedFrom, children⟩ =>
    .object <| leadingFields ⟨node, outFile, inheritedFrom, []⟩
      ++ listField "children" (listToJson children)

/-- Views as values. -/
def listToJson : List NodeView → List Json
  | [] => []
  | view :: rest => view.toJson :: listToJson rest

end

end NodeView

/-- Section 9, `DocumentView`: a rendered tree. -/
structure Document where
  /-- Title of the documentation. -/
  title : String
  /-- When the document was made. -/
  date : String
  /-- Global objects that exist without being documented. -/
  globals : List String
  /-- The top-level nodes. -/
  tree : List NodeView

namespace Document

/-- Section 9, `DocumentView::new`: the document of a tree. An owned path visits each node at most
once, and so does the path below an inherited edge. -/
def ofTree (tree : ResolvedTree) (title date : String) (globals : List String) : Document where
  title
  date
  globals
  tree := tree.top.map (NodeView.ofEdge tree (2 * tree.nodes.size + 1) true)

/-- A document as a value. -/
def toJson (document : Document) : Json :=
  .object [("title", .string document.title), ("date", .string document.date),
    ("globals", .ofTexts document.globals), ("tree", .array (NodeView.listToJson document.tree))]

/-- Section 15.5, `to_bytes`: the text of a document. -/
def text (document : Document) (indent : Bool) : String :=
  if indent then document.toJson.indented else document.toJson.compact

end Document

end SymbolTree
