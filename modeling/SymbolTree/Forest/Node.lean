import SymbolTree.Record

/-!
# Nodes and edges

A resolved symbol is a node, and nodes refer to each other by their position in an array. A node owns
most of its children; a class also lists members that it inherits, which some ancestor owns.
-/

namespace SymbolTree

/-- Section 3, `NodeType`: what a resolved symbol is. Methods and properties are told apart by where
they live. -/
inductive NodeType where
  | «section»
  | «class»
  | method
  | property
  | instanceMethod
  | instanceProperty
  | classMethod
  | classProperty
  | constructor
  | event
  | cfg
  | cssVar
  | cssMixin
  | utility
deriving DecidableEq, Repr, Inhabited

namespace NodeType

/-- Section 3, `as_str`: the name of a type. -/
def text : NodeType → String
  | .section => "section"
  | .class => "class"
  | .method => "method"
  | .property => "property"
  | .instanceMethod => "instance method"
  | .instanceProperty => "instance property"
  | .classMethod => "class method"
  | .classProperty => "class property"
  | .constructor => "constructor"
  | .event => "event"
  | .cfg => "cfg"
  | .cssVar => "css_var"
  | .cssMixin => "css_mixin"
  | .utility => "utility"

/-- The type of a record before classification. -/
def ofKind : RecordKind → NodeType
  | .section => .section
  | .class => .class
  | .method => .method
  | .property => .property
  | .constructor => .constructor
  | .event => .event
  | .cfg => .cfg
  | .cssVar => .cssVar
  | .cssMixin => .cssMixin
  | .utility => .utility

/-- Section 4.4, `is_generic_member`: methods and properties stay open to a finer classification. -/
def isGeneric (type : NodeType) : Bool := type == .method || type == .property

end NodeType

/-- The position of a node. -/
abbrev NodeId := Nat

/-- Section 3, `ChildRef`: a link from a node to one of its children. -/
inductive Edge where
  /-- A child that the node owns. -/
  | owned (child : NodeId)
  /-- A member merged from an ancestor, and the output file in which it is shown. -/
  | inherited (child : NodeId) (ancestor : String) (partition : Option String)
deriving DecidableEq, Repr

namespace Edge

/-- The child. -/
def child : Edge → NodeId
  | .owned child => child
  | .inherited child _ _ => child

/-- Whether the child is owned. -/
def isOwned : Edge → Bool
  | .owned _ => true
  | .inherited .. => false

/-- The ancestor that an inherited member comes from. -/
def inheritedFrom? : Edge → Option String
  | .owned _ => none
  | .inherited _ ancestor _ => some ancestor

/-- The output file in which an inherited member is shown. -/
def partition? : Edge → Option String
  | .owned _ => none
  | .inherited _ _ partition => partition

/-- Show an inherited member in an output file. Owned children have an output file of their own. -/
def withPartition (name : String) : Edge → Edge
  | .owned child => .owned child
  | .inherited child ancestor _ => .inherited child ancestor (some name)

end Edge

/-- An ancestor of a class, with its own ancestors. -/
structure Ancestor where
  /-- The id of the ancestor. -/
  id : String
  /-- The classes that it inherits from. -/
  parents : List Ancestor

/-- Section 3, `Node`: a resolved symbol. -/
structure Node where
  /-- Id relative to the section. -/
  id : String
  /-- Trailing segment of the id. -/
  name : String
  /-- The id up to its trailing segment. -/
  ownerText : String
  /-- Navigation path. -/
  path : String
  /-- What the symbol is. -/
  type : NodeType
  /-- Full description. -/
  description : String
  /-- One-line summary. -/
  summary : String
  /-- Where the symbol is declared. -/
  location : SourceLocation
  /-- The class that this class extends. -/
  superclass : Option String
  /-- Ids of the classes that extend this one. -/
  subclasses : List String
  /-- The classes whose members are merged into this one. -/
  inherits : List String
  /-- The ancestors that were found while merging. -/
  hierarchy : List Ancestor
  /-- The symbol that this one is another name for. -/
  aliasOf : Option String
  /-- Ids of the other names of this symbol. -/
  aliases : List String
  /-- Id of the bound twin. -/
  bound : Option String
  /-- Position of the bound twin. -/
  boundSibling : Option NodeId
  /-- Augments a symbol that another file defines. -/
  «extension» : Bool
  /-- The symbol to copy missing documentation from. -/
  inheritDoc : Option String
  /-- Links to the children, in order. -/
  children : List Edge
  /-- Output file. -/
  outFile : String
  /-- Place inside the output file. -/
  anchor : Option String
  /-- Fields that are passed on as they are. -/
  extra : KeyMap Json
deriving Inhabited

namespace Node

/-- Section 3, `from_record`: the node of a record, before anything is resolved. -/
def ofRecord (record : Record) : Node where
  id := record.id
  name := ""
  ownerText := ""
  path := ""
  type := .ofKind record.kind
  description := record.description
  summary := record.summary
  location := record.location
  superclass := record.superclass
  subclasses := []
  inherits := record.inherits
  hierarchy := []
  aliasOf := record.aliasOf
  aliases := []
  bound := none
  boundSibling := none
  «extension» := record.extension
  inheritDoc := record.inheritDoc
  children := []
  outFile := ""
  anchor := none
  extra := record.extra

/-- Whether the node is a section. -/
def isSection (node : Node) : Bool := node.type == .section

/-- Whether the node is a class. -/
def isClass (node : Node) : Bool := node.type == .class

/-- Section 3, `owned_children`: the links to the children that the node owns. -/
def ownedEdges (node : Node) : List Edge := node.children.filter (·.isOwned)

/-- The children that the node owns. -/
def ownedChildren (node : Node) : List NodeId := node.ownedEdges.map (·.child)

/-- Section 5, `precedence`: the rank of the node in a clash. -/
def precedence (node : Node) : Precedence :=
  ⟨node.location, node.type.text, node.description, node.summary⟩

end Node

end SymbolTree
