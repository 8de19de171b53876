import SymbolTree.Forest

/-!
# Nesting by key

Every node moves under the node whose key is its structural parent, if there is one. Children stand
in canonical order of their keys. The children of the root section, then all nodes without a parent,
make up the top level. Ids lose their section, and nodes other than sections become addressable by
what remains.
-/

namespace SymbolTree.Forest

/-- A keyed node with the key of its structural parent. -/
structure Seat where
  /-- The key. -/
  key : String
  /-- The key of the structural parent. -/
  parent : Option String
  /-- The node. -/
  id : NodeId

/-- The seat of an entry. -/
def seatOf (entry : String × NodeId) : Seat :=
  ⟨entry.1, (QualifiedName.parse entry.1).parent?.map (·.text), entry.2⟩

/-- The keyed nodes in canonical order of their keys. -/
def seats (forest : Forest) : List Seat := (sortByIds (·.1) forest.keys.entries).map seatOf

/-- The links to the nodes whose structural parent has a key. -/
def childrenOf (seats : List Seat) (key : String) : List Edge :=
  (seats.filter fun seat => seat.parent == some key).map fun seat => .owned seat.id

/-- Give a keyed node its children. -/
def seatChildren (seats : List Seat) (forest : Forest) (seat : Seat) : Forest :=
  forest.modify seat.id fun node => { node with children := childrenOf seats seat.key }

/-- Section 4.3, `rewrite_ids`: the name of a node after its section is dropped. The id of a section
is lower-cased. -/
def nameNode (key : String) (node : Node) : Node :=
  let relative := (QualifiedName.parse key).dropSection
  let named := { node with name := relative.lastSegment, ownerText := relative.ownerText }
  if node.isSection then
    let id := Text.lowerCase relative.text
    { named with id, path := id }
  else { named with id := relative.text, path := relative.path }

/-- Name one keyed node. -/
def nameSeat (forest : Forest) (seat : Seat) : Forest := forest.modify seat.id (nameNode seat.key)

/-- Make one keyed node addressable by its id, unless it is a section. -/
def enterSeat (forest : Forest) (seat : Seat) : Forest :=
  let node := forest.node seat.id
  if node.isSection then forest else forest.enter node.id seat.id

/-- What one keyed node contributes to the top level: nothing when it has a parent, its children when
it is the root section, and else itself. -/
def topEdges (forest : Forest) (seat : Seat) : List Edge :=
  if seat.parent.any forest.keys.contains then []
  else if seat.key = "" then (forest.node seat.id).children
  else [.owned seat.id]

/-- The root section hands its children to the top level. -/
def clearRoot (forest : Forest) : Forest :=
  match forest.keys.get? "" with
  | some root => forest.modify root fun node => { node with children := [] }
  | none => forest

/-- Tell a keyed node the id of its bound twin. -/
def nameTwin (forest : Forest) (seat : Seat) : Forest :=
  match (forest.node seat.id).boundSibling with
  | some sibling =>
    let id := (forest.node sibling).id
    forest.modify seat.id fun node => { node with bound := some id }
  | none => forest

/-- Nest keyed nodes in an order. -/
def nestAlong (forest : Forest) (seats : List Seat) : Forest :=
  let seated := seats.foldl (seatChildren seats) forest
  let named := seats.foldl nameSeat seated
  let entered := seats.foldl enterSeat named
  let raised := { entered with top := seats.flatMap entered.topEdges }.clearRoot
  let twinned := seats.foldl nameTwin raised
  { twinned with keys := .empty }

/-- Section 4.3, `build_hierarchy`: nest all keyed nodes. -/
def nest (forest : Forest) : Forest := forest.nestAlong forest.seats

end SymbolTree.Forest
