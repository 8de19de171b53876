/-!
# Qualified names

The id of a documented symbol names its owner and its place in it: `Owner.static`,
`Owner#instance`, `Owner@event`. A `QualifiedName` is the parsed form of such an id, a leading
segment followed by members, each joined by its qualifier.

The first `@` starts the last member, which keeps the rest of the id verbatim. Before it every `.`
and every `#` starts a member, so segments may be empty.

Here and elsewhere, a comment cites the section of the specification and the operation that a
definition renders.
-/

namespace SymbolTree

/-- Section 3: how a segment is joined to its owner. -/
inductive Qualifier where
  /-- `.`: a class member or a nested entity. -/
  | static
  /-- `#`: an instance member. -/
  | inst
  /-- `@`: an event. -/
  | event
deriving DecidableEq, Repr

namespace Qualifier

/-- Section 3, `as_char`: the delimiter in an id. -/
def mark : Qualifier → Char
  | .static => '.'
  | .inst => '#'
  | .event => '@'

/-- Section 3, `path_fragment`: the delimiter in a navigation path. -/
def pathMark : Qualifier → List Char
  | .static => ['.']
  | .inst => ".prototype.".toList
  | .event => ".event.".toList

end Qualifier

/-- Whether a character is one of the three delimiters. -/
def isDelimiter (c : Char) : Bool := c == '.' || c == '#' || c == '@'

/-- Section 3: a parsed id, which is a leading segment and the members below it, outermost first. -/
structure QualifiedName where
  /-- The leading segment. In a collection key it names the section. -/
  head : String
  /-- The segments after the leading one, each with the qualifier that joins it. -/
  members : List (Qualifier × String)
deriving DecidableEq, Repr

namespace QualifiedName

/-- Split an id into its leading segment and its members. -/
def split : List Char → List Char × List (Qualifier × List Char)
  | [] => ([], [])
  | c :: rest =>
    if c = '@' then ([], [(.event, rest)])
    else
      let (segment, members) := split rest
      if c = '.' then ([], (.static, segment) :: members)
      else if c = '#' then ([], (.inst, segment) :: members)
      else (c :: segment, members)

/-- Section 3, `parse`: the structure of an id. -/
def parse (id : String) : QualifiedName :=
  let (head, members) := split id.toList
  ⟨String.ofList head, members.map fun member => (member.1, String.ofList member.2)⟩

/-- The characters of an id. -/
def chars (name : QualifiedName) : List Char :=
  name.head.toList ++ name.members.flatMap fun member => member.1.mark :: member.2.toList

/-- The id of a name. -/
def text (name : QualifiedName) : String := String.ofList name.chars

/-- Section 3, `second`: the segment right after the leading one. -/
def second? (name : QualifiedName) : Option String := name.members.head?.map (·.2)

/-- Section 3, `qualifier`: the qualifier of the trailing segment; a bare head has none. -/
def qualifier? (name : QualifiedName) : Option Qualifier := name.members.getLast?.map (·.1)

/-- Section 3, `contains`: whether some segment is joined by `qualifier`. -/
def hasQualifier (name : QualifiedName) (qualifier : Qualifier) : Bool :=
  name.members.any (·.1 == qualifier)

/-- Section 3, `name`: the trailing segment. -/
def lastSegment (name : QualifiedName) : String :=
  match name.members.getLast? with
  | some member => member.2
  | none => name.head

/-- Section 3, `parent`: the name without its trailing segment. A bare head has no parent. -/
def parent? (name : QualifiedName) : Option QualifiedName :=
  if name.members.isEmpty then none else some { name with members := name.members.dropLast }

/-- Section 3, `name_prefix`: the id up to the trailing segment, the last delimiter included. -/
def ownerText (name : QualifiedName) : String :=
  match name.parent?, name.qualifier? with
  | some parent, some qualifier => String.ofList (parent.chars ++ [qualifier.mark])
  | _, _ => ""

/-- Section 3, `strip_head`: the name below its leading section. Sections are joined by `.`, so a
name whose first delimiter is another one has no section to drop. -/
def dropSection (name : QualifiedName) : QualifiedName :=
  match name.members with
  | (.static, first) :: rest => ⟨first, rest⟩
  | _ => name

/-- Section 3, `with_head`: the same members under another leading segment. -/
def withHead (name : QualifiedName) (head : String) : QualifiedName := { name with head }

/-- Section 3, `to_instance_member`: the instance member that stands beside a class member, `A#b`
for `A.b`. -/
def instanceTwin? (name : QualifiedName) : Option QualifiedName :=
  match name.members.getLast? with
  | some (.static, segment) =>
    some { name with members := name.members.dropLast ++ [(.inst, segment)] }
  | _ => none

/-- Section 4.3, `path`: the navigation path, in which instance members stand below `prototype` and
events below `event`. -/
def path (name : QualifiedName) : String :=
  String.ofList <|
    name.head.toList ++ name.members.flatMap fun member => member.1.pathMark ++ member.2.toList

end QualifiedName

end SymbolTree
