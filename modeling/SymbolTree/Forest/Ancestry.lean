import SymbolTree.Forest

/-!
# Merging inherited members

A class receives the members of all classes that it inherits from, directly or through others. The
ancestors are walked depth first in declaration order. A class that is already on the path of the
walk is reported as a cycle, a class that does not exist as missing, and neither is followed. Every
step extends the path by a class that exists, so the walk ends.
-/

namespace SymbolTree.Forest

/-- What a walk over ancestors finds, in the order of the walk. -/
structure AncestorWalk where
  /-- The ancestors that were followed. -/
  hierarchy : List Ancestor := []
  /-- Links to their members. -/
  members : List Edge := []
  /-- Problems. -/
  diagnostics : List Diagnostic := []

namespace AncestorWalk

/-- One walk after another. -/
def append (a b : AncestorWalk) : AncestorWalk :=
  ⟨a.hierarchy ++ b.hierarchy, a.members ++ b.members, a.diagnostics ++ b.diagnostics⟩

instance : Append AncestorWalk := ⟨append⟩

end AncestorWalk

/-- What a walk needs to know about the classes. -/
structure Lineage where
  /-- Classes by id. -/
  lookup : KeyMap NodeId
  /-- The classes that a node inherits from. -/
  inherits : NodeId → List String
  /-- Links to the members that a node owns. -/
  own : NodeId → List Edge

/-- The classes that are not on a path yet. -/
def Lineage.offPath (lineage : Lineage) (path : List String) : List String :=
  lineage.lookup.keys.filter (· ∉ path)

/-- Following a class leaves fewer classes off the path. -/
theorem Lineage.length_offPath_lt {lineage : Lineage} {path : List String} {id : String}
    {node : NodeId} (hfound : lineage.lookup.get? id = some node) (hpath : id ∉ path) :
    (lineage.offPath (path ++ [id])).length < (lineage.offPath path).length := by
  have hmem : id ∈ lineage.offPath path := by
    simp [Lineage.offPath, KeyMap.mem_keys_of_get? hfound, hpath]
  have heq : lineage.offPath (path ++ [id]) = (lineage.offPath path).filter (· ≠ id) := by
    simp only [Lineage.offPath, List.filter_filter]
    refine List.filter_congr fun key _ => ?_
    simp [and_comm]
  rw [heq]
  exact List.length_filter_lt_length_iff_exists.mpr ⟨id, hmem, by simp⟩

/-- Section 4.5, `collect_ancestor_members`: walk the ancestors of `className` named in a list,
below a path of classes. -/
def walk (lineage : Lineage) (className : String) (path : List String) :
    List String → AncestorWalk
  | [] => {}
  | ancestor :: rest =>
    let found : AncestorWalk :=
      if _ : ancestor ∈ path then
        { diagnostics := [.cycle className (path ++ [ancestor])] }
      else
        match _ : lineage.lookup.get? ancestor with
        | none => { diagnostics := [.missingAncestor className ancestor .inherits] }
        | some node =>
          let above := walk lineage className (path ++ [ancestor])
            (lineage.inherits node).eraseDups
          { hierarchy := [⟨ancestor, above.hierarchy⟩]
            members :=
              (lineage.own node).map (fun edge => .inherited edge.child ancestor none)
                ++ above.members
            diagnostics := above.diagnostics }
    found ++ walk lineage className path rest
termination_by ancestors => ((lineage.offPath path).length, ancestors.length)
decreasing_by
  · exact Prod.Lex.left _ _ (Lineage.length_offPath_lt ‹_› ‹_›)
  · exact Prod.Lex.right _ (Nat.lt_succ_self _)

/-- Section 4.5, `member_key`: what distinguishes the members of a class, the trailing qualifier and
name. A constructor goes by its name alone. -/
def memberKey (node : Node) : String :=
  if node.type = .constructor then node.name
  else
    match (QualifiedName.parse node.id).members.getLast? with
    | some (qualifier, name) => String.ofList (qualifier.mark :: name.toList)
    | none => node.id

/-- Add members whose keys are not taken yet, in order. -/
def mergeMembers (key : Edge → String) (own inherited : List Edge) : List Edge :=
  inherited.foldl
    (fun merged edge => if key edge ∈ merged.map key then merged else merged ++ [edge]) own

/-- The lineage of the classes of a forest. Only members that are owned at this point count. -/
def lineage (forest : Forest) : Lineage where
  lookup := forest.lookup
  inherits id := (forest.node id).inherits
  own id := (forest.node id).ownedEdges

/-- Section 4.5, `merge_inherited_members`: merge inherited members into one class. -/
def mergeInto (lineage : Lineage) (forest : Forest) (id : NodeId) : Forest :=
  let node := forest.node id
  if !node.isClass || node.inherits.isEmpty then forest
  else
    let found := walk lineage node.id [node.id] node.inherits.eraseDups
    let key (edge : Edge) : String := memberKey (forest.node edge.child)
    let children := sortByIds key (mergeMembers key (lineage.own id) found.members)
    let merged := forest.modify id fun node => { node with children, hierarchy := found.hierarchy }
    { merged with diagnostics := merged.diagnostics ++ found.diagnostics }

end SymbolTree.Forest
