import SymbolTree.Proofs.Clashes

/-!
# Walks over ancestors and what they contribute

One equation for each thing that a walk can meet: a class on its path, a class that does not exist,
and a class to follow. Together they are the rules of a relation that sets no bound to the walk, and
the walk is the one result that these rules give. From the rules follows what the walk contributes to
a class: inherited edges to members that some ancestor owns, and diagnostics none of which is a clash.
-/

namespace SymbolTree

/-- Whether a node is a class that members are merged into. -/
def Node.Receives (node : Node) : Prop := node.isClass = true ∧ node.inherits ≠ []

instance : DecidablePred Node.Receives := fun _ => inferInstanceAs (Decidable (_ ∧ _))

namespace Forest

/-- Walks one after another find the ancestors of both. -/
@[simp] theorem AncestorWalk.hierarchy_append (a b : AncestorWalk) :
    (a ++ b).hierarchy = a.hierarchy ++ b.hierarchy := rfl

/-- Walks one after another find the members of both. -/
@[simp] theorem AncestorWalk.members_append (a b : AncestorWalk) :
    (a ++ b).members = a.members ++ b.members := rfl

/-- Walks one after another find the problems of both. -/
@[simp] theorem AncestorWalk.diagnostics_append (a b : AncestorWalk) :
    (a ++ b).diagnostics = a.diagnostics ++ b.diagnostics := rfl

variable {lineage : Lineage} {className : String} {path rest : List String} {ancestor : String}

/-- A walk over no ancestors finds nothing. -/
@[simp] theorem walk_nil : walk lineage className path [] = {} := by rw [walk]

/-- A class on the path is reported as a cycle. -/
theorem walk_cons_of_mem (hmem : ancestor ∈ path) :
    walk lineage className path (ancestor :: rest) =
      { diagnostics := [.cycle className (path ++ [ancestor])] }
        ++ walk lineage className path rest := by
  rw [walk]
  simp only [dif_pos hmem]

/-- A class that does not exist is reported as missing. -/
theorem walk_cons_of_missing (hmem : ancestor ∉ path)
    (hmissing : lineage.lookup.get? ancestor = none) :
    walk lineage className path (ancestor :: rest) =
      { diagnostics := [.missingAncestor className ancestor .inherits] }
        ++ walk lineage className path rest := by
  rw [walk]
  simp only [dif_neg hmem]
  split
  · rfl
  · simp_all

/-- A class that exists contributes its members and then what is above it. -/
theorem walk_cons_of_found {node : NodeId} (hmem : ancestor ∉ path)
    (hfound : lineage.lookup.get? ancestor = some node) :
    walk lineage className path (ancestor :: rest) =
      { hierarchy := [⟨ancestor, (walk lineage className (path ++ [ancestor])
          (lineage.inherits node).eraseDups).hierarchy⟩]
        members := (lineage.own node).map (fun edge => .inherited edge.child ancestor none)
          ++ (walk lineage className (path ++ [ancestor])
            (lineage.inherits node).eraseDups).members
        diagnostics := (walk lineage className (path ++ [ancestor])
          (lineage.inherits node).eraseDups).diagnostics }
        ++ walk lineage className path rest := by
  rw [walk]
  simp only [dif_neg hmem]
  split
  · simp_all
  · rename_i other hother
    obtain rfl : other = node := Option.some.inj (hother.symm.trans hfound)
    rfl

/-- The rules of a walk, with no bound on how far it goes: a named class is on the path, or it does
not exist, or it is followed. -/
inductive Walks (lineage : Lineage) (className : String) :
    (path names : List String) → AncestorWalk → Prop
  | nil {path : List String} : Walks lineage className path [] {}
  | onPath {path rest : List String} {name : String} {after : AncestorWalk} :
      name ∈ path → Walks lineage className path rest after →
      Walks lineage className path (name :: rest)
        ({ diagnostics := [.cycle className (path ++ [name])] } ++ after)
  | missing {path rest : List String} {name : String} {after : AncestorWalk} :
      name ∉ path → lineage.lookup.get? name = none → Walks lineage className path rest after →
      Walks lineage className path (name :: rest)
        ({ diagnostics := [.missingAncestor className name .inherits] } ++ after)
  | followed {path rest : List String} {name : String} {node : NodeId}
      {above after : AncestorWalk} :
      name ∉ path → lineage.lookup.get? name = some node →
      Walks lineage className (path ++ [name]) (lineage.inherits node).eraseDups above →
      Walks lineage className path rest after →
      Walks lineage className path (name :: rest)
        ({ hierarchy := [⟨name, above.hierarchy⟩]
           members := (lineage.own node).map (fun edge => .inherited edge.child name none)
             ++ above.members
           diagnostics := above.diagnostics } ++ after)

/-- The rules give a result for all classes, and the walk finds it: it ends. -/
theorem walks_walk (lineage : Lineage) (className : String) (path names : List String) :
    Walks lineage className path names (walk lineage className path names) := by
  induction path, names using walk.induct lineage className with
  | case1 path =>
    rw [walk_nil]
    exact .nil
  | case2 path name rest ihAbove ihRest =>
    by_cases hmem : name ∈ path
    · rw [walk_cons_of_mem hmem]
      exact .onPath hmem ihRest
    · cases hfound : lineage.lookup.get? name with
      | none =>
        rw [walk_cons_of_missing hmem hfound]
        exact .missing hmem hfound ihRest
      | some node =>
        rw [walk_cons_of_found hmem hfound]
        exact .followed hmem hfound (ihAbove hmem node hfound) ihRest

/-- The rules give no other result than what the walk finds. -/
theorem Walks.eq_walk {names : List String} {found : AncestorWalk}
    (h : Walks lineage className path names found) :
    found = walk lineage className path names := by
  induction h with
  | nil => rw [walk_nil]
  | onPath hmem _ ihRest => rw [walk_cons_of_mem hmem, ihRest]
  | missing hmem hmissing _ ihRest => rw [walk_cons_of_missing hmem hmissing, ihRest]
  | followed hmem hfound _ _ ihAbove ihRest =>
    rw [walk_cons_of_found hmem hfound, ihAbove, ihRest]

/-- A walk finds inherited edges to members that a class owns. -/
theorem inherited_of_mem_walk {ancestors : List String} {edge : Edge}
    (hedge : edge ∈ (walk lineage className path ancestors).members) :
    edge.isOwned = false ∧ ∃ owner, ∃ own ∈ lineage.own owner, edge.child = own.child := by
  have hwalks := walks_walk lineage className path ancestors
  generalize walk lineage className path ancestors = found at hedge hwalks
  induction hwalks with
  | nil => cases hedge
  | onPath _ _ ihRest => exact ihRest hedge
  | missing _ _ _ ihRest => exact ihRest hedge
  | @followed _ _ _ node _ _ _ _ _ _ ihAbove ihRest =>
    rw [AncestorWalk.members_append, List.append_assoc] at hedge
    rcases List.mem_append.mp hedge with hmapped | hlater
    · obtain ⟨own, hown, rfl⟩ := List.mem_map.mp hmapped
      exact ⟨rfl, node, own, hown, rfl⟩
    · exact (List.mem_append.mp hlater).elim ihAbove ihRest

/-- A walk reports no clash. -/
theorem droppedLocations_walk (lineage : Lineage) (className : String)
    (path ancestors : List String) :
    droppedLocations (walk lineage className path ancestors).diagnostics = [] := by
  have hwalks := walks_walk lineage className path ancestors
  generalize walk lineage className path ancestors = found at hwalks
  induction hwalks with
  | nil => rfl
  | onPath _ _ ihRest =>
    rw [AncestorWalk.diagnostics_append, droppedLocations_append, ihRest]
    rfl
  | missing _ _ _ ihRest =>
    rw [AncestorWalk.diagnostics_append, droppedLocations_append, ihRest]
    rfl
  | followed _ _ _ _ ihAbove ihRest =>
    rw [AncestorWalk.diagnostics_append, droppedLocations_append, ihAbove, ihRest]
    rfl

/-- Merging one more member. -/
theorem mergeMembers_cons (key : Edge → String) (own : List Edge) (edge : Edge)
    (inherited : List Edge) :
    mergeMembers key own (edge :: inherited) =
      mergeMembers key (if key edge ∈ own.map key then own else own ++ [edge]) inherited := rfl

/-- Merging keeps the own members and adds some of the inherited ones after them. -/
theorem mergeMembers_eq (key : Edge → String) (own inherited : List Edge) :
    ∃ added, mergeMembers key own inherited = own ++ added ∧ added.Sublist inherited := by
  induction inherited generalizing own with
  | nil => exact ⟨[], by simp [mergeMembers]⟩
  | cons edge inherited ih =>
    rw [mergeMembers_cons]
    split
    · obtain ⟨added, hmerged, hsub⟩ := ih own
      exact ⟨added, hmerged, hsub.cons edge⟩
    · obtain ⟨added, hmerged, hsub⟩ := ih (own ++ [edge])
      exact ⟨edge :: added, by simpa using hmerged, hsub.cons_cons edge⟩

/-- The walk over the ancestors of a node. -/
def ancestorWalk (lineage : Lineage) (forest : Forest) (id : NodeId) : AncestorWalk :=
  walk lineage (forest.node id).id [(forest.node id).id] (forest.node id).inherits.eraseDups

/-- The children of a node after merging. -/
def mergedChildren (lineage : Lineage) (forest : Forest) (id : NodeId) : List Edge :=
  let key (edge : Edge) : String := memberKey (forest.node edge.child)
  sortByIds key (mergeMembers key (lineage.own id) (ancestorWalk lineage forest id).members)

/-- Merging sets the children and the hierarchy of a class that receives members, and reports the
problems of its walk. It leaves all other nodes alone. -/
theorem mergeInto_eq (lineage : Lineage) (forest : Forest) (id : NodeId) :
    mergeInto lineage forest id =
      if (forest.node id).Receives then
        { forest.modify id fun node =>
            { node with
              children := mergedChildren lineage forest id
              hierarchy := (ancestorWalk lineage forest id).hierarchy } with
          diagnostics := forest.diagnostics ++ (ancestorWalk lineage forest id).diagnostics }
      else forest := by
  have hskipped : (!(forest.node id).isClass || (forest.node id).inherits.isEmpty) = true ↔
      ¬ (forest.node id).Receives := by
    simp [Node.Receives, imp_iff_not_or]
  unfold mergeInto
  simp only [hskipped, ite_not]
  rfl

/-- Merging gives a class that receives members the merged ones and the tree of its ancestors. All
other nodes stay as they are. -/
theorem node_mergeInto (lineage : Lineage) (forest : Forest) (id other : NodeId) :
    (mergeInto lineage forest id).node other =
      if other = id ∧ (forest.node other).Receives then
        { forest.node other with
          children := mergedChildren lineage forest other
          hierarchy := (ancestorWalk lineage forest other).hierarchy }
      else forest.node other := by
  rw [mergeInto_eq]
  by_cases hreceives : (forest.node id).Receives
  · rw [if_pos hreceives]
    refine (forest.node_modify id _ other).trans ?_
    by_cases hother : other = id
    · subst hother
      rw [if_pos ⟨rfl, lt_size_of_isClass hreceives.1⟩, if_pos ⟨rfl, hreceives⟩]
    · rw [if_neg fun h => hother h.1, if_neg fun h => hother h.1]
  · rw [if_neg hreceives, if_neg]
    rintro ⟨rfl, h⟩
    exact hreceives h

/-- Merged children are the own edges and some inherited ones. -/
theorem mergedChildren_perm (lineage : Lineage) (forest : Forest) (id : NodeId) :
    ∃ inherited, (mergedChildren lineage forest id).Perm (lineage.own id ++ inherited) ∧
      ∀ edge ∈ inherited,
        edge.isOwned = false ∧ ∃ owner, ∃ own ∈ lineage.own owner, edge.child = own.child := by
  obtain ⟨added, hmerged, hsub⟩ := mergeMembers_eq
    (fun edge => memberKey (forest.node edge.child)) (lineage.own id)
    (ancestorWalk lineage forest id).members
  refine ⟨added, ?_, fun edge hedge => inherited_of_mem_walk (hsub.subset hedge)⟩
  rw [← hmerged]
  exact List.mergeSort_perm _ _

/-- Merging leaves the children of a node alone, unless it is a class that receives the merged
ones. -/
theorem children_mergeInto (lineage : Lineage) (forest : Forest) (id other : NodeId) :
    ((mergeInto lineage forest id).node other).children = (forest.node other).children ∨
      (forest.node other).isClass = true ∧
        ((mergeInto lineage forest id).node other).children =
          mergedChildren lineage forest other := by
  rw [node_mergeInto]
  split
  · rename_i hreceives
    exact .inr ⟨hreceives.2.1, rfl⟩
  · exact .inl rfl

/-- Merging reports what the walks of the classes report that receive members. -/
theorem diagnostics_mergeInto (lineage : Lineage) (forest : Forest) (id : NodeId) :
    (mergeInto lineage forest id).diagnostics = forest.diagnostics ++
      if (forest.node id).Receives then (ancestorWalk lineage forest id).diagnostics else [] := by
  rw [mergeInto_eq]
  split
  · rfl
  · rw [List.append_nil]

/-- Merging reports no clash. -/
theorem droppedLocations_mergeInto (lineage : Lineage) (forest : Forest) (id : NodeId) :
    droppedLocations (mergeInto lineage forest id).diagnostics =
      droppedLocations forest.diagnostics := by
  rw [diagnostics_mergeInto, droppedLocations_append]
  split
  · rw [ancestorWalk, droppedLocations_walk, List.append_nil]
  · exact List.append_nil _

end Forest

end SymbolTree
