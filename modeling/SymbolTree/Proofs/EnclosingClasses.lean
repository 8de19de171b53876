import SymbolTree.Proofs.LiftedClasses

/-!
# Output files in closed form

With one output file per class, a class has its own, and hands it down until a class or a section
below takes over. The output file of any other node is that of the nearest class above it, as far as
the nearest section. Where no class is in between, the outermost node below the section settles it by
its source file.
-/

namespace SymbolTree

namespace Forest

variable {settings : Settings} {forest : Forest}

/-- The owners between a node and the nearest section above it, the nearest one first. -/
def belowSection (forest : Forest) (above : List NodeId) : List NodeId :=
  above.takeWhile fun owner => !(forest.node owner).isSection

/-- The first class among some nodes. -/
def firstClass? (forest : Forest) (nodes : List NodeId) : Option NodeId :=
  nodes.find? fun id => (forest.node id).isClass

/-- The first class is a class among the nodes. -/
theorem of_firstClass?_eq_some {nodes : List NodeId} {id : NodeId}
    (hfirst : forest.firstClass? nodes = some id) :
    id ∈ nodes ∧ (forest.node id).isClass = true :=
  ⟨List.mem_of_find?_eq_some hfirst, by simpa using List.find?_some hfirst⟩

/-- A section has no output file. -/
theorem partitionOf_of_isSection {node : Node} (hsection : node.isSection = true)
    (owner : Option String) : partitionOf settings node owner = "" := by
  unfold partitionOf
  rw [if_pos hsection]

/-- Unless there is one output file per class, a node that is no section has the output file of its
source file. -/
theorem partitionOf_of_source (hpolicy : settings.policy ≠ .perClass) {node : Node}
    (hsection : node.isSection = false) (owner : Option String) :
    partitionOf settings node owner = filePartition settings node := by
  unfold partitionOf
  rw [hsection]
  cases hcases : settings.policy with
  | perClass => exact absurd hcases hpolicy
  | perFile => rfl
  | liftClasses => rfl

/-- With one output file per class, a class has its own, and any other node has that of its owner or
that of its source file. -/
theorem partitionOf_perClass (hpolicy : settings.policy = .perClass) {node : Node}
    (hsection : node.isSection = false) (owner : Option String) :
    partitionOf settings node owner =
      if node.isClass then settings.partitionName node.id
      else owner.getD (filePartition settings node) := by
  unfold partitionOf
  rw [hsection, hpolicy]
  cases node.isClass <;> cases owner <;> rfl

/-- With one output file per class, a line of owners hands down the output file of its nearest class
below a section, and that of the outermost source file if there is no class. The induction goes from
the top down: each owner hands down what it is handed unless it is a class or a section. -/
theorem handedDownLine_eq (hpolicy : settings.policy = .perClass) (above : List NodeId) :
    forest.handedDownLine settings above =
      (forest.belowSection above).getLast?.map fun outermost =>
        match forest.firstClass? (forest.belowSection above) with
        | some owner => settings.partitionName (forest.node owner).id
        | none => filePartition settings (forest.node outermost) := by
  induction above with
  | nil => rfl
  | cons parent above ih =>
    have hhanded : forest.handedDownLine settings (parent :: above) =
        handedDown settings (forest.node parent) (forest.handedDownLine settings above) := rfl
    rw [hhanded, handedDown]
    cases hsection : (forest.node parent).isSection with
    | true => simp [belowSection, hsection]
    | false =>
      have hbelow : forest.belowSection (parent :: above) = parent :: forest.belowSection above := by
        simp [belowSection, hsection]
      rw [hbelow, partitionOf_perClass hpolicy hsection, ih]
      cases hclass : (forest.node parent).isClass with
      | true => simp [firstClass?, hclass, List.getLast?_cons]
      | false =>
        have hfirst : forest.firstClass? (parent :: forest.belowSection above) =
            forest.firstClass? (forest.belowSection above) := by
          simp [firstClass?, hclass]
        rw [hfirst]
        cases hnear : forest.belowSection above with
        | nil => simp [firstClass?]
        | cons near rest => simp [List.getLast?_cons]

/-- The output file of a member of a forest is settled by the member and its line of owners. -/
theorem outFile_partitioned {members : List NodeId} {rank : NodeId → Nat}
    (h : forest.ownership.IsForest members rank) {above : List NodeId} {id : NodeId}
    (hline : forest.ownership.Line above id) :
    ((forest.partitioned settings).node id).outFile =
      partitionOf settings (forest.node id) (forest.handedDownLine settings above) := by
  obtain ⟨owners, howners⟩ := h.exists_handedDown none
    fun parent => handedDown settings (forest.node parent)
  rw [node_partitioned_below h howners, if_pos (h.mem_of_line hline).1, howners above id hline]
  rfl

/-- With one output file per class, a class has its own, wherever it is. -/
theorem outFile_partitioned_of_isClass {members : List NodeId} {rank : NodeId → Nat}
    (hpolicy : settings.policy = .perClass) (h : forest.ownership.IsForest members rank)
    {id : NodeId} (hid : id ∈ members) (hclass : (forest.node id).isClass = true) :
    ((forest.partitioned settings).node id).outFile =
      settings.partitionName (forest.node id).id := by
  obtain ⟨above, hline⟩ := Ownership.reachable_iff_exists_line.mp (h.reachable_of_mem hid)
  rw [outFile_partitioned h hline, partitionOf_perClass hpolicy (isSection_of_isClass hclass),
    if_pos hclass]

/-- With one output file per class, a member that is neither a section nor a class has the output
file of the nearest class, or else the one that the outermost node below the nearest section has by
its source file. -/
theorem outFile_partitioned_of_line {members : List NodeId} {rank : NodeId → Nat}
    (hpolicy : settings.policy = .perClass) (h : forest.ownership.IsForest members rank)
    {above : List NodeId} {id : NodeId} (hline : forest.ownership.Line above id)
    (hsection : (forest.node id).isSection = false) (hclass : (forest.node id).isClass = false) :
    ((forest.partitioned settings).node id).outFile =
      match forest.firstClass? (forest.belowSection above) with
      | some owner => ((forest.partitioned settings).node owner).outFile
      | none =>
        filePartition settings (forest.node ((forest.belowSection above).getLastD id)) := by
  rw [outFile_partitioned h hline, partitionOf_perClass hpolicy hsection, hclass,
    if_neg Bool.false_ne_true, handedDownLine_eq hpolicy]
  cases hfirst : forest.firstClass? (forest.belowSection above) with
  | some owner =>
    obtain ⟨hnear, hownerClass⟩ := of_firstClass?_eq_some hfirst
    have howner := (h.mem_of_line hline).2 owner ((List.takeWhile_sublist _).subset hnear)
    rw [List.getLast?_eq_some_getLast (List.ne_nil_of_mem hnear)]
    exact (outFile_partitioned_of_isClass hpolicy h howner hownerClass).symm
  | none =>
    rw [List.getLastD_eq_getLast?]
    cases (forest.belowSection above).getLast? <;> rfl

end Forest

namespace Collection

/-- Without extensions, a resolution ends with assigning output files to a forest. -/
theorem exists_partitioned {records : List Record} (settings : Settings)
    (hextension : ∀ record ∈ records, record.extension = false) :
    ∃ (shaped : Forest) (members : List NodeId) (rank : NodeId → Nat),
      shaped.ownership.IsForest members rank ∧
      (Forest.ofCollection (empty.insertAll records)).resolve settings =
        shaped.partitioned settings := by
  obtain ⟨root, hroot, _⟩ := exists_root records
  let guessed := (Forest.ofCollection (empty.insertAll records)).assignSections
  refine ⟨_, guessed.seated, guessed.keyLength, ?_,
    Forest.assignPartitions_eq (extension_linked hextension) settings⟩
  split
  · exact (wellLinked_linked hroot).liftClasses.isForest
  · exact (wellLinked_linked hroot).isForest

/-- After any sequence of insertions without extensions and for all settings, a node that can be
reached has one line of owners, and its output file is settled as follows. A section has none.
Unless there is one output file per class, any other node has that of its source file, which is the
lower-cased stem of the file between the chosen texts before and after it. Otherwise a class has its
own, which is its id between these texts, and any other node has that of the nearest class in the
line below the nearest section; if there is no class in between, the outermost node there settles it
by its source file. -/
theorem output_file_closed_form (records : List Record) (settings : Settings)
    (hextension : ∀ record ∈ records, record.extension = false) (id : NodeId)
    (hreachable : ((empty.insertAll records).resolve settings).ownership.Reachable id) :
    let tree := (empty.insertAll records).resolve settings
    let affixed (name : String) : String :=
      settings.namePrefix.getD "" ++ name ++ settings.nameSuffix.getD ""
    let ofSource (node : Node) : String :=
      affixed (Text.lowerCase (node.location.file.stem?.getD ""))
    (∃! above, tree.ownership.Line above id) ∧
    ∀ above, tree.ownership.Line above id →
      let near := above.takeWhile fun owner => !(tree.node owner).isSection
      (tree.node id).outFile =
        if (tree.node id).isSection then ""
        else if settings.policy ≠ .perClass then ofSource (tree.node id)
        else if (tree.node id).isClass then affixed (tree.node id).id
        else
          match near.find? fun owner => (tree.node owner).isClass with
          | some owner => (tree.node owner).outFile
          | none => ofSource (tree.node (near.getLastD id)) := by
  intro tree affixed ofSource
  obtain ⟨shaped, members, rank, hforest, hresolved⟩ := exists_partitioned settings hextension
  have hownership : tree.ownership = shaped.ownership :=
    (congrArg Forest.ownership hresolved).trans (Forest.ownership_partitioned settings shaped)
  have hnode (id : NodeId) : tree.node id = (shaped.partitioned settings).node id :=
    congrArg (Forest.node · id) hresolved
  have hview {α : Type} (view : Node → α) (hplace : ∀ node children outFile anchor,
      view { node with children, outFile, anchor } = view node) (id : NodeId) :
      view (tree.node id) = view (shaped.node id) := by
    rw [hnode]
    exact Forest.view_node_eq_of_column_eq (Forest.column_partitioned hplace settings shaped) id
  have hsection := hview Node.isSection fun _ _ _ _ => rfl
  have hclass := hview Node.isClass fun _ _ _ _ => rfl
  have hid := hview Node.id fun _ _ _ _ => rfl
  have hsource := hview ofSource fun _ _ _ _ => rfl
  rw [hownership] at hreachable ⊢
  refine ⟨?_, fun above hline => ?_⟩
  · obtain ⟨above, hline⟩ := Ownership.reachable_iff_exists_line.mp hreachable
    exact ⟨above, hline, fun other hother => hforest.line_unique hother hline⟩
  · simp only [hsection, hclass, hid, hsource]
    simp only [hnode]
    cases hsectionId : (shaped.node id).isSection with
    | true =>
      rw [Forest.outFile_partitioned hforest hline, Forest.partitionOf_of_isSection hsectionId]
      rfl
    | false =>
      by_cases hpolicy : settings.policy = .perClass
      · cases hclassId : (shaped.node id).isClass with
        | true =>
          rw [Forest.outFile_partitioned_of_isClass hpolicy hforest
            (hforest.mem_of_line hline).1 hclassId, if_neg (not_not_intro hpolicy)]
          rfl
        | false =>
          rw [if_neg (not_not_intro hpolicy)]
          exact Forest.outFile_partitioned_of_line hpolicy hforest hline hsectionId hclassId
      · rw [Forest.outFile_partitioned hforest hline,
          Forest.partitionOf_of_source hpolicy hsectionId, if_pos hpolicy]
        rfl

/-- A class and a property in a namespace, and a property of the class, each from a file of its
own. -/
def classInNamespace : List Record :=
  [{ id := "Kit", kind := .property, file := ⟨"lib/Kit.min.js"⟩ },
    { id := "Kit.Panel", kind := .class, file := ⟨"lib/Panel.js"⟩ },
    { id := "Kit.Panel.style", kind := .property, file := ⟨"lib/Style.js"⟩ },
    { id := "Kit.size", kind := .property, file := ⟨"lib/Size.js"⟩ }]

/-- One output file per class, with texts before and after its name. -/
def affixedPerClass : Settings :=
  { splitByClass := true, namePrefix := some "api-", nameSuffix := some "-doc" }

/-- The class has its own output file, and its property goes with it. The other property goes with
the source file of the namespace. -/
theorem output_file_closed_form_of_classInNamespace :
    let tree := (empty.insertAll classInNamespace).resolve affixedPerClass
    (tree.ownership.Line [1] 2 ∧ (tree.node 2).outFile = "api-Kit.Panel-doc") ∧
      (tree.ownership.Line [2, 1] 3 ∧ (tree.node 3).outFile = "api-Kit.Panel-doc") ∧
      tree.ownership.Line [1] 4 ∧ (tree.node 4).outFile = "api-kit.min-doc" := by
  intro tree
  obtain ⟨htop, hinner, hinnermost, hsections, hclasses, hid, hstem⟩ :
      1 ∈ tree.ownership.top ∧ (∀ id ∈ [2, 4], id ∈ (tree.node 1).ownedChildren) ∧
      3 ∈ (tree.node 2).ownedChildren ∧
      (∀ id ∈ [1, 2, 3, 4], (tree.node id).isSection = false) ∧
      (∀ id ∈ [1, 2, 3, 4], (tree.node id).isClass = decide (id = 2)) ∧
      (tree.node 2).id = "Kit.Panel" ∧
      Text.lowerCase ((tree.node 1).location.file.stem?.getD "") = "kit.min" := by
    simp only [tree, resolve, Forest.resolve_eval]
    decide +kernel
  obtain ⟨hpolicy, hbefore, hafter⟩ : affixedPerClass.policy = .perClass ∧
      affixedPerClass.namePrefix = some "api-" ∧ affixedPerClass.nameSuffix = some "-doc" := by
    decide
  have hbelow (id : NodeId) (hid : id ∈ [2, 4]) : tree.ownership.Line [1] id :=
    .child (.top htop) (hinner id hid)
  have hstyle : tree.ownership.Line [2, 1] 3 := .child (hbelow 2 (by decide)) hinnermost
  have hfile {id : NodeId} {above : List NodeId} (hline : tree.ownership.Line above id) :=
    (output_file_closed_form classInNamespace affixedPerClass (by decide) id
      (Ownership.reachable_iff_exists_line.mpr ⟨_, hline⟩)).2 above hline
  have hpanelFile : (tree.node 2).outFile = "api-Kit.Panel-doc" := by
    refine (hfile (hbelow 2 (by decide))).trans ?_
    simp only [tree] at hsections hclasses hid ⊢
    simp [hsections, hclasses, hid, hpolicy, hbefore, hafter]
  refine ⟨⟨hbelow 2 (by decide), hpanelFile⟩, ⟨hstyle, ?_⟩, hbelow 4 (by decide), ?_⟩
  · refine (hfile hstyle).trans ?_
    simp only [tree] at hsections hclasses hpanelFile ⊢
    simp [hsections, hclasses, hpanelFile, hpolicy]
  · refine (hfile (hbelow 4 (by decide))).trans ?_
    simp only [tree] at hsections hclasses hstem ⊢
    simp [hsections, hclasses, hstem, hpolicy, hbefore, hafter]

end Collection

end SymbolTree
