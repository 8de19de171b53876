import SymbolTree.Proofs.LinkedRelations
import SymbolTree.Proofs.LookupWinners
import SymbolTree.Proofs.References
import SymbolTree.Proofs.SectionGuessing

/-!
# Backlinks are the inverse of declared relations

A symbol lists the ids of its aliases and of the classes that extend it, and nothing else. A class
that names a superclass is listed by one class, or the one report about it says why not. All other
reports are clashes, which come before, and problems of inheritance, which come after.
-/

namespace SymbolTree

namespace Forest

variable {forest : Forest} {root id : NodeId}

/-- All diagnostics so far report clashes. -/
def OnlyClashes (forest : Forest) : Prop :=
  ∀ diagnostic ∈ forest.diagnostics, diagnostic.isNameClash = true

namespace OnlyClashes

/-- One more report about a clash. -/
theorem of_concat (h : forest.OnlyClashes) {later : Forest} {report : Diagnostic}
    (hlater : later.diagnostics = forest.diagnostics ++ [report])
    (hclash : report.isNameClash = true) : later.OnlyClashes := by
  intro diagnostic hdiagnostic
  rw [hlater] at hdiagnostic
  rcases List.mem_append.mp hdiagnostic with hold | hnew
  · exact h diagnostic hold
  · rw [List.mem_singleton.mp hnew, hclash]

/-- Entering an id reports clashes only. -/
theorem enter (h : forest.OnlyClashes) (key : String) (incoming : NodeId) :
    (forest.enter key incoming).OnlyClashes := by
  cases hheld : forest.lookup.get? key with
  | none =>
    rw [enter_of_free hheld]
    exact h
  | some holder =>
    rw [enter_of_held hheld]
    exact h.of_concat rfl rfl

/-- Moving a key reports clashes only. -/
theorem rekey (h : forest.OnlyClashes) (oldKey newKey : String) :
    (forest.rekey oldKey newKey).OnlyClashes := by
  cases hmoving : forest.keys.get? oldKey with
  | none =>
    rw [rekey_of_absent hmoving]
    exact h
  | some moving =>
    cases hheld : (forest.keys.erase oldKey).get? newKey with
    | none =>
      rw [rekey_of_free hmoving hheld]
      exact h
    | some holder =>
      rw [rekey_of_held hmoving hheld]
      exact h.of_concat rfl rfl

/-- Guessing sections reports clashes only. -/
theorem assignSections (h : forest.OnlyClashes) : forest.assignSections.OnlyClashes := by
  refine List.foldlRecOn (motive := OnlyClashes) forest.sortedKeys _ h fun later hlater key _ => ?_
  unfold assignSection
  split
  · exact hlater
  · exact hlater.rekey key _

/-- Nesting reports clashes only. -/
theorem nest (h : forest.OnlyClashes) : forest.nest.OnlyClashes := by
  have hnamed : forest.withNames.OnlyClashes := by
    rwa [OnlyClashes, diagnostics_eq_of_rest_eq forest.rest_withNames]
  rw [OnlyClashes, diagnostics_nest]
  refine List.foldlRecOn (motive := OnlyClashes) forest.seats enterSeat hnamed
    fun later hlater seat _ => ?_
  unfold enterSeat
  simp only
  split
  · exact hlater
  · exact hlater.enter _ _

/-- Classification reports clashes only. -/
theorem classify (h : forest.OnlyClashes) : forest.classify.OnlyClashes := by
  have htyped : forest.withTypes.OnlyClashes := by
    rwa [OnlyClashes, diagnostics_eq_of_rest_eq forest.rest_withTypes]
  rw [classify_eq]
  refine List.foldlRecOn (motive := OnlyClashes) forest.renames renameEntry htyped
    fun later hlater rename _ => ?_
  unfold renameEntry
  split
  · have hfreed : OnlyClashes { later with lookup := later.lookup.erase rename.1 } := hlater
    exact hfreed.enter _ _
  · exact hlater

end OnlyClashes

/-- The placed nodes after classification are the seated ones that are no sections. -/
theorem Nestable.mem_placed_classify (h : forest.Nestable root) :
    id ∈ forest.nest.classify.placed ↔
      id ∈ forest.seated ∧ (forest.nest.classify.node id).isSection = false := by
  rw [(placed_perm h.allOwned_classify.isForest).mem_iff, List.mem_filter]
  simp

/-- The placed nodes after classification are distinct. -/
theorem Nestable.nodup_placed_classify (h : forest.Nestable root) :
    forest.nest.classify.placed.Nodup :=
  (placed_perm h.allOwned_classify.isForest).nodup_iff.mpr (h.nodup_seated.filter _)

/-- What happens after classification changes neither whom a node is an alias of, nor who lists a
class, nor what is reported about it. -/
theorem relations_placed (settings : Settings) (forest : Forest) (id : NodeId) :
    let resolved := forest.linkRelations.assignPartitions settings
    resolved.aliasTarget? id = forest.aliasTarget? id ∧
      resolved.extended? id = forest.extended? id ∧
      resolved.superclassReport? id = forest.superclassReport? id := by
  intro resolved
  have hlookup := lookup_placed settings forest
  have hkept {α : Type} {view : Node → α}
      (hdocs : ∀ node source, view (fillDocs node source) = view node)
      (hset : ∀ node children aliases subclasses hierarchy outFile anchor,
        view { node with children, aliases, subclasses, hierarchy, outFile, anchor } = view node) :
      resolved.column view = forest.column view := column_placed hdocs hset settings forest
  exact ⟨aliasTarget?_congr hlookup (hkept (fun _ _ => rfl) fun _ _ _ _ _ _ _ => rfl) id,
    superclass_congr hlookup (hkept (fun _ _ => rfl) fun _ _ _ _ _ _ _ => rfl) id⟩

end Forest

/-- A reference means a node: the node holds the reference as its id, or nothing holds it, it ends
in `.new`, and the node holds what a constructor with this ending is renamed to. -/
def ResolvedTree.Means (tree : ResolvedTree) (reference : String) (target : NodeId) : Prop :=
  tree.lookup.get? reference = some target ∨
    tree.lookup.get? reference = none ∧ ∃ base, reference = base ++ ".new" ∧
      tree.lookup.get? ("new " ++ base) = some target

/-- One class extends another: it has a place and names as its superclass an id that the other class
holds. -/
def ResolvedTree.Extends (tree : ResolvedTree) (id parent : NodeId) : Prop :=
  tree.ownership.Reachable id ∧ (tree.node id).isClass = true ∧
    (tree.node parent).isClass = true ∧ parent ≠ id ∧
    ∃ superclass, (tree.node id).superclass = some superclass ∧
      tree.lookup.get? superclass = some parent

namespace Collection

/-- Nothing but clashes is reported before relations are linked. -/
theorem onlyClashes_classify_nested (records : List Record) :
    (empty.insertAll records).nested.classify.OnlyClashes := by
  have hstart : (Forest.ofCollection (empty.insertAll records)).OnlyClashes := by
    rw [Forest.OnlyClashes, Forest.diagnostics_ofCollection]
    exact fun diagnostic hdiagnostic =>
      ((keepsLeast_insertAll records).keepsEarlier diagnostic hdiagnostic).isNameClash
  exact hstart.assignSections.nest.classify

/-- No symbol lists aliases or subclasses before relations are linked. -/
theorem nothing_listed (collection : Collection) (id : NodeId) :
    (collection.nested.classify.node id).aliases = [] ∧
      (collection.nested.classify.node id).subclasses = [] := by
  let listed (node : Node) : List String × List String := (node.aliases, node.subclasses)
  have hcolumn : collection.nested.classify.column listed =
      (Forest.ofCollection collection).column listed := by
    unfold nested
    rw [Forest.column_classify (Forest.view_classifyNode fun _ _ _ => rfl),
      Forest.column_nest (fun _ _ => rfl) (fun _ _ _ _ _ => rfl) (fun _ _ => rfl)]
    exact Forest.column_eq_of_nodes_eq (Forest.nodes_assignSections _)
  have hnode : listed (collection.nested.classify.node id) = ([], []) :=
    (Forest.view_node_eq_of_column_eq hcolumn id).trans
      (Forest.view_node_ofCollection_eq (fun _ _ => rfl) (fun _ => rfl) rfl collection id)
  exact Prod.mk.inj hnode

/-- The nodes whose relations are linked are those with a place that are no sections. -/
theorem mem_placed_iff (records : List Record) (settings : Settings) (id : NodeId) :
    let tree := (empty.insertAll records).resolve settings
    id ∈ (empty.insertAll records).nested.classify.placed ↔
      tree.ownership.Reachable id ∧ (tree.node id).isSection = false := by
  intro tree
  obtain ⟨root, hroot, h⟩ := exists_unentered records
  have hsection : (tree.node id).isSection =
      ((empty.insertAll records).nested.classify.node id).isSection :=
    Forest.view_node_eq_of_column_eq
      (Forest.column_placed (fun _ _ => rfl) (fun _ _ _ _ _ _ _ => rfl) settings _) id
  rw [reachable_resolve_iff hroot settings, hsection]
  exact h.mem_placed_classify

section Resolved

variable (collection : Collection) (settings : Settings)

/-- A resolved symbol lists the ids of its aliases in the order of resolution. -/
theorem aliases_resolve {target : NodeId}
    (htarget : target < (collection.resolve settings).nodes.size) :
    let classified := collection.nested.classify
    ((collection.resolve settings).node target).aliases =
      ((classified.placed.filter fun id => classified.aliasTarget? id = some target).map
        fun id => (classified.node id).id).foldl Forest.appendNew [] := by
  intro classified
  have hassigned : (classified.linkRelations.assignPartitions settings).column Node.aliases =
      classified.linkRelations.column Node.aliases :=
    Forest.column_assignPartitions (fun _ _ _ _ => rfl) settings _
  have hids : (classified.linkRelations.assignPartitions settings).column Node.id =
      classified.column Node.id :=
    Forest.column_placed (fun _ _ => rfl) (fun _ _ _ _ _ _ _ => rfl) settings classified
  have hlinked := Forest.aliases_linkRelations (Forest.size_eq_of_column_eq hids ▸ htarget)
  rw [(collection.nothing_listed target).1] at hlinked
  exact (Forest.view_node_eq_of_column_eq hassigned target).trans hlinked

/-- A resolved class lists the ids of the classes that extend it in the order of resolution. -/
theorem subclasses_resolve (parent : NodeId) :
    let classified := collection.nested.classify
    ((collection.resolve settings).node parent).subclasses =
      ((classified.placed.filter fun id => classified.extended? id = some parent).map
        fun id => (classified.node id).id).foldl Forest.appendNew [] := by
  intro classified
  have hassigned : (classified.linkRelations.assignPartitions settings).column Node.subclasses =
      classified.linkRelations.column Node.subclasses :=
    Forest.column_assignPartitions (fun _ _ _ _ => rfl) settings _
  have hlinked := classified.subclasses_linkRelations parent
  rw [(collection.nothing_listed parent).2] at hlinked
  exact (Forest.view_node_eq_of_column_eq hassigned parent).trans hlinked

/-- A resolution reports the classes that are listed nowhere, and then problems of inheritance. -/
theorem exists_diagnostics_resolve :
    let classified := collection.nested.classify
    ∃ inherited, (collection.resolve settings).diagnostics =
        classified.diagnostics ++ classified.superclassReports.map (·.2) ++ inherited ∧
      ∀ diagnostic ∈ inherited, diagnostic.isInheritance = true := by
  intro classified
  obtain ⟨inherited, hlinked, hinherited⟩ := classified.exists_diagnostics_linkRelations
  exact ⟨inherited, (Forest.entries_assignPartitions settings _).2.trans hlinked, hinherited⟩

end Resolved

/-- A class extends the one that lists it. -/
theorem extends_iff (records : List Record) (settings : Settings) (id parent : NodeId) :
    let classified := (empty.insertAll records).nested.classify
    ((empty.insertAll records).resolve settings).Extends id parent ↔
      id ∈ classified.placed ∧ classified.extended? id = some parent := by
  intro classified
  have hplaced := mem_placed_iff records settings id
  have hlisted := (Forest.relations_placed settings classified id).2.1
  have hiff := @Forest.extended?_eq_some_iff (classified.linkRelations.assignPartitions settings)
    id parent
  rw [hlisted] at hiff
  constructor
  · rintro ⟨hreachable, hclass, hextends⟩
    have hsection := Forest.isSection_of_isClass hclass
    exact ⟨hplaced.mpr ⟨hreachable, hsection⟩, hiff.mpr ⟨hclass, hextends⟩⟩
  · rintro ⟨hmem, hextends⟩
    exact ⟨(hplaced.mp hmem).1, hiff.mp hextends⟩

/-- After any sequence of insertions and for all settings, backlinks are the inverse of the declared
relations. The aliases of a node are the ids of the nodes that can be reached, are no sections and
are declared as another name for a reference that means it; its subclasses are the ids of the
classes that extend it. Both lists are strictly increasing. A class with a superclass extends
exactly one class and nothing is reported about it, or the one report about it says that it names
itself, or that it names no class. These reports come after clashes and before problems of
inheritance. -/
theorem backlinks_inverse (records : List Record) (settings : Settings) :
    let collection := empty.insertAll records
    let tree := collection.resolve settings
    (∀ target < tree.nodes.size,
      (tree.node target).aliases.Pairwise (fun a b => compareIds a b = .lt) ∧
      ∀ name, name ∈ (tree.node target).aliases ↔
        ∃ id, tree.ownership.Reachable id ∧ (tree.node id).isSection = false ∧
          (∃ reference, (tree.node id).aliasOf = some reference ∧ tree.Means reference target) ∧
          (tree.node id).id = name) ∧
    (∀ parent, (tree.node parent).subclasses.Pairwise (fun a b => compareIds a b = .lt) ∧
      ∀ name, name ∈ (tree.node parent).subclasses ↔
        ∃ id, tree.Extends id parent ∧ (tree.node id).id = name) ∧
    ∃ (reports : List (NodeId × Diagnostic)) (inherited : List Diagnostic),
      tree.diagnostics =
        collection.nested.classify.diagnostics ++ reports.map (·.2) ++ inherited ∧
      (∀ diagnostic ∈ collection.nested.classify.diagnostics, diagnostic.isNameClash = true) ∧
      (∀ diagnostic ∈ inherited, diagnostic.isInheritance = true) ∧
      (reports.map (·.1)).Nodup ∧
      (∀ report ∈ reports, tree.ownership.Reachable report.1 ∧
        (tree.node report.1).isClass = true ∧ (tree.node report.1).superclass.isSome) ∧
      ∀ id superclass, tree.ownership.Reachable id → (tree.node id).isClass = true →
        (tree.node id).superclass = some superclass →
        ((∃! parent, tree.Extends id parent) ∧ ∀ diagnostic, (id, diagnostic) ∉ reports) ∨
        (tree.lookup.get? superclass = some id ∧ (∀ parent, ¬ tree.Extends id parent) ∧
          (id, .cycle (tree.node id).id [(tree.node id).id, (tree.node id).id]) ∈ reports) ∨
        ((∀ parent, tree.lookup.get? superclass = some parent →
            (tree.node parent).isClass = false) ∧ (∀ parent, ¬ tree.Extends id parent) ∧
          (id, .missingAncestor (tree.node id).id superclass .superclass) ∈ reports) := by
  intro collection tree
  let resolved := (Forest.ofCollection collection).resolve settings
  let classified := collection.nested.classify
  obtain ⟨root, _, h⟩ := exists_unentered records
  have hplaced {id : NodeId} : id ∈ classified.placed ↔
      tree.ownership.Reachable id ∧ (tree.node id).isSection = false :=
    mem_placed_iff records settings id
  have hextends {id parent : NodeId} : tree.Extends id parent ↔
      id ∈ classified.placed ∧ classified.extended? id = some parent :=
    extends_iff records settings id parent
  have hrelations (id : NodeId) : resolved.aliasTarget? id = classified.aliasTarget? id ∧
      resolved.extended? id = classified.extended? id ∧
        resolved.superclassReport? id = classified.superclassReport? id :=
    Forest.relations_placed settings classified id
  have hids (id : NodeId) : (tree.node id).id = (classified.node id).id :=
    Forest.id_placed settings classified id
  have haliasOf (id target : NodeId) : resolved.aliasTarget? id = some target ↔
      ∃ reference, (tree.node id).aliasOf = some reference ∧ tree.Means reference target := by
    rw [Forest.aliasTarget?, Option.bind_eq_some_iff]
    exact exists_congr fun _ => and_congr_right fun _ => Forest.resolveReference_eq_some_iff
  refine ⟨fun target htarget => ?_, fun parent => ?_, ?_⟩
  · obtain ⟨hincreasing, hmem⟩ := Forest.backlinks_of_eq classified.pairwise_placed
      (aliases_resolve collection settings htarget)
    refine ⟨hincreasing, fun name => (hmem name).trans (exists_congr fun id => ?_)⟩
    rw [hplaced, decide_eq_true_eq, ← (hrelations id).1, haliasOf, ← hids, and_assoc]
  · obtain ⟨hincreasing, hmem⟩ := Forest.backlinks_of_eq classified.pairwise_placed
      (subclasses_resolve collection settings parent)
    refine ⟨hincreasing, fun name => (hmem name).trans (exists_congr fun id => ?_)⟩
    rw [hextends, decide_eq_true_eq, ← hids, and_assoc]
  · obtain ⟨inherited, hdiagnostics, hinherited⟩ := exists_diagnostics_resolve collection settings
    have hreported (id : NodeId) (diagnostic : Diagnostic) :
        (id, diagnostic) ∈ classified.superclassReports ↔
          id ∈ classified.placed ∧ resolved.superclassReport? id = some diagnostic := by
      rw [Forest.mem_superclassReports_iff, (hrelations id).2.2]
    refine ⟨classified.superclassReports, inherited, hdiagnostics,
      onlyClashes_classify_nested records, hinherited, ?_, fun report hreport => ?_, ?_⟩
    · rw [Forest.map_fst_superclassReports]
      exact h.nodup_placed_classify.filter _
    · obtain ⟨hmem, hreport⟩ := (hreported _ _).mp hreport
      obtain ⟨hclass, hsuper, _⟩ := Forest.of_superclassReport?_eq_some hreport
      exact ⟨(hplaced.mp hmem).1, hclass, hsuper⟩
    · intro id superclass hreachable hclass hsuper
      have hmem : id ∈ classified.placed :=
        hplaced.mpr ⟨hreachable, Forest.isSection_of_isClass hclass⟩
      have hparent (parent : NodeId) :
          tree.Extends id parent ↔ resolved.extended? id = some parent := by
        rw [hextends, (hrelations id).2.1, and_iff_right hmem]
      have hnowhere {diagnostic : Diagnostic}
          (hreport : resolved.superclassReport? id = some diagnostic) (parent : NodeId) :
          ¬ tree.Extends id parent := by
        rw [hparent, (Forest.of_superclassReport?_eq_some hreport).2.2]
        exact (Option.some_ne_none parent).symm
      have hresolved : (resolved.node id).isClass = true := hclass
      rcases Forest.superclass_cases hresolved hsuper with
        ⟨parent, hlisted, hquiet⟩ | ⟨hself, hreport⟩ | ⟨hmissing, hreport⟩
      · refine .inl ⟨⟨parent, (hparent parent).mpr hlisted, fun other hother => ?_⟩,
          fun diagnostic hdiagnostic => ?_⟩
        · exact Option.some.inj (((hparent other).mp hother).symm.trans hlisted)
        · rw [hreported, hquiet] at hdiagnostic
          cases hdiagnostic.2
      · exact .inr (.inl ⟨hself, hnowhere hreport, (hreported _ _).mpr ⟨hmem, hreport⟩⟩)
      · exact .inr (.inr ⟨hmissing, hnowhere hreport, (hreported _ _).mpr ⟨hmem, hreport⟩⟩)

/-- A constructor with an alias that refers to it by its old id, and a class that extends its
class. -/
def aliasedConstructor : List Record :=
  [{ id := "Widget", kind := .class }, { id := "Widget.new", kind := .constructor },
    { id := "create", kind := .method, aliasOf := some "Widget.new" },
    { id := "Panel", kind := .class, superclass := some "Widget" }]

/-- The renamed constructor lists its alias, and the class lists its subclass. -/
theorem backlinks_inverse_of_aliasedConstructor :
    let tree := (empty.insertAll aliasedConstructor).resolve {}
    (tree.node 3).id = "new Widget" ∧ tree.Means "Widget.new" 3 ∧
      "create" ∈ (tree.node 3).aliases ∧ tree.Extends 1 2 ∧ "Panel" ∈ (tree.node 2).subclasses := by
  intro tree
  obtain ⟨hsize, htop, ⟨hfree, hrenamed, hclass⟩, ⟨haliasId, haliasSection, haliasOf⟩, hid, hpanel,
      hclasses, hsuper⟩ :
      3 < tree.nodes.size ∧ tree.ownership.top = [4, 1, 2] ∧
      (tree.lookup.get? "Widget.new" = none ∧ tree.lookup.get? "new Widget" = some 3 ∧
        tree.lookup.get? "Widget" = some 2) ∧
      ((tree.node 4).id = "create" ∧ (tree.node 4).isSection = false ∧
        (tree.node 4).aliasOf = some "Widget.new") ∧
      (tree.node 3).id = "new Widget" ∧ (tree.node 1).id = "Panel" ∧
      ((tree.node 1).isClass = true ∧ (tree.node 2).isClass = true) ∧
      (tree.node 1).superclass = some "Widget" := by
    simp only [tree, resolve, Forest.resolve_eval]
    decide +kernel
  have hreach (id : NodeId) (hid : id ∈ [4, 1, 2]) : tree.ownership.Reachable id :=
    Ownership.reachable_iff_exists_line.mpr ⟨_, .top (htop ▸ hid)⟩
  have hmeans : tree.Means "Widget.new" 3 := .inr ⟨hfree, "Widget", rfl, hrenamed⟩
  have hextends : tree.Extends 1 2 :=
    ⟨hreach 1 (by decide), hclasses.1, hclasses.2, by decide, "Widget", hsuper, hclass⟩
  obtain ⟨haliases, hsubclasses, _⟩ := backlinks_inverse aliasedConstructor {}
  refine ⟨hid, hmeans, ?_, hextends, ((hsubclasses 2).2 "Panel").mpr ⟨1, hextends, hpanel⟩⟩
  exact ((haliases 3 hsize).2 "create").mpr
    ⟨4, hreach 4 (by decide), haliasSection, ⟨"Widget.new", haliasOf, hmeans⟩, haliasId⟩

end Collection

end SymbolTree
