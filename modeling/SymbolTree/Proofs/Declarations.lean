import SymbolTree.Proofs.CopiedDocs
import SymbolTree.Proofs.Origins

/-!
# What a node keeps of its record

Resolution names a node, refines its type, places it and fills in missing documentation. What its
record declares stays: the location, the references to other symbols, and all documentation that is
there.
-/

namespace SymbolTree

/-- The part of a record that no stage changes. -/
structure Declaration where
  /-- Where the symbol is declared. -/
  location : SourceLocation
  /-- The class that this class extends. -/
  superclass : Option String
  /-- The classes whose members are merged into this one. -/
  inherits : List String
  /-- The symbol that this one is another name for. -/
  aliasOf : Option String
  /-- Augments a symbol that another file defines. -/
  «extension» : Bool
  /-- The symbol to copy missing documentation from. -/
  inheritDoc : Option String

/-- What a record declares. -/
def Record.declaration (record : Record) : Declaration :=
  ⟨record.location, record.superclass, record.inherits, record.aliasOf, record.extension,
    record.inheritDoc⟩

/-- What a node declares. -/
def Node.declaration (node : Node) : Declaration :=
  ⟨node.location, node.superclass, node.inherits, node.aliasOf, node.extension, node.inheritDoc⟩

/-- One node is documented at least as far as another: what is there stays as it is. -/
structure Node.Documents (node before : Node) : Prop where
  /-- A description stays. -/
  description_eq : before.description ≠ "" → node.description = before.description
  /-- A summary stays. -/
  summary_eq : before.summary ≠ "" → node.summary = before.summary
  /-- Fields that are passed on stay. -/
  extra_eq : ∀ {key value}, before.extra.get? key = some value → node.extra.get? key = some value

namespace Node.Documents

/-- A node is documented as far as itself. -/
theorem refl (node : Node) : node.Documents node := ⟨fun _ => rfl, fun _ => rfl, fun h => h⟩

/-- Documentation that stays twice stays. -/
theorem trans {a b c : Node} (hab : a.Documents b) (hbc : b.Documents c) : a.Documents c where
  description_eq hne := by
    have hb := hbc.description_eq hne
    rw [hab.description_eq (hb ▸ hne), hb]
  summary_eq hne := by
    have hb := hbc.summary_eq hne
    rw [hab.summary_eq (hb ▸ hne), hb]
  extra_eq hget := hab.extra_eq (hbc.extra_eq hget)

end Node.Documents

namespace Forest

/-- A resolution changes nothing that the nodes declare. -/
theorem column_declaration_resolve (settings : Settings) (forest : Forest) :
    (forest.resolve settings).column Node.declaration = forest.column Node.declaration :=
  column_resolve (fun _ _ _ _ _ => rfl) (view_classifyNode fun _ _ _ => rfl) (fun _ _ => rfl)
    (fun _ _ _ _ _ _ _ _ => rfl) settings forest

/-- The documentation of a node. -/
def documentation (node : Node) : String × String × KeyMap Json :=
  (node.description, node.summary, node.extra)

/-- The same documentation reaches as far. -/
theorem documents_of_eq {node before : Node} (h : documentation node = documentation before) :
    node.Documents before := by
  obtain ⟨hdescription, hrest⟩ := Prod.mk.inj h
  obtain ⟨hsummary, hextra⟩ := Prod.mk.inj hrest
  exact ⟨fun _ => hdescription, fun _ => hsummary, fun hget => hextra ▸ hget⟩

/-- Filling in what is missing keeps what is there. -/
theorem documents_fillDocs (node source : Node) : (fillDocs node source).Documents node where
  description_eq hne := by simp [fillDocs, hne]
  summary_eq hne := by simp [fillDocs, hne]
  extra_eq {key value} hget := by
    have hfilled : (fillDocs node source).extra.get? key = _ :=
      KeyMap.get?_foldl_insertIfNew source.extra.entries node.extra key
    rw [hfilled, hget, Option.some_or]

/-- Copying documentation keeps what is there. -/
theorem documents_copyDocs (forest : Forest) (id other : NodeId) :
    ((forest.copyDocs id).node other).Documents (forest.node other) := by
  rw [node_copyDocs]
  split
  · rename_i hother
    subst hother
    exact List.foldlRecOn (motive := (Node.Documents · (forest.node other))) _ _ (.refl _)
      fun later hlater source _ => (documents_fillDocs later source).trans hlater
  · exact .refl _

/-- Copying documentation concerns nodes that name a source. All others stay as they are. -/
theorem node_copyDocs_of_inheritDoc_eq_none {forest : Forest} {other : NodeId}
    (hnone : (forest.node other).inheritDoc = none) (id : NodeId) :
    (forest.copyDocs id).node other = forest.node other := by
  rw [node_copyDocs]
  split
  · rename_i hother
    subst hother
    exact documentedNode_of_no_source (by rw [docSource?, hnone, Option.bind_none])
  · rfl

/-- Documentation changes only while it is copied. Before and after that, a resolution changes none,
and what nodes declare is there from the start. -/
theorem exists_documentation_run (settings : Settings) (forest : Forest) :
    ∃ (start : Forest) (order : List NodeId),
      start.column documentation = forest.column documentation ∧
      start.column Node.declaration = forest.column Node.declaration ∧
      (forest.resolve settings).column documentation =
        (order.foldl copyDocs start).column documentation := by
  let classified := forest.assignSections.nest.classify
  let aliased := classified.placed.foldl linkAlias classified
  have hstart {α : Type} {view : Node → α}
      (hname : ∀ node id name ownerText path,
        view { node with id, name, ownerText, path } = view node)
      (hclassify : ∀ node, view (classifyNode node) = view node)
      (hset : ∀ node children bound aliases,
        view { node with children, bound, aliases } = view node) :
      aliased.column view = forest.column view := by
    have haliased : aliased.column view = classified.column view :=
      foldl_keeps (column view)
        (fun forest id _ => column_linkAlias (fun node => hset node _ _) forest id) classified
    rw [haliased, column_classify hclassify,
      column_nest (fun node children => hset node children _ _) hname
        (fun node bound => hset node _ bound _)]
    exact column_eq_of_nodes_eq (nodes_assignSections forest)
  refine ⟨aliased, classified.placed, ?_, ?_, ?_⟩
  · exact hstart (fun _ _ _ _ _ => rfl) (view_classifyNode fun _ _ _ => rfl) fun _ _ _ _ => rfl
  · exact hstart (fun _ _ _ _ _ => rfl) (view_classifyNode fun _ _ _ => rfl) fun _ _ _ _ => rfl
  · unfold resolve
    rw [column_assignPartitions fun _ _ _ _ => rfl]
    refine (foldl_keeps (column documentation)
      (fun forest id _ => column_mergeInto (fun _ _ _ => rfl) _ forest id) _).trans ?_
    exact foldl_keeps (column documentation)
      (fun forest id _ => column_linkSuperclass (fun _ _ _ => rfl) forest id) _

/-- A resolution keeps all documentation that is there. -/
theorem documents_resolve (settings : Settings) (forest : Forest) (id : NodeId) :
    ((forest.resolve settings).node id).Documents (forest.node id) := by
  obtain ⟨start, order, hstart, _, hend⟩ := exists_documentation_run settings forest
  have hrun : ((order.foldl copyDocs start).node id).Documents (start.node id) :=
    List.foldlRecOn (motive := fun later : Forest => (later.node id).Documents (start.node id))
      _ _ (.refl _) fun later hlater other _ => (documents_copyDocs later other id).trans hlater
  refine (documents_of_eq (view_node_eq_of_column_eq hend id)).trans (hrun.trans ?_)
  exact documents_of_eq (view_node_eq_of_column_eq hstart id)

/-- A resolution changes no documentation of a node that names no source for it. -/
theorem documentation_resolve_of_inheritDoc_eq_none (settings : Settings) {forest : Forest}
    {id : NodeId} (hnone : (forest.node id).inheritDoc = none) :
    documentation ((forest.resolve settings).node id) = documentation (forest.node id) := by
  obtain ⟨start, order, hstart, hdeclared, hend⟩ := exists_documentation_run settings forest
  have hsource : (start.node id).inheritDoc = none := by
    have hsame := congrArg Declaration.inheritDoc (view_node_eq_of_column_eq hdeclared id)
    exact hsame.trans hnone
  have hrun : (order.foldl copyDocs start).node id = start.node id := by
    refine List.foldlRecOn (motive := fun later : Forest => later.node id = start.node id)
      order copyDocs rfl fun later hlater other _ => ?_
    rw [node_copyDocs_of_inheritDoc_eq_none (hlater ▸ hsource), hlater]
  rw [view_node_eq_of_column_eq hend id, hrun, view_node_eq_of_column_eq hstart id]

/-- There is one node per record to the end. -/
theorem size_resolve (settings : Settings) (collection : Collection) :
    ((ofCollection collection).resolve settings).nodes.size = collection.records.size := by
  rw [size_eq_of_column_eq (column_declaration_resolve settings _), size_ofCollection]

end Forest

end SymbolTree
