import SymbolTree.FieldReader
import SymbolTree.Proofs.Evaluation
import SymbolTree.Proofs.KeyMap
import SymbolTree.Proofs.Views

/-!
# Node objects

A node is written as one flat object: its fixed fields, the extras that its record brought along,
and its children last. A fixed field with nothing to show is left out, and an extra with the name of
a fixed field is dropped. Of whatever an object shows under a name, it is therefore clear where it
comes from.
-/

namespace SymbolTree

/-! ## Fields that may be left out -/

/-- The fields that have a value. -/
def presentFields (fields : List (String × Option Json)) : List (String × Json) :=
  fields.filterMap fun field => field.2.map (field.1, ·)

/-- A text, unless it is empty. -/
def shownText? (text : String) : Option Json := if text.isEmpty then none else some (.string text)

/-- A list, unless it is empty. -/
def shownList? (items : List Json) : Option Json :=
  if items.isEmpty then none else some (.array items)

/-- What is present of two lists is present in one of them. -/
@[simp] theorem presentFields_append (fields others : List (String × Option Json)) :
    presentFields (fields ++ others) = presentFields fields ++ presentFields others :=
  List.filterMap_append

/-- No field, nothing present. -/
@[simp] theorem presentFields_nil : presentFields [] = [] := rfl

/-- A field stands first if it has a value. -/
theorem presentFields_cons (name : String) (value? : Option Json)
    (fields : List (String × Option Json)) :
    presentFields ((name, value?) :: fields) =
      (value?.map (name, ·)).toList ++ presentFields fields := by
  cases value? <;> rfl

/-- The fields that are present keep their order. -/
theorem map_fst_presentFields_sublist (fields : List (String × Option Json)) :
    ((presentFields fields).map (·.1)).Sublist (fields.map (·.1)) := by
  induction fields with
  | nil => exact .slnil
  | cons field fields ih =>
    obtain ⟨name, value?⟩ := field
    cases value? with
    | none => exact ih.cons name
    | some value => exact ih.cons_cons name

/-- A name that no field has is not present. -/
theorem lookup_presentFields_of_notMem {fields : List (String × Option Json)} {name : String}
    (hname : name ∉ fields.map (·.1)) : (presentFields fields).lookup name = none := by
  refine List.lookup_eq_none_iff.mpr fun field hfield => ?_
  have hmem := (map_fst_presentFields_sublist fields).subset (List.mem_map_of_mem hfield)
  exact bne_iff_ne.mpr fun heq => hname (heq ▸ hmem)

/-- Among fields of distinct names, each has its own value. -/
theorem lookup_presentFields {fields : List (String × Option Json)}
    (hnodup : (fields.map (·.1)).Nodup) {field : String × Option Json} (hfield : field ∈ fields) :
    (presentFields fields).lookup field.1 = field.2 := by
  induction fields with
  | nil => cases hfield
  | cons first fields ih =>
    obtain ⟨hfresh, hrest⟩ := List.nodup_cons.mp hnodup
    rw [presentFields_cons, List.lookup_append]
    rcases List.mem_cons.mp hfield with rfl | hfield
    · rw [lookup_presentFields_of_notMem hfresh, Option.or_none]
      cases field.2 <;> simp
    · have hne : (field.1 == first.1) = false :=
        beq_eq_false_iff_ne.mpr fun heq => hfresh (List.mem_map.mpr ⟨field, hfield, heq⟩)
      rw [ih hrest hfield]
      cases first.2 <;> simp [List.lookup_cons, hne]

section Flattened

/-! Between the fields that come before and after them, extras of other names are written. -/

variable {before after : List (String × Option Json)} {extras : KeyMap Json}

/-- No name occurs twice. -/
theorem nodup_flattened (hnodup : ((before ++ after).map (·.1)).Nodup)
    (hextras : ∀ name ∈ extras.keys, name ∉ (before ++ after).map (·.1)) :
    ((presentFields before ++ extras.entries ++ presentFields after).map (·.1)).Nodup := by
  have hsublist := map_fst_presentFields_sublist (before ++ after)
  have hperm : (presentFields before ++ extras.entries ++ presentFields after).Perm
      (presentFields (before ++ after) ++ extras.entries) := by
    rw [presentFields_append, List.append_assoc, List.append_assoc]
    exact List.perm_append_comm.append_left _
  rw [(hperm.map _).nodup_iff, List.map_append]
  refine (hsublist.nodup hnodup).append extras.nodup_keys fun name hfixed hextra => ?_
  exact hextras name hextra (hsublist.subset hfixed)

/-- A fixed field shows its value. -/
theorem lookup_flattened_of_mem (hnodup : ((before ++ after).map (·.1)).Nodup)
    (hextras : ∀ name ∈ extras.keys, name ∉ (before ++ after).map (·.1))
    {field : String × Option Json} (hfield : field ∈ before ++ after) :
    (presentFields before ++ extras.entries ++ presentFields after).lookup field.1 = field.2 := by
  -- No extra has the name, so what is found is found among the fixed fields.
  have hnone : extras.entries.lookup field.1 = none := by
    refine Option.eq_none_iff_forall_ne_some.mpr fun value hvalue => ?_
    exact hextras _ (KeyMap.mem_keys_of_get? hvalue) (List.mem_map_of_mem hfield)
  rw [List.lookup_append, List.lookup_append, hnone, Option.or_none, ← List.lookup_append,
    ← presentFields_append, lookup_presentFields hnodup hfield]

/-- Any other name shows the extra of that name. -/
theorem lookup_flattened_of_notMem {name : String} (hname : name ∉ (before ++ after).map (·.1)) :
    (presentFields before ++ extras.entries ++ presentFields after).lookup name =
      extras.get? name := by
  rw [List.map_append, List.mem_append, not_or] at hname
  rw [List.lookup_append, List.lookup_append, lookup_presentFields_of_notMem hname.1,
    lookup_presentFields_of_notMem hname.2, Option.none_or, Option.or_none, KeyMap.get?]

end Flattened

/-! ## What a view shows -/

/-- The names of the types of nodes. -/
def typeNames : List (NodeType × String) :=
  [(.section, "section"), (.class, "class"), (.method, "method"), (.property, "property"),
    (.instanceMethod, "instance method"), (.instanceProperty, "instance property"),
    (.classMethod, "class method"), (.classProperty, "class property"),
    (.constructor, "constructor"), (.event, "event"), (.cfg, "cfg"), (.cssVar, "css_var"),
    (.cssMixin, "css_mixin"), (.utility, "utility")]

/-- Every type has its name. -/
private theorem lookup_typeNames (type : NodeType) : typeNames.lookup type = some type.text := by
  cases type <;> rfl

/-- What an ancestor is shown as: an object with its id, and with its parents if there are any. -/
inductive Ancestor.ShownAs : Ancestor → Json → Prop
  | root (id : String) : ShownAs ⟨id, []⟩ (.object [("id", .string id)])
  | child {parents : List Ancestor} {objects : List Json} (id : String) : parents ≠ [] →
      List.Forall₂ ShownAs parents objects →
      ShownAs ⟨id, parents⟩ (.object [("id", .string id), ("parents", .array objects)])

mutual

/-- An ancestor is shown as its value. -/
theorem Ancestor.shownAs_toJson : (ancestor : Ancestor) → ancestor.ShownAs ancestor.toJson
  | ⟨id, []⟩ => .root id
  | ⟨id, parent :: parents⟩ =>
    .child id (List.cons_ne_nil _ _) (Ancestor.forall₂_shownAs_listToJson (parent :: parents))

/-- Ancestors are shown as their values. -/
theorem Ancestor.forall₂_shownAs_listToJson : (ancestors : List Ancestor) →
    List.Forall₂ Ancestor.ShownAs ancestors (Ancestor.listToJson ancestors)
  | [] => .nil
  | ancestor :: rest =>
    .cons ancestor.shownAs_toJson (Ancestor.forall₂_shownAs_listToJson rest)

end

/-- The fixed fields before the extras, each with what it shows of a node in an output file. -/
def fixedBefore (node : Node) (outFile : String) (inheritedFrom : Option String)
    (ancestors : List Json) : List (String × Option Json) :=
  [("id", some (.string node.id)), ("name", some (.string node.name)),
    ("name_prefix", shownText? node.ownerText), ("path", some (.string node.path)),
    ("type", (typeNames.lookup node.type).map .string),
    ("description", shownText? node.description), ("short_description", shownText? node.summary),
    ("file", some (.string node.location.file.text)),
    ("line", some (.ofNat node.location.line.toNat)), ("superclass", node.superclass.map .string),
    ("subclasses", shownList? (node.subclasses.map .string)),
    ("inherits", shownList? (node.inherits.map .string)), ("hierarchy", shownList? ancestors),
    ("alias_of", node.aliasOf.map .string), ("aliases", shownList? (node.aliases.map .string)),
    ("bound", node.bound.map .string),
    ("extension", if node.extension then some (.bool true) else none),
    ("out_file", some (.string outFile)), ("anchor", node.anchor.map .string),
    ("link", some (.string (outFile ++ (node.anchor.map ("#" ++ ·)).getD ""))),
    ("inherited_from", inheritedFrom.map .string)]

/-- All fixed fields, each with what it shows of a node in an output file. The children come after
the extras. -/
def fixedFields (node : Node) (outFile : String) (inheritedFrom : Option String)
    (ancestors children : List Json) : List (String × Option Json) :=
  fixedBefore node outFile inheritedFrom ancestors ++ [("children", shownList? children)]

/-- The fixed fields, each with what it shows of a node behind an edge. An inherited member is shown
in the output file of its edge if it has one, and with the ancestor that it comes from. -/
def Edge.fixedFields (edge : Edge) (node : Node) (ancestors children : List Json) :
    List (String × Option Json) :=
  match edge with
  | .owned _ => SymbolTree.fixedFields node node.outFile none ancestors children
  | .inherited _ ancestor partition =>
    SymbolTree.fixedFields node (partition.getD node.outFile) (some ancestor) ancestors children

section FixedFields

variable {node : Node} {outFile : String} {inheritedFrom : Option String}
  {ancestors children : List Json}

/-- The reserved names are those of the fixed fields. -/
theorem map_fst_fixedFields :
    (fixedFields node outFile inheritedFrom ancestors children).map (·.1) = reservedFields := rfl

/-- No two fixed fields have the same name. -/
theorem nodup_map_fst_fixedFields :
    ((fixedFields node outFile inheritedFrom ancestors children).map (·.1)).Nodup := by
  rw [map_fst_fixedFields]
  decide

end FixedFields

/-! ## The object of a view -/

namespace NodeView

/-- Views are written one by one. -/
@[simp] theorem listToJson_eq (views : List NodeView) : listToJson views = views.map toJson := by
  induction views with
  | nil => simp [listToJson]
  | cons view views ih => simp [listToJson, ih]

private theorem textField_eq (name text : String) :
    textField name text = ((shownText? text).map (name, ·)).toList := by
  unfold textField shownText?
  split <;> rfl

private theorem listField_eq (name : String) (items : List Json) :
    listField name items = ((shownList? items).map (name, ·)).toList := by
  unfold listField shownList?
  split <;> rfl

private theorem optionalField_eq (name : String) (text : Option String) :
    optionalField name text = ((text.map Json.string).map (name, ·)).toList := by
  cases text <;> rfl

private theorem flagField_eq (name : String) (flag : Bool) :
    (if flag then [(name, Json.bool true)] else []) =
      ((if flag then some (Json.bool true) else none).map (name, ·)).toList := by
  cases flag <;> rfl

/-- The link of a view is its output file, with the place inside after a hash sign. -/
private theorem link_eq (view : NodeView) :
    view.link = view.outFile ++ (view.node.anchor.map ("#" ++ ·)).getD "" := by
  unfold link
  cases view.node.anchor with
  | none => exact String.append_empty.symm
  | some anchor => exact String.append_assoc

/-- The fixed fields of a view that stand before its extras. -/
private def leading (view : NodeView) : List (String × Option Json) :=
  fixedBefore view.node view.outFile view.inheritedFrom (Ancestor.listToJson view.node.hierarchy)

/-- All fixed fields of a view. -/
private def fixed (view : NodeView) : List (String × Option Json) :=
  fixedFields view.node view.outFile view.inheritedFrom
    (Ancestor.listToJson view.node.hierarchy) (view.children.map toJson)

/-- The leading fields of a view are its fixed ones that are present, and the extras. -/
private theorem leadingFields_eq (view : NodeView) :
    view.leadingFields = presentFields view.leading ++ (extras view.node).entries := by
  -- Both sides are brought to one list, field by field from the left.
  unfold leadingFields
  simp only [leading, fixedBefore, lookup_typeNames, link_eq, textField_eq, listField_eq,
    optionalField_eq, flagField_eq, presentFields_cons, presentFields_nil, Option.map_some,
    Option.toList_some, List.append_assoc, List.cons_append, List.nil_append]

/-- A view is written as its fixed fields that are present, with the extras before the children. -/
private theorem toJson_eq (view : NodeView) :
    view.toJson = .object (presentFields view.leading ++ (extras view.node).entries ++
      presentFields [("children", shownList? (view.children.map toJson))]) := by
  obtain ⟨node, outFile, inheritedFrom, children⟩ := view
  rw [toJson, leadingFields_eq, listField_eq, listToJson_eq, presentFields_cons, presentFields_nil,
    List.append_nil]
  rfl

/-- An extra is shown unless its name is reserved. -/
theorem get?_extras (node : Node) (name : String) :
    (extras node).get? name = if name ∈ reservedFields then none else node.extra.get? name := by
  refine Option.ext fun value => ?_
  rw [← KeyMap.mem_entries_iff]
  by_cases hname : name ∈ reservedFields <;>
    simp [extras, KeyMap.filter, hname, KeyMap.mem_entries_iff]

/-- No extra that is shown has the name of a fixed field. -/
private theorem notMem_fixed_of_mem_extras (view : NodeView) :
    ∀ name ∈ (extras view.node).keys, name ∉ view.fixed.map (·.1) := by
  intro name hname hfixed
  obtain ⟨value, hvalue⟩ := KeyMap.mem_keys_iff.mp hname
  rw [fixed, map_fst_fixedFields] at hfixed
  rw [get?_extras, if_pos hfixed] at hvalue
  cases hvalue

/-- The object of a view shows nothing twice. It has each fixed field with its value, or not at all
if there is nothing to show, and under any other name what the node has as an extra. -/
private theorem exists_fields_toJson (view : NodeView) :
    ∃ fields, view.toJson = .object fields ∧ (fields.map (·.1)).Nodup ∧
      (∀ field ∈ view.fixed, fields.lookup field.1 = field.2) ∧
      ∀ name ∉ view.fixed.map (·.1), fields.lookup name = view.node.extra.get? name := by
  have hextras := view.notMem_fixed_of_mem_extras
  refine ⟨_, view.toJson_eq, nodup_flattened nodup_map_fst_fixedFields hextras,
    fun field hfield => ?_, fun name hname => ?_⟩
  · exact lookup_flattened_of_mem nodup_map_fst_fixedFields hextras hfield
  · refine (lookup_flattened_of_notMem hname).trans ?_
    rw [fixed, map_fst_fixedFields] at hname
    rw [get?_extras, if_neg hname]

/-- The object of a view lists the objects of its children, unless there are none. -/
theorem field?_children_toJson (view : NodeView) :
    view.toJson.field? "children" = shownList? (view.children.map toJson) := by
  obtain ⟨fields, hfields, _, hfixed, _⟩ := view.exists_fields_toJson
  rw [hfields]
  exact hfixed ("children", _) (List.mem_append_right _ List.mem_cons_self)

/-- The fixed fields of a rendered edge show its node and the edge itself. -/
private theorem Renders.fixed_eq {tree : ResolvedTree} {withInherited : Bool} {edge : Edge}
    {view : NodeView} (h : Renders tree withInherited edge view) :
    view.fixed = edge.fixedFields (tree.node edge.child)
      (Ancestor.listToJson (tree.node edge.child).hierarchy) (view.children.map toJson) := by
  rw [fixed, h.node_eq, h.outFile_eq, h.inheritedFrom_eq]
  cases edge <;> rfl

end NodeView

/-! ## The objects of a document -/

/-- The node objects of a written document: those that it lists itself, and the children of
others. -/
inductive Json.ListsNode (document : Json) : Json → Prop
  | top {objects : List Json} {object : Json} :
      document.field? "tree" = some (.array objects) → object ∈ objects → ListsNode document object
  | child {objects : List Json} {parent object : Json} :
      ListsNode document parent → parent.field? "children" = some (.array objects) →
      object ∈ objects → ListsNode document object

namespace Document

variable {document : Document}

/-- A document lists the objects of its views. -/
private theorem field?_tree_toJson (document : Document) :
    document.toJson.field? "tree" = some (.array (document.tree.map NodeView.toJson)) := by
  rw [← NodeView.listToJson_eq]
  rfl

/-- The node objects of a written document are those of the views that it holds. -/
theorem listsNode_toJson_iff {object : Json} :
    document.toJson.ListsNode object ↔ ∃ view, document.Holds view ∧ view.toJson = object := by
  constructor
  · intro h
    induction h with
    | top hobjects hmem =>
      cases document.field?_tree_toJson.symm.trans hobjects
      obtain ⟨view, hview, rfl⟩ := List.mem_map.mp hmem
      exact ⟨view, ⟨view, hview, .refl⟩, rfl⟩
    | child _ hobjects hmem ih =>
      obtain ⟨parent, ⟨start, hstart, hchain⟩, rfl⟩ := ih
      rw [NodeView.field?_children_toJson, shownList?] at hobjects
      split at hobjects
      · cases hobjects
      · cases hobjects
        obtain ⟨view, hview, rfl⟩ := List.mem_map.mp hmem
        exact ⟨view, ⟨start, hstart, hchain.tail hview⟩, rfl⟩
  · rintro ⟨view, ⟨start, hstart, hchain⟩, rfl⟩
    induction hchain with
    | refl => exact .top document.field?_tree_toJson (List.mem_map_of_mem hstart)
    | @tail parent child _ hchild ih =>
      have hnonempty : (parent.children.map NodeView.toJson).isEmpty = false := by
        rw [List.isEmpty_map, List.isEmpty_eq_false_iff]
        exact List.ne_nil_of_mem hchild
      refine .child ih ?_ (List.mem_map_of_mem hchild)
      rw [NodeView.field?_children_toJson, shownList?, hnonempty]
      rfl

end Document

namespace Collection

/-- After any sequence of insertions and for all settings, the node objects of the written document
are those of the views that it holds, and each of these is rendered from an edge of the resolved
tree. No name occurs twice in an object. Every fixed field shows what it has to show of the node or
the edge, and is left out if that is nothing. Under any other name the object shows the extra that
the node has under this name, and nothing if it has none. -/
theorem node_objects_unambiguous (records : List Record) (settings : Settings)
    (title date : String) (globals : List String) :
    let tree := (empty.insertAll records).resolve settings
    let document := Document.ofTree tree title date globals
    (∀ object, document.toJson.ListsNode object ↔
      ∃ view, document.Holds view ∧ view.toJson = object) ∧
    ∀ view, document.Holds view →
      ∃ withInherited edge fields ancestors, tree.HasEdge edge ∧
        NodeView.Renders tree withInherited edge view ∧
        List.Forall₂ Ancestor.ShownAs (tree.node edge.child).hierarchy ancestors ∧
        let fixed := edge.fixedFields (tree.node edge.child) ancestors
          (view.children.map NodeView.toJson)
        view.toJson = .object fields ∧ (fields.map (·.1)).Nodup ∧
        (∀ field ∈ fixed, fields.lookup field.1 = field.2) ∧
        ∀ name ∉ fixed.map (·.1),
          fields.lookup name = (tree.node edge.child).extra.get? name := by
  intro tree document
  refine ⟨fun object => Document.listsNode_toJson_iff, fun view hholds => ?_⟩
  obtain ⟨withInherited, edge, hedge, hrenders⟩ :=
    exists_renders_of_holds records settings title date globals hholds
  obtain ⟨fields, hfields, hnodup, hfixed, hextras⟩ := view.exists_fields_toJson
  rw [hrenders.fixed_eq] at hfixed hextras
  exact ⟨withInherited, edge, fields, _, hedge, hrenders,
    Ancestor.forall₂_shownAs_listToJson _, hfields, hnodup, hfixed, hrenders.node_eq ▸ hextras⟩

/-- A class that has a field's name among its extras, and a method of the class that copies them and
has another. -/
def shadowingExtras : List Record :=
  [{ id := "Ajax", kind := .class, file := ⟨"lib/Ajax.js"⟩,
     extra := (KeyMap.empty.insert "since" (.string "1.5")).insert "name" (.string "Shadow") },
    { id := "Ajax#send", kind := .method, file := ⟨"lib/Ajax.js"⟩, inheritDoc := some "Ajax",
      extra := KeyMap.empty.insert "link" (.string "elsewhere") }]

/-- The object of the method shows its own name and its own link, and the extra that it has
copied. -/
theorem node_objects_unambiguous_of_shadowingExtras :
    let tree := (empty.insertAll shadowingExtras).resolve {}
    (tree.node 2).extra.keys = ["link", "name", "since"] ∧
      ∃ fields, (Document.ofTree tree "" "" []).toJson.ListsNode (.object fields) ∧
        (fields.map (·.1)).Nodup ∧ fields.lookup "name" = some (.string "send") ∧
        fields.lookup "type" = some (.string "instance method") ∧
        fields.lookup "link" = some (.string "ajax#Ajax.prototype.send") ∧
        (fields.lookup "since").bind Json.text? = some "1.5" := by
  intro tree
  obtain ⟨hsize, htop, hchildren, hkeys, hname, htype, houtFile, hanchor, hsince⟩ :
      tree.nodes.size = 3 ∧ tree.top = [.owned 1] ∧ (tree.node 1).children = [.owned 2] ∧
        (tree.node 2).extra.keys = ["link", "name", "since"] ∧ (tree.node 2).name = "send" ∧
        (tree.node 2).type = .instanceMethod ∧ (tree.node 2).outFile = "ajax" ∧
        (tree.node 2).anchor = some "Ajax.prototype.send" ∧
        ((tree.node 2).extra.get? "since").bind Json.text? = some "1.5" := by
    simp only [tree, resolve, Forest.resolve_eval]
    decide +kernel
  let member := NodeView.ofEdge tree 6 true (.owned 2)
  have hholds : (Document.ofTree tree "" "" []).Holds member := by
    refine ⟨NodeView.ofEdge tree 7 true (.owned 1), ?_, .single ?_⟩
    · rw [Document.ofTree, htop, hsize]
      exact List.mem_cons_self
    · exact List.mem_map_of_mem (List.mem_filter.mpr ⟨hchildren ▸ List.mem_cons_self, rfl⟩)
  obtain ⟨hlisted, hobjects⟩ := node_objects_unambiguous shadowingExtras {} "" "" []
  obtain ⟨_, edge, fields, ancestors, _, hrenders, _, hfields, hnodup, hfixed, hextras⟩ :=
    hobjects member hholds
  cases edge with
  | inherited => cases hrenders.inheritedFrom_eq
  | owned child =>
    have hnode : tree.node child = tree.node 2 := hrenders.node_eq.symm
    have hshown (field : String × Option Json)
        (hfield : field ∈ fixedBefore (tree.node 2) (tree.node 2).outFile none ancestors) :
        fields.lookup field.1 = field.2 := by
      rw [← hnode] at hfield
      exact hfixed field (List.mem_append_left _ hfield)
    have htypeName : typeNames.lookup (tree.node 2).type = some "instance method" := by
      rw [htype]
      rfl
    have hother : fields.lookup "since" = (tree.node child).extra.get? "since" := by
      refine hextras "since" ?_
      rw [Edge.fixedFields, map_fst_fixedFields]
      decide
    refine ⟨hkeys, fields, (hlisted _).mpr ⟨member, hholds, hfields⟩, hnodup, ?_, ?_, ?_, ?_⟩
    · exact hshown ("name", some (.string "send")) (by simp [fixedBefore, hname])
    · exact hshown ("type", some (.string "instance method"))
        (by simp [fixedBefore, htypeName])
    · exact hshown ("link", some (.string "ajax#Ajax.prototype.send"))
        (by simp [fixedBefore, houtFile, hanchor])
    · rw [hother, hnode, hsince]

end Collection

end SymbolTree
