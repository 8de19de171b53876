import SymbolTree.Proofs.NestedChildren
import SymbolTree.Proofs.NothingLost
import SymbolTree.Proofs.Redirects
import SymbolTree.Proofs.RelativeIds

/-!
# Extensions follow the symbols that they augment

An extension is redirected to the node with the id of its structural parent, and it copies the output
file that this owner has at that moment. Whatever moves one of the two later is an extension that
encloses it, and the id of a node begins with the ids of the nodes that enclose it. Redirects are made
in the order of ids, so what encloses an extension or its owner has had its turn before. Only an owner
that is a constructor may be moved later: it has another id than the one that it was nested by.
-/

namespace SymbolTree

/-- What follows the first delimiter of a key stays when the section is dropped. -/
theorem QualifiedName.text_dropSection_append {key : String} (hmarked : ¬ DelimiterFree key)
    (rest : String) :
    (parse (key ++ rest)).dropSection.text = (parse key).dropSection.text ++ rest := by
  obtain ⟨before, mark, after, hfree, hmark, hkey⟩ := exists_first_delimiter hmarked
  by_cases hdot : mark = '.'
  · have hbefore : DelimiterFree (String.ofList before) := by
      simpa [DelimiterFree] using hfree
    have hcut : key = String.ofList before ++ "." ++ String.ofList after := by
      rw [← String.toList_inj, hkey, hdot]
      simp
    rw [hcut, String.append_assoc, dropSection_parse hbefore, dropSection_parse hbefore, text_parse,
      text_parse]
  · have hmark : mark = '#' ∨ mark = '@' := by
      simpa [isDelimiter, hdot] using hmark
    have hlonger : (key ++ rest).toList = before ++ mark :: (after ++ rest.toList) := by
      simp [hkey]
    rw [dropSection_parse_of_mark hfree hmark hlonger, dropSection_parse_of_mark hfree hmark hkey,
      text_parse, text_parse]

/-- A key continues its structural parent. -/
theorem exists_rest_of_parentKey? {key parent : String} (hparent : parentKey? key = some parent) :
    ∃ rest, rest ≠ "" ∧ key = parent ++ rest := by
  obtain ⟨name, hname, rfl⟩ := Option.map_eq_some_iff.mp hparent
  obtain ⟨qualifier, segment, _, hchars⟩ := QualifiedName.chars_eq_of_parent? hname
  refine ⟨String.ofList (qualifier.mark :: segment.toList), by simp [← String.toList_inj], ?_⟩
  rw [← String.toList_inj, ← QualifiedName.chars_parse, hchars]
  simp [QualifiedName.text]

namespace Ownership

variable {a b : Ownership} {members : List NodeId} {rank : NodeId → Nat}

/-- Nodes of a set that is closed under owning can be ranked higher. -/
theorem IsForest.raise (h : a.IsForest members rank) {inside : NodeId → Prop}
    [DecidablePred inside]
    (hclosed : ∀ {parent child}, a.Owns parent child → inside parent → inside child)
    (bonus : Nat) :
    a.IsForest members fun id => if inside id then rank id + bonus else rank id where
  nodup := h.nodup
  links_perm := h.links_perm
  owner_mem := h.owner_mem
  lt_size := h.lt_size
  rank_lt {parent child} howns := by
    have hrank := h.rank_lt howns
    by_cases hparent : inside parent
    · simpa [hparent, hclosed howns hparent] using hrank
    · rw [if_neg hparent]
      split <;> omega

/-- When nodes are moved such that every rank of the nodes stays one, sets that are closed under
owning stay closed: otherwise a set is ranked so high that its nodes own nothing outside. -/
theorem IsForest.closed_of_ranks (h : a.IsForest members rank)
    (hranks : ∀ {rank}, a.IsForest members rank → b.IsForest members rank)
    {inside : NodeId → Prop}
    (hclosed : ∀ {parent child}, a.Owns parent child → inside parent → inside child)
    {parent child : NodeId} (howns : b.Owns parent child) (hparent : inside parent) :
    inside child := by
  classical
  by_contra hchild
  have hraised := (hranks (h.raise hclosed (rank child))).rank_lt howns
  simp only [hparent, hchild, if_true, if_false] at hraised
  omega

end Ownership

namespace Forest

variable {forest : Forest} {root : NodeId}

/-- Classification leaves ownership alone. -/
theorem ownership_classify (forest : Forest) : forest.classify.ownership = forest.ownership := by
  have hchildren : forest.classify.column Node.children = forest.column Node.children :=
    column_classify (view_classifyNode fun _ _ _ => rfl) _
  refine Ownership.ext (size_eq_of_column_eq hchildren) ?_ (funext fun id => ?_)
  · rw [ownership, ownership, top_classify]
  · have hnode := view_node_eq_of_column_eq hchildren id
    simp only [ownership, Node.ownedChildren, Node.ownedEdges, hnode]

/-- A node has a key that begins with a text. -/
def KeyedBelow (forest : Forest) (start : String) (id : NodeId) : Prop :=
  ∃ rest, forest.keys.get? (start ++ rest) = some id

/-- Nesting puts nodes below nodes whose keys theirs begin with. -/
theorem Nestable.keyedBelow_of_owns (h : forest.Nestable root) {start : String}
    {parent child : NodeId} (howns : forest.nest.ownership.Owns parent child)
    (hparent : forest.KeyedBelow start parent) : forest.KeyedBelow start child := by
  obtain ⟨rest, hkey⟩ := hparent
  have hne : start ++ rest ≠ "" := by
    intro hempty
    rw [hempty, h.root_key] at hkey
    have hseated := h.isForest_nest.owner_mem howns
    have hnodup := h.values_perm.nodup_iff.mp h.nodup_values
    exact (List.nodup_cons.mp hnodup).1 (Option.some.inj hkey ▸ hseated)
  have hchild : child ∈ forest.childIds (start ++ rest) := by
    rw [← h.owned_of_key hne hkey]
    exact howns
  obtain ⟨seat, hseat, rfl⟩ := List.mem_map.mp hchild
  obtain ⟨hmem, hparent⟩ := List.mem_filter.mp hseat
  obtain ⟨key, id, hheld, rfl⟩ := mem_seats_iff.mp hmem
  have hparentKey : parentKey? key = some (start ++ rest) := beq_iff_eq.mp hparent
  obtain ⟨more, _, hmore⟩ := exists_rest_of_parentKey? hparentKey
  exact ⟨rest ++ more, by rw [← String.append_assoc, ← hmore]; exact hheld⟩

end Forest

namespace Collection

variable {records : List Record} {settings : Settings} {id other : NodeId}

/-- Linking nodes and lifting classes leaves nodes below nodes whose keys theirs begin with. -/
theorem keyedBelow_of_chain {key : String}
    (hkey : (Forest.ofCollection (empty.insertAll records)).assignSections.keys.get? key =
      some id)
    (hchain : Relation.ReflTransGen ((empty.insertAll records).assigned settings).ownership.Owns
      id other) :
    (Forest.ofCollection (empty.insertAll records)).assignSections.KeyedBelow key other := by
  obtain ⟨root, hroot, h⟩ := exists_unentered records
  have hall := h.allOwned_classify
  induction hchain with
  | refl => exact ⟨"", by simpa using hkey⟩
  | tail _ howns ih =>
    -- linking and lifting keep every rank that nested nodes have, not only the length of the key
    refine hall.isForest.closed_of_ranks
      (fun hranked => isForest_assigned settings ⟨hranked, hall.isOwned_top, hall.isOwned_child⟩)
      (fun {parent child} hnested hparent => ?_) howns ih
    rw [Forest.ownership_classify] at hnested
    exact h.keyedBelow_of_owns hnested hparent

/-- A node that is no section is nested by a key with a section, and its id is what remains without
it. -/
theorem exists_key_nested
    (hreachable : ((empty.insertAll records).resolve settings).ownership.Reachable id)
    (hsection : (((empty.insertAll records).resolve settings).node id).isSection = false) :
    ∃ key, (Forest.ofCollection (empty.insertAll records)).assignSections.keys.get? key = some id ∧
      ¬ DelimiterFree key ∧
      ((empty.insertAll records).nested.node id).id =
        (QualifiedName.parse key).dropSection.text := by
  obtain ⟨root, _, h⟩ := exists_unentered records
  obtain ⟨record, hrecord, _⟩ := exists_record_of_reachable hreachable
  have hkind : record.kind ≠ .section := by
    intro hkind
    have hstart : ((Forest.ofCollection (empty.insertAll records)).node id).isSection = true := by
      refine Forest.view_node_ofCollection (fun _ _ => rfl) hrecord |>.trans ?_
      rw [Node.isSection, Node.ofRecord, hkind]
      rfl
    have hend := Forest.isSection_resolve settings (Forest.ofCollection (empty.insertAll records)) id
    exact absurd (hend.symm.trans hsection) (by rw [hstart]; decide)
  obtain ⟨moved, _, hkey⟩ := exists_key_of_reachable hreachable hrecord
  refine ⟨_, hkey, ?_, (names_nested h.toNestable hrecord hkind hkey).1⟩
  rw [Record.append_key_of_not_section hkind]
  exact fun hfree => absurd (hfree '.' (by simp)) (by decide)

/-- The id that nesting gives a node begins with the one of every node that encloses it, unless one of
them is a section. -/
theorem id_nested_of_chain
    (hreachable : ((empty.insertAll records).resolve settings).ownership.Reachable id)
    (hsection : (((empty.insertAll records).resolve settings).node id).isSection = false)
    (hother : ((empty.insertAll records).resolve settings).ownership.Reachable other)
    (hotherSection : (((empty.insertAll records).resolve settings).node other).isSection = false)
    (hchain : Relation.ReflTransGen ((empty.insertAll records).assigned settings).ownership.Owns
      id other) :
    ∃ rest, ((empty.insertAll records).nested.node other).id =
        ((empty.insertAll records).nested.node id).id ++ rest ∧ (rest = "" → other = id) := by
  obtain ⟨root, _, h⟩ := exists_unentered records
  obtain ⟨key, hkey, hmarked, hid⟩ := exists_key_nested hreachable hsection
  obtain ⟨otherKey, hotherKey, _, hotherId⟩ := exists_key_nested hother hotherSection
  obtain ⟨rest, hbelow⟩ := keyedBelow_of_chain hkey hchain
  obtain rfl := KeyMap.get?_inj_of_nodup_values h.nodup_values hotherKey hbelow
  refine ⟨rest, ?_, fun hrest => ?_⟩
  · rw [hid, hotherId, QualifiedName.text_dropSection_append hmarked]
  · rw [hrest, String.append_empty, hkey] at hbelow
    exact (Option.some.inj hbelow).symm

/-- Extensions are no constructors if no inserted record is both. -/
theorem not_constructor_of_extension
    (hconstructors : ∀ record ∈ records, record.kind = .constructor → record.extension = false)
    (hreachable : ((empty.insertAll records).resolve settings).ownership.Reachable id)
    (hextension : (((empty.insertAll records).resolve settings).node id).extension = true) :
    (((empty.insertAll records).resolve settings).node id).type ≠ .constructor := by
  intro htype
  obtain ⟨record, hrecord, hfiled⟩ := exists_record_of_reachable hreachable
  obtain ⟨source, hsource, _, rfl⟩ := exists_source_of_mem_filings hfiled
  have hnested := (Forest.isConstructor_placed settings _ id).mp htype
  have hkind : source.kind = .constructor :=
    NodeType.ofKind_eq_iff.2.mp ((type_nested hrecord).symm.trans hnested)
  have hdeclared := congrArg Declaration.extension
    (Forest.carries_resolve hrecord settings).declaration_eq
  have hkept := hconstructors _ hsource hkind
  exact Bool.noConfusion (hextension.symm.trans (hdeclared.trans hkept))

/-- No extension moves another node after its own turn if its id continues the id of that node. -/
theorem not_movedAfter {rest : String}
    (hconstructors : ∀ record ∈ records, record.kind = .constructor → record.extension = false)
    (hother : ((empty.insertAll records).resolve settings).ownership.Reachable other)
    (hsection : (((empty.insertAll records).resolve settings).node other).isSection = false)
    (htype : (((empty.insertAll records).resolve settings).node other).type ≠ .constructor)
    (hid : (((empty.insertAll records).resolve settings).node id).id =
      (((empty.insertAll records).resolve settings).node other).id ++ rest)
    (hrest : rest = "" → other = id) :
    ¬ ((empty.insertAll records).assigned settings).MovedAfter settings id other := by
  intro hmoved
  let tree := (empty.insertAll records).resolve settings
  have halike := (empty.insertAll records).alike_resolve settings
  obtain ⟨members, rank, hforest, hmembers⟩ := exists_isForest_assigned records settings
  obtain ⟨mover, hplaced, hne, hle, hredirect, hchain⟩ := hmoved.exists_mover
    ((Forest.placed_perm hforest).nodup_iff.mpr (hforest.nodup.filter _))
  have hmover : tree.ownership.Reachable mover :=
    (hmembers mover).mp (List.mem_filter.mp ((Forest.placed_perm hforest).mem_iff.mp hplaced)).1
  rw [← halike.redirect?_eq] at hredirect
  obtain ⟨hextension, _, hmoverSection⟩ := Forest.extension_of_redirect? hredirect
  obtain ⟨more, hnested, hself⟩ := id_nested_of_chain hmover hmoverSection hother hsection hchain
  have hmoverType := not_constructor_of_extension hconstructors hmover hextension
  have hbegins : (tree.node id).id = (tree.node mover).id ++ (more ++ rest) := by
    have hmoverId : (tree.node mover).id = if (tree.node mover).type = .constructor then _ else _ :=
      final_id_eq hmover
    have hotherId : (tree.node other).id = if (tree.node other).type = .constructor then _ else _ :=
      final_id_eq hother
    rw [if_neg hmoverType] at hmoverId
    rw [if_neg htype] at hotherId
    rw [hid, hotherId, hmoverId, hnested, String.append_assoc]
  have hview (node : NodeId) :
      (((empty.insertAll records).assigned settings).node node).id = (tree.node node).id :=
    (halike.view_eq Node.id (fun _ => rfl) node).symm
  -- the mover does not come before the extension, and its id is where the id of the extension begins
  rw [hview, hview, hbegins] at hle
  by_cases hempty : more ++ rest = ""
  · obtain ⟨hmore, hrestEmpty⟩ := String.append_eq_empty_iff.mp hempty
    exact hne ((hself hmore).symm.trans (hrest hrestEmpty))
  · rw [Std.OrientedCmp.gt_of_lt (compareIds_append_lt hempty (tree.node mover).id)] at hle
    exact Bool.noConfusion hle

/-- An extension has its turn if it can be reached and is no section. -/
theorem mem_placed_assigned
    (hreachable : ((empty.insertAll records).resolve settings).ownership.Reachable id)
    (hsection : (((empty.insertAll records).resolve settings).node id).isSection = false) :
    id ∈ ((empty.insertAll records).assigned settings).placed := by
  obtain ⟨members, rank, hforest, hmembers⟩ := exists_isForest_assigned records settings
  rw [(Forest.placed_perm hforest).mem_iff, List.mem_filter,
    ← ((empty.insertAll records).alike_resolve settings).view_eq Node.isSection fun _ => rfl]
  exact ⟨(hmembers id).mpr hreachable, congrArg (!·) hsection⟩

/-- Where an extension is redirected, by the id that it ends with. -/
theorem redirect?_assigned {parent : String}
    (hextension : (((empty.insertAll records).resolve settings).node id).extension = true)
    (hclass : (((empty.insertAll records).resolve settings).node id).isClass = false)
    (hsection : (((empty.insertAll records).resolve settings).node id).isSection = false)
    (hparent : parentKey? (((empty.insertAll records).resolve settings).node id).id =
      some parent) :
    let lookup := ((empty.insertAll records).resolve settings).lookup
    ((empty.insertAll records).assigned settings).redirect? id =
      ((lookup.get? parent).or (lookup.get? (Forest.trimStart parent))).filter (· ≠ id) := by
  rw [← ((empty.insertAll records).alike_resolve settings).redirect?_eq,
    Forest.redirect?_eq hextension hclass hsection]
  exact Forest.extensionOwner?_eq hparent

/-- A node has a longer id than its structural parent. -/
theorem ne_of_parentKey? {tree : ResolvedTree} {parent : String} {owner : NodeId}
    (hparent : parentKey? (tree.node id).id = some parent)
    (howner : (tree.node owner).id.length ≤ parent.length) : owner ≠ id := by
  rintro rfl
  obtain ⟨name, hname, rfl⟩ := Option.map_eq_some_iff.mp hparent
  have hlt := QualifiedName.length_text_parent?_lt hname
  omega

/-- An extension ends in the output file of the node to which it is redirected, unless one of the two
is moved afterwards. -/
theorem outFile_eq_of_redirect? {owner : NodeId}
    (hreachable : ((empty.insertAll records).resolve settings).ownership.Reachable id)
    (hsection : (((empty.insertAll records).resolve settings).node id).isSection = false)
    (howner : ((empty.insertAll records).resolve settings).ownership.Reachable owner)
    (hredirect : ((empty.insertAll records).assigned settings).redirect? id = some owner)
    (hself : ¬ ((empty.insertAll records).assigned settings).MovedAfter settings id id)
    (hstays : ¬ ((empty.insertAll records).assigned settings).MovedAfter settings id owner) :
    (((empty.insertAll records).resolve settings).node id).outFile =
      (((empty.insertAll records).resolve settings).node owner).outFile := by
  obtain ⟨members, rank, hforest, hmembers⟩ := exists_isForest_assigned records settings
  rw [outFile_resolve hreachable, outFile_resolve howner, Forest.source_eq_of_not_movedAfter
    (mem_placed_assigned hreachable hsection) (hforest.lt_size ((hmembers id).mpr hreachable))
    hredirect hself hstays]

/-- After any sequence of insertions in which no constructor is an extension, and for all settings, an
extension that is no class and no section keeps the location of its record. If its structural parent
names a node, the two end in one output file exactly if their sources were assigned the same one, and
they do unless an extension that comes after it moves the owner. Only a constructor is moved so late. -/
theorem extension_follows_owner_iff (records : List Record) (settings : Settings)
    (hconstructors : ∀ record ∈ records, record.kind = .constructor → record.extension = false) :
    let collection := empty.insertAll records
    let tree := collection.resolve settings
    let before := collection.assigned settings
    ∀ id parent owner, tree.ownership.Reachable id → (tree.node id).extension = true →
      (tree.node id).isClass = false → (tree.node id).isSection = false →
      parentKey? (tree.node id).id = some parent → tree.lookup.get? parent = some owner →
      (∃ record ∈ filings records, collection.records.values[id]? = some record ∧
        (tree.node id).location = record.location) ∧
      ((tree.node id).outFile = (tree.node owner).outFile ↔
        (before.node (before.source settings id)).outFile =
          (before.node (before.source settings owner)).outFile) ∧
      (¬ before.MovedAfter settings id owner →
        (tree.node id).outFile = (tree.node owner).outFile) ∧
      (before.MovedAfter settings id owner → (tree.node owner).type = .constructor) := by
  intro collection tree before id parent owner hreachable hextension hclass hsection hparent howner
  obtain ⟨hownerId, hownerSection, hownerReachable⟩ := entry_of_resolve howner
  refine ⟨?_, ?_, fun hstays => ?_, fun hmoved => ?_⟩
  · obtain ⟨record, hrecord, hfiled⟩ := exists_record_of_reachable hreachable
    exact ⟨record, hfiled, hrecord, congrArg Declaration.location
      (Forest.carries_resolve hrecord settings).declaration_eq⟩
  · rw [outFile_resolve hreachable, outFile_resolve hownerReachable]
  · have hredirect : before.redirect? id = some owner := by
      rw [redirect?_assigned hextension hclass hsection hparent, howner]
      simp [ne_of_parentKey? hparent (congrArg String.length hownerId).le]
    have hself : ¬ before.MovedAfter settings id id :=
      not_movedAfter hconstructors hreachable hsection
        (not_constructor_of_extension hconstructors hreachable hextension)
        String.append_empty.symm fun _ => rfl
    exact outFile_eq_of_redirect? hreachable hsection hownerReachable hredirect hself hstays
  · by_contra htype
    obtain ⟨rest, hrest, hcontinues⟩ := exists_rest_of_parentKey? hparent
    exact not_movedAfter hconstructors hownerReachable hownerSection htype
      (hcontinues.trans (congrArg (· ++ rest) hownerId.symm)) (fun hempty => absurd hempty hrest)
      hmoved

/-- An extension of an extension. -/
def nestedExtensions : List Record :=
  [{ id := "Kit", kind := .class, file := ⟨"kit.js"⟩ },
    { id := "Kit.ui", kind := .property, file := ⟨"ui.js"⟩, «extension» := true },
    { id := "Kit.ui.size", kind := .property, file := ⟨"size.js"⟩, «extension» := true }]

/-- The inner extension goes where the outer one goes. -/
theorem extension_follows_owner_iff_of_nestedExtensions :
    let tree := (empty.insertAll nestedExtensions).resolve {}
    tree.lookup.get? "Kit.ui" = some 2 ∧ (tree.node 2).outFile = "kit" ∧
      (tree.node 3).outFile = (tree.node 2).outFile ∧ (tree.node 3).location.file = ⟨"size.js"⟩ := by
  intro tree
  obtain ⟨⟨htop, houter, hinner⟩, ⟨hextension, hclass, hsection⟩, hid, howner, htype, hfile, hsize⟩ :
      (1 ∈ tree.top.map Edge.child ∧ 2 ∈ (tree.node 1).ownedChildren ∧
        3 ∈ (tree.node 2).ownedChildren) ∧
      ((tree.node 3).extension = true ∧ (tree.node 3).isClass = false ∧
        (tree.node 3).isSection = false) ∧
      parentKey? (tree.node 3).id = some "Kit.ui" ∧ tree.lookup.get? "Kit.ui" = some 2 ∧
      (tree.node 2).type ≠ .constructor ∧ (tree.node 2).outFile = "kit" ∧
      (empty.insertAll nestedExtensions).records.values[3]?.map (·.file) = some ⟨"size.js"⟩ := by
    simp only [tree, resolve, Forest.resolve_eval]
    decide +kernel
  have hreachable : tree.ownership.Reachable 3 :=
    Ownership.reachable_iff_exists_line.mpr ⟨_, .child (.child (.top htop) houter) hinner⟩
  obtain ⟨⟨record, _, hrecord, hlocation⟩, _, hfollows, hconstructor⟩ :=
    extension_follows_owner_iff nestedExtensions {} (by decide) 3 "Kit.ui" 2 hreachable hextension
      hclass hsection hid howner
  refine ⟨howner, hfile, hfollows fun hmoved => htype (hconstructor hmoved), ?_⟩
  rw [hrecord] at hsize
  rw [hlocation]
  exact Option.some.inj hsize

/-- An extension of a constructor, which is renamed and lies within another extension. -/
def extensionOfConstructor : List Record :=
  [{ id := "Ui", kind := .class, file := ⟨"ui.js"⟩ },
    { id := "Ui.Kit", kind := .property, file := ⟨"kit.js"⟩, «extension» := true },
    { id := "Ui.Kit.new", kind := .constructor, file := ⟨"kit.js"⟩ },
    { id := "new Ui.Kit#options", kind := .property, file := ⟨"options.js"⟩, «extension» := true }]

/-- The extension is redirected before the constructor is moved, and it is left behind. -/
theorem extension_left_behind_of_extensionOfConstructor :
    let tree := (empty.insertAll extensionOfConstructor).resolve {}
    (∀ record ∈ extensionOfConstructor, record.section = none ∧
      (record.kind = .constructor → record.extension = false)) ∧
    tree.ownership.Reachable 4 ∧ (tree.node 4).extension = true ∧
      (tree.node 4).isClass = false ∧ (tree.node 4).isSection = false ∧
      parentKey? (tree.node 4).id = some "new Ui.Kit" ∧
      tree.lookup.get? "new Ui.Kit" = some 3 ∧ (tree.node 4).outFile = "kit" ∧
      (tree.node 3).outFile = "ui" := by
  intro tree
  obtain ⟨htop, hrest⟩ :
      4 ∈ tree.top.map Edge.child ∧ (tree.node 4).extension = true ∧
      (tree.node 4).isClass = false ∧ (tree.node 4).isSection = false ∧
      parentKey? (tree.node 4).id = some "new Ui.Kit" ∧
      tree.lookup.get? "new Ui.Kit" = some 3 ∧ (tree.node 4).outFile = "kit" ∧
      (tree.node 3).outFile = "ui" := by
    simp only [tree, resolve, Forest.resolve_eval]
    decide +kernel
  exact ⟨by decide, Ownership.reachable_iff_exists_line.mpr ⟨_, .top htop⟩, hrest⟩

end Collection

end SymbolTree
