import SymbolTree.Proofs.ExtensionOwners
import SymbolTree.Proofs.References

/-!
# Where renamed and marked extensions are redirected

The owner of an extension is read off the id that it ends with. A constructor is renamed by then: its
structural parent has `new` before it and is no class. When no node has the id of the structural
parent, the owner may still have this id without the delimiters that it starts with. Such an owner
comes after the extension in the order of ids, and whatever moves it then leaves the extension behind.
-/

namespace SymbolTree

/-- Text without delimiters before an id goes before its structural parent too. -/
theorem parentKey?_append {before : String} (hfree : DelimiterFree before) (id : String) :
    parentKey? (before ++ id) = (parentKey? id).map (before ++ ·) := by
  rw [parentKey?, parentKey?, QualifiedName.parse_append hfree, QualifiedName.parent?,
    QualifiedName.parent?]
  split
  · rfl
  · simp [← String.toList_inj, QualifiedName.text, QualifiedName.chars]

namespace Forest

/-- A text that starts with another character than a delimiter loses none. -/
theorem trimStart_append {before : String} (hfree : DelimiterFree before) (hne : before ≠ "")
    (text : String) : trimStart (before ++ text) = before ++ text := by
  rw [← String.toList_inj, trimStart, String.toList_ofList, String.toList_append]
  cases hchars : before.toList with
  | nil => exact absurd (String.toList_eq_nil_iff.mp hchars) hne
  | cons c rest =>
    have hc : isDelimiter c = false := hfree c (hchars ▸ List.mem_cons_self)
    rw [List.cons_append, List.dropWhile_cons_of_neg (by simp [hc])]

/-- Trimming makes no text longer. -/
theorem length_trimStart_le (text : String) : (trimStart text).length ≤ text.length := by
  rw [trimStart, String.length_ofList, ← String.length_toList]
  exact (List.dropWhile_sublist _).length_le

end Forest

namespace Collection

variable {records : List Record} {settings : Settings} {id : NodeId}

/-- A constructor whose id ends as constructors do ends with the id of a class, and `new` before it. -/
theorem exists_className {record : Record} {base : String}
    (hreachable : ((empty.insertAll records).resolve settings).ownership.Reachable id)
    (hrecord : (empty.insertAll records).records.values[id]? = some record)
    (hkind : record.kind = .constructor) (hbase : record.id = base ++ ".new") :
    ∃ className,
      (((empty.insertAll records).resolve settings).node id).id = "new " ++ className ∧
      (DelimiterFree (record.section.getD "") → className = base) := by
  obtain ⟨root, _, h⟩ := exists_unentered records
  have hsection : record.kind ≠ .section := by simp [hkind]
  obtain ⟨moved, hmoved, hkey⟩ := exists_key_of_reachable hreachable hrecord
  rw [Record.append_key_of_not_section hsection] at hkey
  obtain ⟨hid, _⟩ := names_nested h.toNestable hrecord hsection hkey
  have htype : (((empty.insertAll records).resolve settings).node id).type = .constructor := by
    refine (Forest.isConstructor_placed settings _ id).mpr ?_
    exact (type_nested hrecord).trans (NodeType.ofKind_eq_iff.2.mpr hkind)
  have hfinal := final_id_eq hreachable
  simp only [htype, if_true] at hfinal
  have hmarked : ¬ DelimiterFree (moved ++ record.section.getD "" ++ "." ++ base) :=
    fun hfree => absurd (hfree '.' (by simp)) (by decide)
  refine ⟨(QualifiedName.parse (moved ++ record.section.getD "" ++ "." ++ base)).dropSection.text,
    ?_, fun hfree => ?_⟩
  · rw [hfinal, hid, hbase, ← String.append_assoc, QualifiedName.text_dropSection_append hmarked,
      Forest.constructorId_append]
  · rw [QualifiedName.dropSection_parse (delimiterFree_append.mpr ⟨hmoved, hfree⟩),
      QualifiedName.text_parse]

/-- An extension that has a name with `new` before it is redirected to the node that has the name of the
structural parent with `new` before it. -/
theorem redirect?_of_renamed {className : String}
    (hextension : (((empty.insertAll records).resolve settings).node id).extension = true)
    (hclass : (((empty.insertAll records).resolve settings).node id).isClass = false)
    (hsection : (((empty.insertAll records).resolve settings).node id).isSection = false)
    (hid : (((empty.insertAll records).resolve settings).node id).id = "new " ++ className) :
    ((empty.insertAll records).assigned settings).redirect? id =
      (parentKey? className).bind fun parent =>
        ((empty.insertAll records).resolve settings).lookup.get? ("new " ++ parent) := by
  have hfree : DelimiterFree "new " := by decide
  have hparent := parentKey?_append hfree className
  rw [← hid] at hparent
  cases hname : parentKey? className with
  | none =>
    rw [hname] at hparent
    rw [← ((empty.insertAll records).alike_resolve settings).redirect?_eq,
      Forest.redirect?_eq hextension hclass hsection]
    exact Forest.extensionOwner?_eq_none hparent
  | some parent =>
    rw [hname] at hparent
    rw [redirect?_assigned hextension hclass hsection hparent,
      Forest.trimStart_append hfree (by decide), Option.or_self]
    cases howner : ((empty.insertAll records).resolve settings).lookup.get? ("new " ++ parent) with
    | none => simp [howner]
    | some owner =>
      obtain ⟨hownerId, _⟩ := entry_of_resolve howner
      simp [howner, ne_of_parentKey? hparent (congrArg String.length hownerId).le]

/-- After any sequence of insertions and for all settings, an extension ends in the output file of
another node exactly if the sources of the two were assigned the same one. A constructor ends with
`new` and the name of its class as its id, and it is redirected to the constructor of the structural
parent of its class, if there is one, and not to its class. It keeps the output file that it was
assigned if nothing moves it. An extension whose owner is found by the id without leading delimiters is
redirected there and ends in its output file, unless one of the two is moved afterwards. -/
theorem renamed_extension_follows_owner_iff (records : List Record) (settings : Settings) :
    let collection := empty.insertAll records
    let tree := collection.resolve settings
    let before := collection.assigned settings
    (∀ id record base owner, tree.ownership.Reachable id →
      collection.records.values[id]? = some record → record.kind = .constructor →
      record.extension = true → record.id = base ++ ".new" →
      tree.lookup.get? base = some owner → (tree.node owner).isClass = true →
      ((tree.node id).outFile = (tree.node owner).outFile ↔
        (before.node (before.source settings id)).outFile =
          (before.node (before.source settings owner)).outFile) ∧
      ((∀ turn, ¬ before.Moves settings turn id) →
        (tree.node id).outFile = (before.node id).outFile) ∧
      ∃ className, (tree.node id).id = "new " ++ className ∧
        (DelimiterFree (record.section.getD "") → className = base) ∧
        before.redirect? id = (parentKey? className).bind fun parent =>
          tree.lookup.get? ("new " ++ parent)) ∧
    ∀ id parent owner, tree.ownership.Reachable id → (tree.node id).extension = true →
      (tree.node id).isClass = false → (tree.node id).isSection = false →
      parentKey? (tree.node id).id = some parent → tree.lookup.get? parent = none →
      tree.lookup.get? (Forest.trimStart parent) = some owner →
      before.redirect? id = some owner ∧
      ((tree.node id).outFile = (tree.node owner).outFile ↔
        (before.node (before.source settings id)).outFile =
          (before.node (before.source settings owner)).outFile) ∧
      (¬ before.MovedAfter settings id id → ¬ before.MovedAfter settings id owner →
        (tree.node id).outFile = (tree.node owner).outFile) := by
  intro collection tree before
  constructor
  · intro id record base owner hreachable hrecord hkind hextension hbase howner _
    obtain ⟨_, _, hownerReachable⟩ := entry_of_resolve howner
    obtain ⟨className, hid, hplain⟩ := exists_className hreachable hrecord hkind hbase
    have htype : (tree.node id).type = .constructor :=
      (Forest.isConstructor_placed settings _ id).mpr
        ((type_nested hrecord).trans (NodeType.ofKind_eq_iff.2.mpr hkind))
    have hcarried : (tree.node id).extension = true :=
      (congrArg Declaration.extension
        (Forest.carries_resolve hrecord settings).declaration_eq).trans hextension
    refine ⟨by rw [outFile_resolve hreachable, outFile_resolve hownerReachable], fun hstays => ?_,
      className, hid, hplain, redirect?_of_renamed hcarried ?_ ?_ hid⟩
    · have hsource : before.source settings id = id :=
        Forest.traceBack_of_not_moves fun turn _ => hstays turn
      rw [outFile_resolve hreachable, hsource]
    · exact beq_eq_false_iff_ne.mpr (htype ▸ by decide)
    · exact beq_eq_false_iff_ne.mpr (htype ▸ by decide)
  · intro id parent owner hreachable hextension hclass hsection hparent hfree howner
    obtain ⟨hownerId, _, hownerReachable⟩ := entry_of_resolve howner
    have hshorter : (tree.node owner).id.length ≤ parent.length :=
      hownerId ▸ Forest.length_trimStart_le parent
    have hredirect : before.redirect? id = some owner := by
      rw [redirect?_assigned hextension hclass hsection hparent, hfree, howner]
      simp [ne_of_parentKey? hparent hshorter]
    exact ⟨hredirect, by rw [outFile_resolve hreachable, outFile_resolve hownerReachable],
      outFile_eq_of_redirect? hreachable hsection hownerReachable hredirect⟩

/-- The constructor of a nested class and an extension with a leading delimiter, from other files than
the outer class. -/
def constructorOfNestedClass : List Record :=
  [{ id := ".Form#size", kind := .property, file := ⟨"size.js"⟩, «extension» := true },
    { id := "Form", kind := .class, file := ⟨"form.js"⟩ },
    { id := "Form.Field", kind := .class, file := ⟨"form.js"⟩ },
    { id := "Form.Field.new", kind := .constructor, file := ⟨"field.js"⟩, «extension» := true },
    { id := "Form.new", kind := .constructor, file := ⟨"form.js"⟩ }]

/-- The constructor is redirected to the constructor of the outer class, and both extensions end in
the output file of the outer class. -/
theorem renamed_extension_follows_owner_iff_of_constructorOfNestedClass :
    let collection := empty.insertAll constructorOfNestedClass
    let tree := collection.resolve {}
    (tree.node 4).id = "new Form.Field" ∧ (tree.node 5).id = "new Form" ∧
      (collection.assigned {}).redirect? 4 = some 5 ∧
      (tree.node 4).outFile = (tree.node 3).outFile ∧
      (collection.assigned {}).redirect? 1 = some 2 ∧
      (tree.node 1).outFile = (tree.node 2).outFile := by
  intro collection tree
  obtain ⟨htop, howned, hlookup, hextension, hclasses, hids, hparent, hsources⟩ :
      (1 ∈ tree.top.map Edge.child ∧ 2 ∈ tree.top.map Edge.child) ∧
      (3 ∈ (tree.node 2).ownedChildren ∧ 4 ∈ (tree.node 3).ownedChildren) ∧
      (tree.lookup.get? "Form.Field" = some 3 ∧ tree.lookup.get? "new Form" = some 5 ∧
        tree.lookup.get? ".Form" = none ∧ tree.lookup.get? "Form" = some 2) ∧
      (tree.node 1).extension = true ∧
      ((tree.node 1).isClass = false ∧ (tree.node 1).isSection = false ∧
        (tree.node 3).isClass = true) ∧
      (tree.node 5).id = "new Form" ∧ parentKey? (tree.node 1).id = some ".Form" ∧
      ((collection.assigned {}).node ((collection.assigned {}).source {} 4)).outFile =
        ((collection.assigned {}).node ((collection.assigned {}).source {} 3)).outFile ∧
      ((collection.assigned {}).node ((collection.assigned {}).source {} 1)).outFile =
        ((collection.assigned {}).node ((collection.assigned {}).source {} 2)).outFile := by
    simp only [tree, collection, assigned, linked_eval, Forest.source, Forest.placed_eval, resolve,
      Forest.resolve_eval]
    decide +kernel
  have hmarked : tree.ownership.Reachable 1 :=
    Ownership.reachable_iff_exists_line.mpr ⟨_, .top htop.1⟩
  have hconstructor : tree.ownership.Reachable 4 :=
    Ownership.reachable_iff_exists_line.mpr ⟨_, .child (.child (.top htop.2) howned.1) howned.2⟩
  obtain ⟨hrenamed, htrimmed⟩ := renamed_extension_follows_owner_iff constructorOfNestedClass {}
  obtain ⟨hconstructorFile, _, className, hid, hplain, hredirect⟩ :=
    hrenamed 4 _ "Form.Field" 3 hconstructor (by rfl) (by rfl) (by rfl) (by rfl) hlookup.1 hclasses.2.2
  obtain rfl := hplain (by decide)
  obtain ⟨hmarkedRedirect, hmarkedFile, _⟩ := htrimmed 1 ".Form" 2 hmarked hextension hclasses.1
    hclasses.2.1 hparent hlookup.2.2.1 hlookup.2.2.2
  exact ⟨hid, hids, hredirect.trans hlookup.2.1, hconstructorFile.mpr hsources.1, hmarkedRedirect,
    hmarkedFile.mpr hsources.2⟩

/-- An extension of a class that is renamed, and an extension with a leading delimiter, whose owner is
an extension itself. -/
def renamedAndMarkedExtensions : List Record :=
  [{ id := ".A.B#x", kind := .property, file := ⟨"c.js"⟩, «extension» := true },
    { id := "A", kind := .class, file := ⟨"a.js"⟩ },
    { id := "A.B", kind := .property, file := ⟨"b.js"⟩, «extension» := true },
    { id := "Element", kind := .class, file := ⟨"dom.js"⟩ },
    { id := "Element.new", kind := .constructor, file := ⟨"effects.js"⟩, «extension» := true }]

/-- The constructor stays in the output file of its source file. The other extension copies the output
file of its owner before the owner is moved. -/
theorem extensions_left_behind_of_renamedAndMarkedExtensions :
    let tree := (empty.insertAll renamedAndMarkedExtensions).resolve {}
    (tree.ownership.Reachable 5 ∧ tree.lookup.get? "Element" = some 4 ∧
      (tree.node 4).isClass = true ∧ (tree.node 5).id = "new Element" ∧
      (tree.node 5).extension = true ∧
      (tree.node 5).outFile = "effects" ∧ (tree.node 4).outFile = "dom") ∧
    tree.ownership.Reachable 1 ∧ (tree.node 1).extension = true ∧
      parentKey? (tree.node 1).id = some ".A.B" ∧ tree.lookup.get? ".A.B" = none ∧
      tree.lookup.get? (Forest.trimStart ".A.B") = some 3 ∧
      (tree.node 1).outFile = "b" ∧ (tree.node 3).outFile = "a" := by
  intro tree
  obtain ⟨hmarked, hclass, hconstructor, hrenamed, hrest⟩ :
      1 ∈ tree.top.map Edge.child ∧ 4 ∈ tree.top.map Edge.child ∧
      5 ∈ (tree.node 4).ownedChildren ∧
      (tree.lookup.get? "Element" = some 4 ∧
        (tree.node 4).isClass = true ∧ (tree.node 5).id = "new Element" ∧
        (tree.node 5).extension = true ∧
        (tree.node 5).outFile = "effects" ∧ (tree.node 4).outFile = "dom") ∧
      (tree.node 1).extension = true ∧
        parentKey? (tree.node 1).id = some ".A.B" ∧ tree.lookup.get? ".A.B" = none ∧
        tree.lookup.get? (Forest.trimStart ".A.B") = some 3 ∧
        (tree.node 1).outFile = "b" ∧ (tree.node 3).outFile = "a" := by
    simp only [tree, resolve, Forest.resolve_eval]
    decide +kernel
  exact ⟨⟨Ownership.reachable_iff_exists_line.mpr ⟨_, .child (.top hclass) hconstructor⟩, hrenamed⟩,
    Ownership.reachable_iff_exists_line.mpr ⟨_, .top hmarked⟩, hrest⟩

end Collection

end SymbolTree
