import SymbolTree.Proofs.TwinIds

/-!
# References to renamed constructors

References are written before constructors are renamed. A reference that ends in `.new` and means
nothing by itself is read as one to the constructor of this name. That undoes the renaming of a
constructor whose id ended in `.new`, as long as no other constructor has taken its old id. It does
not undo the renaming of a constructor without this ending.
-/

namespace SymbolTree

namespace Forest

variable {forest : Forest} {root id : NodeId} {reference base : String}

/-- A text loses an ending exactly when it has it. -/
theorem stripEnding?_eq_some_iff {ending text : String} :
    stripEnding? ending text = some base ↔ text = base ++ ending := by
  unfold stripEnding?
  rw [← String.toList_inj, String.toList_append]
  split
  · rename_i hsuffix
    obtain ⟨start, hstart⟩ := hsuffix
    rw [← hstart]
    simp [← String.toList_inj]
  · rename_i hsuffix
    refine iff_of_false (by simp) fun htext => hsuffix ?_
    rw [htext]
    exact List.suffix_append _ _

/-- A constructor whose id ends in `.new` loses this ending. -/
theorem constructorId_append (base : String) :
    constructorId (base ++ ".new") = "new " ++ base := by
  rw [constructorId, stripEnding?_eq_some_iff.mpr rfl, Option.getD_some]

/-- A reference to a bound id means the node that is bound to it. -/
theorem resolveReference_of_bound (hbound : forest.lookup.get? reference = some id) :
    forest.resolveReference reference = some id := by
  rw [resolveReference, hbound]

/-- A reference to an id that is not bound means the constructor of this name. -/
theorem resolveReference_of_free (hfree : forest.lookup.get? reference = none) :
    forest.resolveReference reference =
      (stripEnding? ".new" reference).bind fun base => forest.lookup.get? ("new " ++ base) := by
  rw [resolveReference, hfree]

/-- A reference means the node that is bound to it, or else, if it ends in `.new`, the one that is
bound to the id of such a constructor. -/
theorem resolveReference_eq_some_iff {target : NodeId} :
    forest.resolveReference reference = some target ↔
      forest.lookup.get? reference = some target ∨
        forest.lookup.get? reference = none ∧ ∃ base, reference = base ++ ".new" ∧
          forest.lookup.get? ("new " ++ base) = some target := by
  cases hfound : forest.lookup.get? reference with
  | some holder =>
    rw [resolveReference_of_bound hfound]
    simp only [reduceCtorEq, false_and, or_false]
  | none =>
    rw [resolveReference_of_free hfound, Option.bind_eq_some_iff]
    simp only [stripEnding?_eq_some_iff, reduceCtorEq, true_and, false_or]

/-- A node that held an id after nesting and is still addressable has the id that classification
derives from it. -/
theorem Unentered.entry_moved (h : forest.Unentered root)
    (hentry : forest.nest.lookup.get? reference = some id)
    {key : String} (hkey : forest.nest.classify.lookup.get? key = some id) :
    key = if (forest.nest.node id).type = .constructor then constructorId reference
      else reference := by
  obtain ⟨hheld, hseated, _⟩ := h.seated_of_entry hentry
  rw [← (h.entry_of_classify hkey).1, h.id_classify hseated, hheld]

/-- A reference to a constructor that has been renamed means it exactly when the old id ended in
`.new` and is free again. -/
theorem Unentered.resolveReference_constructor_iff (h : forest.Unentered root)
    (hentry : forest.nest.lookup.get? reference = some id)
    {key : String} (hkey : forest.nest.classify.lookup.get? key = some id)
    (htype : (forest.nest.node id).type = .constructor) :
    forest.nest.classify.resolveReference reference = some id ↔
      (∃ base, reference = base ++ ".new") ∧
        forest.nest.classify.lookup.get? reference = none := by
  have hmoved (bound : String) (hbound : forest.nest.classify.lookup.get? bound = some id) :
      bound = constructorId reference := by
    rw [h.entry_moved hentry hbound, if_pos htype]
  cases hfound : forest.nest.classify.lookup.get? reference with
  | some other =>
    rw [resolveReference_of_bound hfound]
    refine iff_of_false (fun hsame => ?_) (by simp)
    rw [Option.some.inj hsame] at hfound
    exact constructorId_ne reference (hmoved reference hfound).symm
  | none =>
    rw [resolveReference_of_free hfound]
    cases hstrip : stripEnding? ".new" reference with
    | none =>
      refine iff_of_false (by simp) ?_
      rintro ⟨⟨base, hbase⟩, _⟩
      rw [stripEnding?_eq_some_iff.mpr hbase] at hstrip
      cases hstrip
    | some base =>
      have hbase := stripEnding?_eq_some_iff.mp hstrip
      refine iff_of_true ?_ ⟨⟨base, hbase⟩, rfl⟩
      rwa [Option.bind_some, ← constructorId_append, ← hbase, ← hmoved key hkey]

end Forest

namespace Collection

/-- After any sequence of insertions, take a node that holds an id before constructors are renamed and
is addressable afterwards. A reference to this id still means the node exactly when it is no
constructor, or its old id ended in `.new` and nothing else is bound to it. -/
theorem reference_follows_renaming_iff (records : List Record) (reference : String) (id : NodeId)
    (hentry : (empty.insertAll records).nested.lookup.get? reference = some id)
    (haddressable : ∃ key, (empty.insertAll records).nested.classify.lookup.get? key = some id) :
    let nested := (empty.insertAll records).nested
    nested.classify.resolveReference reference = some id ↔
      ((nested.node id).type = .constructor →
        (∃ base, reference = base ++ ".new") ∧
          nested.classify.lookup.get? reference = none) := by
  intro nested
  obtain ⟨root, _, h⟩ := exists_unentered records
  obtain ⟨key, hkey⟩ := haddressable
  by_cases htype : (nested.node id).type = .constructor
  · exact (h.resolveReference_constructor_iff hentry hkey htype).trans
      ⟨fun hclear _ => hclear, fun hclear => hclear htype⟩
  · obtain rfl : key = reference := (h.entry_moved hentry hkey).trans (if_neg htype)
    exact iff_of_true (Forest.resolveReference_of_bound hkey) fun hconstructor =>
      absurd hconstructor htype

/-- A constructor whose id ends in `.new`. -/
def dottedConstructor : List Record := [{ id := "Foo.new", kind := .constructor }]

/-- The constructor is renamed, and is found under its old id. -/
theorem reference_follows_renaming_of_dottedConstructor :
    let nested := (empty.insertAll dottedConstructor).nested
    nested.lookup.get? "Foo.new" = some 1 ∧ nested.classify.lookup.get? "new Foo" = some 1 ∧
      nested.classify.resolveReference "Foo.new" = some 1 := by
  intro nested
  obtain ⟨hentry, hmoved, hfree⟩ :
      nested.lookup.get? "Foo.new" = some 1 ∧ nested.classify.lookup.get? "new Foo" = some 1 ∧
        nested.classify.lookup.get? "Foo.new" = none := by
    simp only [nested, nested_eval, Forest.classify_eval]
    decide +kernel
  refine ⟨hentry, hmoved, ?_⟩
  exact (reference_follows_renaming_iff dottedConstructor "Foo.new" 1 hentry ⟨_, hmoved⟩).mpr
    fun _ => ⟨⟨"Foo", rfl⟩, hfree⟩

/-- A constructor that has the id of its class. -/
def bareConstructor : List Record := [{ id := "Foo", kind := .constructor }]

/-- A constructor without the ending is renamed as well, and is lost to references to its old id. -/
theorem reference_lost_of_bareConstructor :
    let nested := (empty.insertAll bareConstructor).nested
    nested.lookup.get? "Foo" = some 1 ∧ nested.classify.lookup.get? "new Foo" = some 1 ∧
      nested.classify.resolveReference "Foo" = none := by
  intro nested
  simp only [nested, nested_eval, Forest.classify_eval]
  decide +kernel

end Collection

end SymbolTree
