import SymbolTree.Proofs.Addresses
import SymbolTree.Proofs.Evaluation
import SymbolTree.Proofs.KeptRecords

/-!
# What linking relations lists and reports

The nodes are visited in canonical order, so a symbol gains the ids of its aliases and subclasses in
this order, and an id that several nodes share only once. The loop over the nodes appends, to the list
of each symbol, the ids of the nodes that refer to it, and every class that names a superclass and is
not listed by it is reported.
-/

namespace SymbolTree

open Std
open scoped List

namespace Forest

section AppendNew

variable {items names : List String} {name item : String}

/-- An item that is appended unless it is there is there afterwards. -/
theorem mem_appendNew : name ∈ appendNew items item ↔ name ∈ items ∨ name = item := by
  unfold appendNew
  split
  · rename_i hmem
    exact ⟨.inl, fun h => h.elim (fun hname => hname) fun hname => hname ▸ hmem⟩
  · simp

/-- Items that are appended in turn are there in the end. -/
theorem mem_foldl_appendNew : name ∈ names.foldl appendNew items ↔ name ∈ items ∨ name ∈ names := by
  induction names generalizing items with
  | nil => simp
  | cons first names ih => rw [List.foldl_cons, ih, mem_appendNew, List.mem_cons, or_assoc]

/-- Appending items in canonical order to items that do not come after them keeps the order strict. -/
theorem increasing_foldl_appendNew (hitems : items.Pairwise fun a b => compareIds a b = .lt)
    (hnames : names.Pairwise fun a b => (compareIds a b).isLE = true)
    (hbelow : ∀ a ∈ items, ∀ b ∈ names, (compareIds a b).isLE = true) :
    (names.foldl appendNew items).Pairwise fun a b => compareIds a b = .lt := by
  induction names generalizing items with
  | nil => exact hitems
  | cons first names ih =>
    obtain ⟨hfirst, hrest⟩ := List.pairwise_cons.mp hnames
    refine ih ?_ hrest fun a ha b hb => ?_
    · unfold appendNew
      split
      · exact hitems
      · rename_i hfresh
        refine List.pairwise_append.mpr ⟨hitems, List.pairwise_singleton _ _, ?_⟩
        intro a ha b hb
        rw [List.mem_singleton.mp hb]
        have hle := hbelow a ha first List.mem_cons_self
        cases hcompare : compareIds a first with
        | lt => rfl
        | eq => exact absurd (eq_of_compareIds_eq hcompare ▸ ha) hfresh
        | gt => simp [hcompare] at hle
    · rcases mem_appendNew.mp ha with ha | rfl
      · exact hbelow a ha b (List.mem_cons_of_mem _ hb)
      · exact hfirst b hb

end AppendNew

/-- The placed nodes stand in canonical order of their ids. -/
theorem pairwise_placed (forest : Forest) :
    forest.placed.Pairwise fun a b =>
      (compareIds (forest.node a).id (forest.node b).id).isLE = true := by
  have hsorted : forest.placed.Pairwise fun a b => forest.resolutionLE a b = true :=
    List.pairwise_mergeSort forest.resolutionLE_trans forest.resolutionLE_total _
  refine hsorted.imp fun {a b} hle => ?_
  rw [resolutionLE_eq, resolutionOrder, compareLex] at hle
  cases hcompare : compareIds (forest.node a).id (forest.node b).id with
  | lt => rfl
  | eq => rfl
  | gt => simp [hcompare] at hle

/-- A list that a loop over some nodes appends ids to ends with the ids of those that concern it. The
steps may change the forest as long as they keep what they depend on. -/
theorem foldl_listed {step : Forest → NodeId → Forest} {concerns : NodeId → Bool}
    {name : NodeId → String} (listed : Forest → List String) (Same : Forest → Prop)
    (hstep : ∀ later id, Same later → Same (step later id) ∧
      listed (step later id) =
        if concerns id then appendNew (listed later) (name id) else listed later)
    {forest : Forest} (hstart : Same forest) (order : List NodeId) :
    listed (order.foldl step forest) =
      ((order.filter concerns).map name).foldl appendNew (listed forest) := by
  induction order generalizing forest with
  | nil => rfl
  | cons id order ih =>
    obtain ⟨hsame, hlisted⟩ := hstep forest id hstart
    rw [List.foldl_cons, ih hsame, hlisted, List.filter_cons]
    split <;> rfl

/-- A list that starts empty, and that a loop over nodes in canonical order appends ids to, lists the
ids of the nodes that concern it once each and in strict canonical order. -/
theorem backlinks_of_eq {forest : Forest} {order : List NodeId} {concerns : NodeId → Bool}
    {listed : List String} (hsorted : order.Pairwise fun a b =>
      (compareIds (forest.node a).id (forest.node b).id).isLE = true)
    (hlisted : listed =
      ((order.filter concerns).map fun id => (forest.node id).id).foldl appendNew []) :
    listed.Pairwise (fun a b => compareIds a b = .lt) ∧
      ∀ name, name ∈ listed ↔ ∃ id ∈ order, concerns id = true ∧ (forest.node id).id = name := by
  subst hlisted
  constructor
  · refine increasing_foldl_appendNew .nil ?_ (by simp)
    exact List.pairwise_map.mpr (hsorted.sublist List.filter_sublist)
  · intro name
    rw [mem_foldl_appendNew]
    simp [and_assoc]

section Aliases

variable {forest : Forest}

/-- The symbol that a node is another name for. -/
def aliasTarget? (forest : Forest) (id : NodeId) : Option NodeId :=
  (forest.node id).aliasOf.bind forest.resolveReference

/-- What a reference means depends on the lookup. -/
theorem resolveReference_congr {a b : Forest} (hlookup : a.lookup = b.lookup) :
    a.resolveReference = b.resolveReference := by
  funext reference
  rw [resolveReference, resolveReference, hlookup]

/-- Whom a node is an alias of depends on the lookup and on what the node declares. -/
theorem aliasTarget?_congr {a b : Forest} (hlookup : a.lookup = b.lookup)
    (haliasOf : a.column Node.aliasOf = b.column Node.aliasOf) (id : NodeId) :
    a.aliasTarget? id = b.aliasTarget? id := by
  rw [aliasTarget?, aliasTarget?, view_node_eq_of_column_eq haliasOf id,
    resolveReference_congr hlookup]

/-- Linking an alias lists its id with its target. -/
theorem aliases_linkAlias (id : NodeId) {target : NodeId} (htarget : target < forest.nodes.size) :
    ((forest.linkAlias id).node target).aliases =
      if forest.aliasTarget? id = some target then
        appendNew (forest.node target).aliases (forest.node id).id
      else (forest.node target).aliases := by
  cases hfound : forest.aliasTarget? id with
  | none =>
    have hunresolved : (forest.node id).aliasOf.bind forest.resolveReference = none := hfound
    have hlink : forest.linkAlias id = forest := by
      unfold linkAlias
      rw [hunresolved]
    simp [hlink]
  | some found =>
    have hresolved : (forest.node id).aliasOf.bind forest.resolveReference = some found := hfound
    have hlink : forest.linkAlias id = forest.modify found fun node =>
        { node with aliases := appendNew node.aliases (forest.node id).id } := by
      unfold linkAlias
      rw [hresolved]
    rw [hlink]
    by_cases hsame : target = found
    · subst hsame
      simp [node_modify_self htarget]
    · simp [node_modify_of_ne hsame, Ne.symm hsame]

/-- After aliases are linked in some order, a node has gained the ids of those that stand for it. -/
theorem aliases_foldl_linkAlias (order : List NodeId) {target : NodeId}
    (htarget : target < forest.nodes.size) :
    ((order.foldl linkAlias forest).node target).aliases =
      ((order.filter fun id => forest.aliasTarget? id = some target).map
        fun id => (forest.node id).id).foldl appendNew (forest.node target).aliases := by
  let declared (node : Node) : String × Option String := (node.id, node.aliasOf)
  refine foldl_listed (fun later => (later.node target).aliases)
    (fun later => later.rest = forest.rest ∧ later.column declared = forest.column declared)
    (fun later id hsame => ?_) ⟨rfl, rfl⟩ order
  obtain ⟨hrest, hdeclared⟩ := hsame
  have hsize : target < later.nodes.size := size_eq_of_column_eq hdeclared ▸ htarget
  have haliasOf : later.column Node.aliasOf = forest.column Node.aliasOf :=
    column_eq_of_view_node_eq (size_eq_of_column_eq hdeclared) fun other =>
      (Prod.mk.inj (view_node_eq_of_column_eq hdeclared other)).2
  have hid : (later.node id).id = (forest.node id).id :=
    (Prod.mk.inj (view_node_eq_of_column_eq hdeclared id)).1
  refine ⟨⟨(rest_linkAlias later id).trans hrest,
    (column_linkAlias (fun _ _ => rfl) later id).trans hdeclared⟩, ?_⟩
  rw [aliases_linkAlias id hsize, aliasTarget?_congr (lookup_eq_of_rest_eq hrest) haliasOf, hid]
  simp

end Aliases

section Superclasses

variable {forest : Forest} {id parent : NodeId} {superclass : String}

/-- What a node declares about its superclass, and the id under which it is listed. -/
def declaredClass (node : Node) : String × Bool × Option String :=
  (node.id, node.isClass, node.superclass)

/-- The class that lists a class among its subclasses: its superclass, if that is another class. -/
def extended? (forest : Forest) (id : NodeId) : Option NodeId :=
  if (forest.node id).isClass then
    ((forest.node id).superclass.bind forest.lookup.get?).filter fun parent =>
      parent ≠ id ∧ (forest.node parent).isClass
  else none

/-- The report about a class whose superclass is itself or no class. -/
def superclassReport? (forest : Forest) (id : NodeId) : Option Diagnostic :=
  if (forest.node id).isClass ∧ forest.extended? id = none then
    (forest.node id).superclass.map fun superclass =>
      if forest.lookup.get? superclass = some id then
        .cycle (forest.node id).id [(forest.node id).id, (forest.node id).id]
      else .missingAncestor (forest.node id).id superclass .superclass
  else none

/-- A class is listed with another class that holds the name of its superclass. -/
theorem extended?_eq_some_iff : forest.extended? id = some parent ↔
    (forest.node id).isClass = true ∧ (forest.node parent).isClass = true ∧ parent ≠ id ∧
      ∃ superclass, (forest.node id).superclass = some superclass ∧
        forest.lookup.get? superclass = some parent := by
  unfold extended?
  split
  · rename_i hclass
    simp only [Option.filter_eq_some_iff, Option.bind_eq_some_iff, decide_eq_true_eq, hclass,
      true_and]
    tauto
  · rename_i hclass
    simp [hclass]

/-- Who lists a class, and what is reported about it, depends on the lookup and on what the nodes
declare. -/
theorem superclass_congr {a b : Forest} (hlookup : a.lookup = b.lookup)
    (hdeclared : a.column declaredClass = b.column declaredClass) (id : NodeId) :
    a.extended? id = b.extended? id ∧ a.superclassReport? id = b.superclassReport? id := by
  have hnode (id : NodeId) : (a.node id).id = (b.node id).id ∧
      (a.node id).isClass = (b.node id).isClass ∧
        (a.node id).superclass = (b.node id).superclass := by
    obtain ⟨hid, hrest⟩ := Prod.mk.inj (view_node_eq_of_column_eq hdeclared id)
    exact ⟨hid, Prod.mk.inj hrest⟩
  have hextended : a.extended? id = b.extended? id := by
    simp only [extended?, (hnode _).2.1, (hnode _).2.2, hlookup]
  refine ⟨hextended, ?_⟩
  simp only [superclassReport?, hextended, (hnode _).1, (hnode _).2.1, (hnode _).2.2, hlookup]

/-- A report is about a class that names a superclass and is listed nowhere. -/
theorem of_superclassReport?_eq_some {diagnostic : Diagnostic}
    (hreport : forest.superclassReport? id = some diagnostic) :
    (forest.node id).isClass = true ∧ (forest.node id).superclass.isSome ∧
      forest.extended? id = none := by
  unfold superclassReport? at hreport
  split at hreport
  · rename_i hlistedNowhere
    obtain ⟨superclass, hsuper, _⟩ := Option.map_eq_some_iff.mp hreport
    exact ⟨hlistedNowhere.1, Option.isSome_of_eq_some hsuper, hlistedNowhere.2⟩
  · cases hreport

/-- A class that names a superclass is listed with another class, names itself, or names no class. In
the first case nothing is reported. -/
theorem superclass_cases (hclass : (forest.node id).isClass = true)
    (hsuper : (forest.node id).superclass = some superclass) :
    (∃ parent, forest.extended? id = some parent ∧ forest.superclassReport? id = none) ∨
    (forest.lookup.get? superclass = some id ∧ forest.superclassReport? id =
      some (.cycle (forest.node id).id [(forest.node id).id, (forest.node id).id])) ∨
    ((∀ parent, forest.lookup.get? superclass = some parent →
        (forest.node parent).isClass = false) ∧
      forest.superclassReport? id =
        some (.missingAncestor (forest.node id).id superclass .superclass)) := by
  cases hextended : forest.extended? id with
  | some parent => exact .inl ⟨parent, rfl, by simp [superclassReport?, hextended]⟩
  | none =>
    right
    by_cases hself : forest.lookup.get? superclass = some id
    · exact .inl ⟨hself, by simp [superclassReport?, hextended, hclass, hsuper, hself]⟩
    · refine .inr ⟨fun parent hfound => ?_,
        by simp [superclassReport?, hextended, hclass, hsuper, hself]⟩
      rw [← Bool.not_eq_true]
      intro hparent
      have hne : parent ≠ id := fun heq => hself (heq ▸ hfound)
      rw [extended?_eq_some_iff.mpr ⟨hclass, hparent, hne, superclass, hsuper, hfound⟩] at hextended
      cases hextended

/-- The reports about superclasses, each with the class that it is about. -/
def superclassReports (forest : Forest) : List (NodeId × Diagnostic) :=
  forest.placed.filterMap fun id =>
    (forest.superclassReport? id).map fun diagnostic => (id, diagnostic)

/-- A placed class leads to its own report. -/
theorem mem_superclassReports_iff {diagnostic : Diagnostic} :
    (id, diagnostic) ∈ forest.superclassReports ↔
      id ∈ forest.placed ∧ forest.superclassReport? id = some diagnostic := by
  simp only [superclassReports, List.mem_filterMap, Option.map_eq_some_iff, Prod.mk.injEq]
  constructor
  · rintro ⟨_, hplaced, _, hreport, rfl, rfl⟩
    exact ⟨hplaced, hreport⟩
  · rintro ⟨hplaced, hreport⟩
    exact ⟨id, hplaced, diagnostic, hreport, rfl, rfl⟩

/-- The reports come in the order of resolution. -/
theorem map_snd_superclassReports (forest : Forest) :
    forest.superclassReports.map (·.2) = forest.placed.filterMap forest.superclassReport? := by
  rw [superclassReports, List.map_filterMap]
  simp [Function.comp_def]

/-- The classes with a report are reported once each. -/
theorem map_fst_superclassReports (forest : Forest) :
    forest.superclassReports.map (·.1) =
      forest.placed.filter fun id => (forest.superclassReport? id).isSome := by
  rw [superclassReports, List.map_filterMap, ← List.filterMap_eq_filter]
  refine congrArg (List.filterMap · forest.placed) (funext fun id => ?_)
  cases hreport : forest.superclassReport? id with
  | none => simp [Option.guard, hreport]
  | some diagnostic => simp [Option.guard, hreport]

/-- Linking a class to its superclass lists it there or reports it. -/
theorem linkSuperclass_eq (forest : Forest) (id : NodeId) :
    forest.linkSuperclass id =
      match forest.extended? id with
      | some parent => forest.adopt parent id
      | none => (forest.superclassReport? id).elim forest forest.report := by
  rcases forest.linkSuperclass_cases id with
    ⟨hnone, heq⟩ | ⟨superclass, hclass, hsuper,
      ⟨hself, heq⟩ | ⟨parent, hfound, hne, hparent, heq⟩ | ⟨hmissing, heq⟩⟩
  · have hextended : forest.extended? id = none := by
      rcases hnone with hclass | hsuper
      · simp [extended?, hclass]
      · simp [extended?, hsuper]
    have hreport : forest.superclassReport? id = none := by
      rcases hnone with hclass | hsuper
      · simp [superclassReport?, hclass]
      · simp [superclassReport?, hsuper]
    rw [heq, hextended, hreport]
    rfl
  · have hextended : forest.extended? id = none := by simp [extended?, hclass, hsuper, hself]
    rw [heq, hextended]
    simp [superclassReport?, hextended, hclass, hsuper, hself]
  · rw [heq, extended?_eq_some_iff.mpr ⟨hclass, hparent, hne, superclass, hsuper, hfound⟩]
  · have hextended : forest.extended? id = none := by
      rw [Option.eq_none_iff_forall_ne_some]
      intro parent hlisted
      obtain ⟨_, hparent, _, other, hother, hfound⟩ := extended?_eq_some_iff.mp hlisted
      obtain rfl := Option.some.inj (hsuper.symm.trans hother)
      rw [(hmissing parent hfound).2] at hparent
      cases hparent
    have hself : forest.lookup.get? superclass ≠ some id := fun hfound =>
      (hmissing id hfound).1 rfl
    rw [heq, hextended]
    simp [superclassReport?, hextended, hclass, hsuper, hself]

/-- Listing a class with its superclass adds its id there. -/
theorem subclasses_adopt (hparent : parent < forest.nodes.size) (id other : NodeId) :
    ((forest.adopt parent id).node other).subclasses =
      if parent = other then appendNew (forest.node other).subclasses (forest.node id).id
      else (forest.node other).subclasses := by
  have hadopted : (forest.adopt parent id).node other = (forest.modify parent fun node =>
      { node with
        subclasses := appendNew node.subclasses (forest.node id).id
        children := node.children.filter (·.child != id) }).node other := by
    unfold adopt
    simp only
    split <;> rfl
  rw [hadopted]
  by_cases hsame : parent = other
  · subst hsame
    rw [node_modify_self hparent, if_pos rfl]
  · rw [node_modify_of_ne (Ne.symm hsame), if_neg hsame]

/-- Linking a class to its superclass adds its id to the class that lists it, and its report to the
diagnostics. -/
theorem view_linkSuperclass (id other : NodeId) :
    ((forest.linkSuperclass id).node other).subclasses =
      (if forest.extended? id = some other then
        appendNew (forest.node other).subclasses (forest.node id).id
      else (forest.node other).subclasses) ∧
    (forest.linkSuperclass id).diagnostics =
      forest.diagnostics ++ (forest.superclassReport? id).toList ∧
    (forest.linkSuperclass id).lookup = forest.lookup := by
  rw [linkSuperclass_eq]
  cases hextended : forest.extended? id with
  | some parent =>
    obtain ⟨_, hparent, _⟩ := extended?_eq_some_iff.mp hextended
    have hreport : forest.superclassReport? id = none := by simp [superclassReport?, hextended]
    refine ⟨?_, ?_, ?_⟩
    · simpa using subclasses_adopt (lt_size_of_isClass hparent) id other
    · simp only [hreport, adopt]
      split <;> simp [modify]
    · simp only [adopt]
      split <;> rfl
  | none =>
    cases hreport : forest.superclassReport? id with
    | none => simp
    | some diagnostic => exact ⟨rfl, rfl, rfl⟩

/-- What classes are linked by stays while they are linked. -/
theorem declaredClass_linkSuperclass (forest : Forest) (id : NodeId) :
    (forest.linkSuperclass id).column declaredClass = forest.column declaredClass :=
  column_linkSuperclass (fun _ _ _ => rfl) forest id

/-- After classes are linked in some order, a class has gained the ids of those that extend it. -/
theorem subclasses_foldl_linkSuperclass (order : List NodeId) (parent : NodeId) :
    ((order.foldl linkSuperclass forest).node parent).subclasses =
      ((order.filter fun id => forest.extended? id = some parent).map
        fun id => (forest.node id).id).foldl appendNew (forest.node parent).subclasses := by
  refine foldl_listed (fun later => (later.node parent).subclasses)
    (fun later => later.lookup = forest.lookup ∧
      later.column declaredClass = forest.column declaredClass)
    (fun later id hsame => ?_) ⟨rfl, rfl⟩ order
  obtain ⟨hlookup, hdeclared⟩ := hsame
  obtain ⟨hsubclasses, _, hkept⟩ := later.view_linkSuperclass id parent
  have hid : (later.node id).id = (forest.node id).id :=
    (Prod.mk.inj (view_node_eq_of_column_eq hdeclared id)).1
  refine ⟨⟨hkept.trans hlookup, (later.declaredClass_linkSuperclass id).trans hdeclared⟩, ?_⟩
  rw [hsubclasses, (superclass_congr hlookup hdeclared id).1, hid]
  simp

/-- After classes are linked in some order, those that are listed nowhere have been reported. -/
theorem diagnostics_foldl_linkSuperclass (order : List NodeId) :
    (order.foldl linkSuperclass forest).diagnostics =
      forest.diagnostics ++ order.filterMap forest.superclassReport? := by
  induction order generalizing forest with
  | nil => simp
  | cons id order ih =>
    obtain ⟨_, hdiagnostics, hlookup⟩ := forest.view_linkSuperclass id id
    have hreports : (forest.linkSuperclass id).superclassReport? = forest.superclassReport? :=
      funext fun other =>
        (superclass_congr hlookup (forest.declaredClass_linkSuperclass id) other).2
    rw [List.foldl_cons, ih, hreports, hdiagnostics, List.filterMap_cons, List.append_assoc]
    cases forest.superclassReport? id <;> rfl

end Superclasses

end Forest

/-- Whether a diagnostic can come from merging inherited members. -/
def Diagnostic.isInheritance : Diagnostic → Bool
  | .nameClash .. => false
  | .missingAncestor _ _ relation => relation = .inherits
  | .cycle .. => true

namespace Forest

variable {forest : Forest}

/-- A walk over ancestors reports problems of inheritance only. -/
theorem isInheritance_of_mem_walk {lineage : Lineage} {className : String}
    {path names : List String} {diagnostic : Diagnostic}
    (hmem : diagnostic ∈ (walk lineage className path names).diagnostics) :
    diagnostic.isInheritance = true := by
  have hwalks := walks_walk lineage className path names
  generalize walk lineage className path names = found at hmem hwalks
  induction hwalks with
  | nil => cases hmem
  | onPath _ _ ihRest =>
    rcases List.mem_append.mp hmem with hhere | hlater
    · rw [List.mem_singleton.mp hhere]
      rfl
    · exact ihRest hlater
  | missing _ _ _ ihRest =>
    rcases List.mem_append.mp hmem with hhere | hlater
    · rw [List.mem_singleton.mp hhere]
      rfl
    · exact ihRest hlater
  | followed _ _ _ _ ihAbove ihRest => exact (List.mem_append.mp hmem).elim ihAbove ihRest

/-- Merging inherited members in some order adds problems of inheritance to the diagnostics. -/
theorem exists_diagnostics_foldl_mergeInto (forest : Forest) (lineage : Lineage)
    (order : List NodeId) :
    ∃ inherited, (order.foldl (mergeInto lineage) forest).diagnostics =
        forest.diagnostics ++ inherited ∧
      ∀ diagnostic ∈ inherited, diagnostic.isInheritance = true := by
  induction order generalizing forest with
  | nil => exact ⟨[], by simp, by simp⟩
  | cons id order ih =>
    obtain ⟨inherited, hdiagnostics, hinherited⟩ := ih (mergeInto lineage forest id)
    refine ⟨_, by rw [List.foldl_cons, hdiagnostics, diagnostics_mergeInto, List.append_assoc],
      fun diagnostic hmem => ?_⟩
    rcases List.mem_append.mp hmem with hhere | hlater
    · split at hhere
      · exact isInheritance_of_mem_walk hhere
      · cases hhere
    · exact hinherited diagnostic hlater

/-- Once relations are linked, a node has gained the ids of its aliases. -/
theorem aliases_linkRelations {target : NodeId} (htarget : target < forest.nodes.size) :
    (forest.linkRelations.node target).aliases =
      ((forest.placed.filter fun id => forest.aliasTarget? id = some target).map
        fun id => (forest.node id).id).foldl appendNew (forest.node target).aliases := by
  have hkept : forest.linkRelations.column Node.aliases =
      (forest.placed.foldl linkAlias forest).column Node.aliases := by
    unfold linkRelations linkAlong
    simp only
    rw [foldl_keeps (column Node.aliases) fun forest id _ =>
        column_mergeInto (fun _ _ _ => rfl) _ forest id,
      foldl_keeps (column Node.aliases) fun forest id _ =>
        column_linkSuperclass (fun _ _ _ => rfl) forest id,
      foldl_keeps (column Node.aliases) fun forest id _ =>
        column_copyDocs (fun _ _ => rfl) forest id]
  rw [view_node_eq_of_column_eq hkept target, aliases_foldl_linkAlias forest.placed htarget]

/-- Linking aliases and copying documentation change neither who lists a class nor what is reported
about it. -/
theorem superclass_documented (forest : Forest) (order : List NodeId) :
    let documented := order.foldl copyDocs (order.foldl linkAlias forest)
    documented.extended? = forest.extended? ∧
      documented.superclassReport? = forest.superclassReport? := by
  have hsame := superclass_congr (lookup_eq_of_rest_eq (rest_documented forest order))
    (column_documented (fun _ _ => rfl) (fun _ _ => rfl) forest order)
  exact ⟨funext fun id => (hsame id).1, funext fun id => (hsame id).2⟩

/-- Once relations are linked, a class has gained the ids of the classes that extend it. -/
theorem subclasses_linkRelations (forest : Forest) (parent : NodeId) :
    (forest.linkRelations.node parent).subclasses =
      ((forest.placed.filter fun id => forest.extended? id = some parent).map
        fun id => (forest.node id).id).foldl appendNew (forest.node parent).subclasses := by
  let documented := forest.placed.foldl copyDocs (forest.placed.foldl linkAlias forest)
  have hdocumented {α : Type} (view : Node → α)
      (haliases : ∀ node aliases, view { node with aliases } = view node)
      (hdocs : ∀ node source, view (fillDocs node source) = view node) (id : NodeId) :
      view (documented.node id) = view (forest.node id) :=
    view_node_eq_of_column_eq (column_documented haliases hdocs forest forest.placed) id
  have hmerged : forest.linkRelations.column Node.subclasses =
      (forest.placed.foldl linkSuperclass documented).column Node.subclasses :=
    foldl_keeps (column Node.subclasses)
      (fun forest id _ => column_mergeInto (fun _ _ _ => rfl) _ forest id) _
  rw [view_node_eq_of_column_eq hmerged parent, subclasses_foldl_linkSuperclass,
    (superclass_documented forest forest.placed).1,
    hdocumented Node.subclasses (fun _ _ => rfl) (fun _ _ => rfl)]
  simp only [hdocumented Node.id (fun _ _ => rfl) (fun _ _ => rfl)]

/-- Linking relations reports the classes that are listed nowhere, and then problems of
inheritance. -/
theorem exists_diagnostics_linkRelations (forest : Forest) :
    ∃ inherited, forest.linkRelations.diagnostics =
        forest.diagnostics ++ forest.superclassReports.map (·.2) ++ inherited ∧
      ∀ diagnostic ∈ inherited, diagnostic.isInheritance = true := by
  obtain ⟨inherited, hdiagnostics, hinherited⟩ := exists_diagnostics_foldl_mergeInto
    (forest.grouped forest.placed) (forest.grouped forest.placed).lineage forest.placed
  refine ⟨inherited, hdiagnostics.trans ?_, hinherited⟩
  rw [grouped, diagnostics_foldl_linkSuperclass, (superclass_documented forest forest.placed).2,
    diagnostics_eq_of_rest_eq (rest_documented forest forest.placed), map_snd_superclassReports]

end Forest

end SymbolTree
