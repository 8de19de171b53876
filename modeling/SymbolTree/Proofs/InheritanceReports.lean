import SymbolTree.Proofs.Ancestry
import Mathlib.Data.List.Chain

/-!
# What a walk over ancestors reports

A walk keeps only the path to where it is, and visits a class once for each simple path that leads
there. So every class that can be reached is visited, a class that does not exist is reported where
it is named, and going around a cycle ends at a class that is on the path.
-/

namespace SymbolTree.Forest

/-- A class inherits from another one: it exists, and it names the other. -/
def Lineage.Inherits (lineage : Lineage) (name ancestor : String) : Prop :=
  ∃ node, lineage.lookup.get? name = some node ∧ ancestor ∈ lineage.inherits node

/-- A class that a walk visits, and how the walk got there. -/
structure Visit where
  /-- The ids on the way, the class where the walk started first. -/
  way : List String
  /-- The id of the class. -/
  id : String
  /-- The node of the class. -/
  node : NodeId

/-- The path to a visited class, which is its last id. -/
def Visit.path (visit : Visit) : List String := visit.way ++ [visit.id]

/-- From a visited class the walk follows each named class that exists and is not on the path. -/
inductive Lineage.Next (lineage : Lineage) (visit : Visit) : Visit → Prop
  | follow {name : String} {node : NodeId} :
      name ∈ lineage.inherits visit.node → name ∉ visit.path →
      lineage.lookup.get? name = some node → lineage.Next visit ⟨visit.path, name, node⟩

/-- At a visited class the walk reports each named class that is on the path or does not exist. -/
inductive Lineage.Reports (lineage : Lineage) (className : String) (visit : Visit) :
    Diagnostic → Prop
  | cycle {name : String} :
      name ∈ lineage.inherits visit.node → name ∈ visit.path →
      lineage.Reports className visit (.cycle className (visit.path ++ [name]))
  | missing {name : String} :
      name ∈ lineage.inherits visit.node → name ∉ visit.path →
      lineage.lookup.get? name = none →
      lineage.Reports className visit (.missingAncestor className name .inherits)

variable {lineage : Lineage} {className name : String} {id : NodeId} {visit last : Visit}
  {path names rest : List String} {diagnostic : Diagnostic}

/-- A class that inherits from another one exists. -/
theorem Lineage.Inherits.exists_node {ancestor : String} (h : lineage.Inherits name ancestor) :
    ∃ node, lineage.lookup.get? name = some node :=
  h.imp fun _ h => h.1

section Walks

/-- What a walk reports, it reports at a class that it visits. -/
theorem Walks.exists_visit {found : AncestorWalk} (h : Walks lineage className path names found)
    (hpath : visit.path = path) (hnames : names ⊆ lineage.inherits visit.node)
    (hmem : diagnostic ∈ found.diagnostics) :
    ∃ last, Relation.ReflTransGen lineage.Next visit last ∧
      lineage.Reports className last diagnostic := by
  induction h generalizing visit with
  | nil => cases hmem
  | onPath hpresent _ ihRest =>
    subst hpath
    obtain ⟨hnamed, hrest⟩ := List.cons_subset.mp hnames
    rcases List.mem_cons.mp hmem with rfl | hmem
    · exact ⟨visit, .refl, .cycle hnamed hpresent⟩
    · exact ihRest rfl hrest hmem
  | missing hfresh hmissing _ ihRest =>
    subst hpath
    obtain ⟨hnamed, hrest⟩ := List.cons_subset.mp hnames
    rcases List.mem_cons.mp hmem with rfl | hmem
    · exact ⟨visit, .refl, .missing hnamed hfresh hmissing⟩
    · exact ihRest rfl hrest hmem
  | @followed _ _ name node _ _ hfresh hfound _ _ ihAbove ihRest =>
    subst hpath
    obtain ⟨hnamed, hrest⟩ := List.cons_subset.mp hnames
    rcases List.mem_append.mp hmem with hmem | hmem
    · obtain ⟨last, hsteps, hreports⟩ := @ihAbove ⟨visit.path, name, node⟩ rfl
        (fun _ => List.mem_eraseDups.mp) hmem
      exact ⟨last, .head (.follow hnamed hfresh hfound) hsteps, hreports⟩
    · exact ihRest rfl hrest hmem

/-- A walk over several classes is one walk for each, one after another. -/
theorem walk_cons (lineage : Lineage) (className : String) (path : List String) (name : String)
    (rest : List String) :
    walk lineage className path (name :: rest) =
      walk lineage className path [name] ++ walk lineage className path rest := by
  have happend (found : AncestorWalk) : found ++ ({} : AncestorWalk) = found := by
    show AncestorWalk.append found {} = found
    simp [AncestorWalk.append]
  by_cases hmem : name ∈ path
  · rw [walk_cons_of_mem hmem, walk_cons_of_mem hmem, walk_nil, happend]
  · cases hfound : lineage.lookup.get? name with
    | none =>
      rw [walk_cons_of_missing hmem hfound, walk_cons_of_missing hmem hfound, walk_nil, happend]
    | some node =>
      rw [walk_cons_of_found hmem hfound, walk_cons_of_found hmem hfound, walk_nil, happend]

/-- What a walk reports about one class, it reports among others. -/
theorem mem_diagnostics_walk (hname : name ∈ names)
    (hmem : diagnostic ∈ (walk lineage className path [name]).diagnostics) :
    diagnostic ∈ (walk lineage className path names).diagnostics := by
  induction names with
  | nil => cases hname
  | cons first rest ih =>
    rw [walk_cons, AncestorWalk.diagnostics_append]
    rcases List.mem_cons.mp hname with rfl | hrest
    · exact List.mem_append_left _ hmem
    · exact List.mem_append_right _ (ih hrest)

/-- A walk reports exactly what there is to report at the classes that it visits. -/
theorem mem_diagnostics_walk_iff (visit : Visit) :
    diagnostic ∈ (walk lineage className visit.path
        (lineage.inherits visit.node).eraseDups).diagnostics ↔
      ∃ last, Relation.ReflTransGen lineage.Next visit last ∧
        lineage.Reports className last diagnostic := by
  constructor
  · exact (walks_walk ..).exists_visit rfl fun _ => List.mem_eraseDups.mp
  · rintro ⟨last, hsteps, hreports⟩
    induction hsteps using Relation.ReflTransGen.head_induction_on with
    | refl =>
      cases hreports with
      | cycle hnamed hpresent =>
        refine mem_diagnostics_walk (List.mem_eraseDups.mpr hnamed) ?_
        rw [walk_cons_of_mem hpresent]
        exact List.mem_cons_self
      | missing hnamed hfresh hmissing =>
        refine mem_diagnostics_walk (List.mem_eraseDups.mpr hnamed) ?_
        rw [walk_cons_of_missing hfresh hmissing]
        exact List.mem_cons_self
    | head hnext _ ih =>
      obtain ⟨hnamed, hfresh, hfound⟩ := hnext
      refine mem_diagnostics_walk (List.mem_eraseDups.mpr hnamed) ?_
      rw [walk_cons_of_found hfresh hfound]
      exact List.mem_append_left _ ih

end Walks

/-- A class that the walk over the ancestors of a class visits: the path leads there along
inheritance, and passes no class twice. -/
structure Lineage.IsVisit (lineage : Lineage) (className : String) (visit : Visit) : Prop where
  /-- The path starts with the class. -/
  head?_eq : visit.path.head? = some className
  /-- No id occurs twice. -/
  nodup : visit.path.Nodup
  /-- Each class on the path inherits from the next one. -/
  isChain : visit.path.IsChain lineage.Inherits
  /-- The visited class exists. -/
  found : lineage.lookup.get? visit.id = some visit.node

namespace Lineage.IsVisit

/-- A walk starts with a visit. -/
theorem start (hentry : lineage.lookup.get? className = some id) :
    lineage.IsVisit className ⟨[], className, id⟩ :=
  ⟨rfl, List.nodup_singleton _, .singleton _, hentry⟩

/-- A named class goes on the path along inheritance, whether it is followed or not. -/
theorem path_append (h : lineage.IsVisit className visit)
    (hnamed : name ∈ lineage.inherits visit.node) :
    (visit.path ++ [name]).head? = some className ∧
      (visit.path ++ [name]).IsChain lineage.Inherits := by
  constructor
  · rw [List.head?_append, h.head?_eq, Option.some_or]
  · refine List.isChain_append.mpr ⟨h.isChain, .singleton _, ?_⟩
    intro _ hend _ hname
    simp only [Visit.path, List.getLast?_concat, List.head?_singleton, Option.mem_some_iff]
      at hend hname
    subst hend hname
    exact ⟨_, h.found, hnamed⟩

/-- Following a class gives another visit. -/
theorem next (h : lineage.IsVisit className visit) (hnext : lineage.Next visit last) :
    lineage.IsVisit className last := by
  obtain ⟨hnamed, hfresh, hfound⟩ := hnext
  obtain ⟨hhead, hchain⟩ := h.path_append hnamed
  refine ⟨hhead, ?_, hchain, hfound⟩
  rw [Visit.path, ← List.concat_eq_append]
  exact h.nodup.concat hfresh

/-- All that a walk gets to are visits. -/
theorem of_steps (h : lineage.IsVisit className visit)
    (hsteps : Relation.ReflTransGen lineage.Next visit last) : lineage.IsVisit className last := by
  induction hsteps with
  | refl => exact h
  | tail _ hnext ih => exact ih.next hnext

/-- What is inherited from the visited class is named there. -/
theorem named (h : lineage.IsVisit className visit) (hinherits : lineage.Inherits visit.id name) :
    name ∈ lineage.inherits visit.node := by
  obtain ⟨node, hfound, hnamed⟩ := hinherits
  obtain rfl : visit.node = node := Option.some.inj (h.found.symm.trans hfound)
  exact hnamed

/-- The classes on the path can be reached from its start. -/
theorem reachable (h : lineage.IsVisit className visit) (hname : name ∈ visit.path) :
    Relation.ReflTransGen lineage.Inherits className name := by
  refine h.isChain.induction (Relation.ReflTransGen lineage.Inherits className) _
    (fun _ _ hlink hreach => hreach.tail hlink) (fun hne => ?_) name hname
  have hhead := (List.head?_eq_some_head hne).symm.trans h.head?_eq
  rw [Option.some.inj hhead]

/-- The end of the path can be reached from the classes on it. -/
theorem reaches (h : lineage.IsVisit className visit) (hname : name ∈ visit.path) :
    Relation.ReflTransGen lineage.Inherits name visit.id := by
  refine h.isChain.backwards_induction (Relation.ReflTransGen lineage.Inherits · visit.id) _
    (fun _ _ hlink hreach => hreach.head hlink) (fun hne => ?_) name hname
  simp only [Visit.path, List.getLast_concat]
  exact .refl

end Lineage.IsVisit

/-- A path only grows along a walk. -/
theorem path_subset (hsteps : Relation.ReflTransGen lineage.Next visit last) :
    visit.path ⊆ last.path := by
  induction hsteps with
  | refl => exact List.Subset.refl _
  | tail _ hnext ih =>
    obtain ⟨_, _, _⟩ := hnext
    exact List.Subset.trans ih (List.subset_append_left _ _)

/-- Every class on the path has been visited before. -/
theorem exists_visit_of_mem_path {start : Visit} (hway : start.way = [])
    (hsteps : Relation.ReflTransGen lineage.Next start visit) (hname : name ∈ visit.path) :
    ∃ earlier, Relation.ReflTransGen lineage.Next start earlier ∧ earlier.id = name := by
  induction hsteps with
  | refl =>
    rw [Visit.path, hway] at hname
    exact ⟨start, .refl, (List.mem_singleton.mp hname).symm⟩
  | @tail visit next hsteps hnext ih =>
    rcases List.mem_append.mp hname with hway | hid
    · obtain ⟨_, _, _⟩ := hnext
      exact ih hway
    · exact ⟨next, hsteps.tail hnext, (List.mem_singleton.mp hid).symm⟩

section Completeness

variable (hentry : lineage.lookup.get? className = some id)
include hentry

/-- Every class on the path exists. -/
theorem exists_node_of_mem_path
    (hsteps : Relation.ReflTransGen lineage.Next ⟨[], className, id⟩ visit)
    (hname : name ∈ visit.path) : ∃ node, lineage.lookup.get? name = some node := by
  obtain ⟨earlier, hearlier, rfl⟩ := exists_visit_of_mem_path rfl hsteps hname
  exact ⟨_, ((Lineage.IsVisit.start hentry).of_steps hearlier).found⟩

/-- Every class that exists and can be reached is visited. -/
theorem exists_visit_of_reachable {node : NodeId}
    (hreach : Relation.ReflTransGen lineage.Inherits className name)
    (hfound : lineage.lookup.get? name = some node) :
    ∃ visit, Relation.ReflTransGen lineage.Next ⟨[], className, id⟩ visit ∧ visit.id = name := by
  induction hreach generalizing node with
  | refl => exact ⟨_, .refl, rfl⟩
  | @tail child name _ hinherits ih =>
    obtain ⟨_, hchild⟩ := hinherits.exists_node
    obtain ⟨visit, hsteps, rfl⟩ := ih hchild
    have hnamed := ((Lineage.IsVisit.start hentry).of_steps hsteps).named hinherits
    -- A class on the path is not followed again, but it was visited on the way.
    by_cases hpresent : name ∈ visit.path
    · exact exists_visit_of_mem_path rfl hsteps hpresent
    · exact ⟨_, hsteps.tail (.follow hnamed hpresent hfound), rfl⟩

/-- A class that can be reached and does not exist is reported where it is named. -/
theorem exists_missing_of_reachable
    (hreach : Relation.ReflTransGen lineage.Inherits className name)
    (hmissing : lineage.lookup.get? name = none) :
    ∃ last, Relation.ReflTransGen lineage.Next ⟨[], className, id⟩ last ∧
      lineage.Reports className last (.missingAncestor className name .inherits) := by
  cases hreach with
  | refl => simp [hentry] at hmissing
  | tail hreach hinherits =>
    obtain ⟨_, hchild⟩ := hinherits.exists_node
    obtain ⟨last, hsteps, rfl⟩ := exists_visit_of_reachable hentry hreach hchild
    refine ⟨last, hsteps, .missing ?_ (fun hpresent => ?_) hmissing⟩
    · exact ((Lineage.IsVisit.start hentry).of_steps hsteps).named hinherits
    · obtain ⟨node, hfound⟩ := exists_node_of_mem_path hentry hsteps hpresent
      simp [hmissing] at hfound

/-- Going on from a visited class, the walk gets to every class that exists, or to one that names
a class on its path. -/
theorem exists_visit_or_cycle {node : NodeId} {start : Visit}
    (hstart : Relation.ReflTransGen lineage.Next ⟨[], className, id⟩ start)
    (hreach : Relation.ReflTransGen lineage.Inherits start.id name)
    (hfound : lineage.lookup.get? name = some node) :
    ∃ last, Relation.ReflTransGen lineage.Next start last ∧
      (last.id = name ∨ ∃ repeated ∈ lineage.inherits last.node, repeated ∈ last.path) := by
  induction hreach generalizing node with
  | refl => exact ⟨start, .refl, .inl rfl⟩
  | @tail child name _ hinherits ih =>
    obtain ⟨_, hchild⟩ := hinherits.exists_node
    obtain ⟨last, hsteps, rfl | hcycle⟩ := ih hchild
    · have hnamed :=
        ((Lineage.IsVisit.start hentry).of_steps (hstart.trans hsteps)).named hinherits
      by_cases hpresent : name ∈ last.path
      · exact ⟨last, hsteps, .inr ⟨name, hnamed, hpresent⟩⟩
      · exact ⟨_, hsteps.tail (.follow hnamed hpresent hfound), .inl rfl⟩
    · exact ⟨last, hsteps, .inr hcycle⟩

/-- A cycle that can be reached is reported. -/
theorem exists_cycle_of_reachable
    (hreach : Relation.ReflTransGen lineage.Inherits className name)
    (hcycle : Relation.TransGen lineage.Inherits name name) :
    ∃ last path, Relation.ReflTransGen lineage.Next ⟨[], className, id⟩ last ∧
      lineage.Reports className last (.cycle className path) := by
  obtain ⟨_, haway, _⟩ := Relation.TransGen.head'_iff.mp hcycle
  obtain ⟨_, hfound⟩ := haway.exists_node
  obtain ⟨start, hstart, rfl⟩ := exists_visit_of_reachable hentry hreach hfound
  obtain ⟨child, haround, hback⟩ := Relation.TransGen.tail'_iff.mp hcycle
  obtain ⟨_, hchild⟩ := hback.exists_node
  obtain ⟨last, hsteps, rfl | ⟨repeated, hnamed, hpresent⟩⟩ :=
    exists_visit_or_cycle hentry hstart haround hchild
  · have hvisit := (Lineage.IsVisit.start hentry).of_steps (hstart.trans hsteps)
    have hpresent : start.id ∈ last.path :=
      path_subset hsteps (List.mem_append_right _ (List.mem_singleton_self _))
    exact ⟨last, _, hstart.trans hsteps, .cycle (hvisit.named hback) hpresent⟩
  · exact ⟨last, _, hstart.trans hsteps, .cycle hnamed hpresent⟩

end Completeness

/-- The path of a reported cycle comes back to a class on it, and to no other class. -/
theorem Lineage.IsVisit.path_of_reports (h : lineage.IsVisit className visit)
    (hreports : lineage.Reports className visit (.cycle className path)) :
    path.head? = some className ∧ path.IsChain lineage.Inherits ∧
      ∃ stem last, path = stem ++ [last] ∧ stem.Nodup ∧ last ∈ stem := by
  cases hreports with
  | cycle hnamed hpresent =>
    obtain ⟨hhead, hchain⟩ := h.path_append hnamed
    exact ⟨hhead, hchain, _, _, rfl, h.nodup, hpresent⟩

/-- A reported cycle can be reached. -/
theorem Lineage.IsVisit.exists_cycle_of_reports (h : lineage.IsVisit className visit)
    (hreports : lineage.Reports className visit (.cycle className path)) :
    ∃ name, Relation.ReflTransGen lineage.Inherits className name ∧
      Relation.TransGen lineage.Inherits name name := by
  cases hreports with
  | cycle hnamed hpresent =>
    exact ⟨_, h.reachable hpresent, .tail' (h.reaches hpresent) ⟨_, h.found, hnamed⟩⟩

/-- A class that is reported as missing can be reached and does not exist. -/
theorem Lineage.IsVisit.missing_of_reports (h : lineage.IsVisit className visit)
    (hreports : lineage.Reports className visit (.missingAncestor className name .inherits)) :
    Relation.ReflTransGen lineage.Inherits className name ∧ lineage.lookup.get? name = none := by
  cases hreports with
  | missing hnamed _ hmissing =>
    have hend : visit.id ∈ visit.path := List.mem_append_right _ (List.mem_singleton_self _)
    exact ⟨(h.reachable hend).tail ⟨_, h.found, hnamed⟩, hmissing⟩

/-- Merging reports what the walk over the ancestors of a class reports, also if it inherits
nothing. -/
theorem diagnostics_mergeInto_of_isClass {forest : Forest}
    (hclass : (forest.node id).isClass = true) :
    (mergeInto lineage forest id).diagnostics =
      forest.diagnostics ++ (ancestorWalk lineage forest id).diagnostics := by
  rw [diagnostics_mergeInto]
  by_cases hinherits : (forest.node id).inherits = []
  · rw [if_neg fun h => h.2 hinherits, ancestorWalk, hinherits, List.eraseDups_nil, walk_nil]
  · rw [if_pos ⟨hclass, hinherits⟩]

/-- What merging reports about a class that is found under its own id is exact. It reports a cycle if
and only if there is one that can be reached from the class, and a missing ancestor if and only if
the ancestor can be reached and does not exist. The path of a reported cycle starts with the class,
goes along inheritance and repeats its last id only. -/
theorem inheritance_reports_exact (forest : Forest) (own : NodeId → List Edge) (id : NodeId)
    (hclass : (forest.node id).isClass = true)
    (hentry : forest.lookup.get? (forest.node id).id = some id) :
    let lineage : Lineage := { forest.lineage with own }
    let className := (forest.node id).id
    let reports := (walk lineage className [className]
      (forest.node id).inherits.eraseDups).diagnostics
    (mergeInto lineage forest id).diagnostics = forest.diagnostics ++ reports ∧
      ((∃ path, .cycle className path ∈ reports) ↔
        ∃ name, Relation.ReflTransGen lineage.Inherits className name ∧
          Relation.TransGen lineage.Inherits name name) ∧
      (∀ name, .missingAncestor className name .inherits ∈ reports ↔
        Relation.ReflTransGen lineage.Inherits className name ∧
          lineage.lookup.get? name = none) ∧
      ∀ diagnostic ∈ reports,
        (∃ name, diagnostic = .missingAncestor className name .inherits) ∨
        ∃ path, diagnostic = .cycle className path ∧ path.head? = some className ∧
          path.IsChain lineage.Inherits ∧
          ∃ stem last, path = stem ++ [last] ∧ stem.Nodup ∧ last ∈ stem := by
  intro lineage className reports
  have hreports (diagnostic : Diagnostic) : diagnostic ∈ reports ↔
      ∃ last, Relation.ReflTransGen lineage.Next ⟨[], className, id⟩ last ∧
        lineage.Reports className last diagnostic :=
    mem_diagnostics_walk_iff ⟨[], className, id⟩
  have hvisit {last : Visit}
      (hsteps : Relation.ReflTransGen lineage.Next ⟨[], className, id⟩ last) :
      lineage.IsVisit className last :=
    (Lineage.IsVisit.start hentry).of_steps hsteps
  refine ⟨?_, ⟨?_, ?_⟩, fun name => ⟨?_, ?_⟩, ?_⟩
  · exact diagnostics_mergeInto_of_isClass hclass
  · rintro ⟨path, hmem⟩
    obtain ⟨last, hsteps, hlast⟩ := (hreports _).mp hmem
    exact (hvisit hsteps).exists_cycle_of_reports hlast
  · rintro ⟨name, hreach, hcycle⟩
    obtain ⟨last, path, hcycle⟩ := exists_cycle_of_reachable hentry hreach hcycle
    exact ⟨path, (hreports _).mpr ⟨last, hcycle⟩⟩
  · intro hmem
    obtain ⟨last, hsteps, hlast⟩ := (hreports _).mp hmem
    exact (hvisit hsteps).missing_of_reports hlast
  · rintro ⟨hreach, hmissing⟩
    exact (hreports _).mpr (exists_missing_of_reachable hentry hreach hmissing)
  · intro diagnostic hmem
    obtain ⟨last, hsteps, hlast⟩ := (hreports _).mp hmem
    cases hlast with
    | cycle hnamed hpresent =>
      exact .inr ⟨_, rfl, (hvisit hsteps).path_of_reports (.cycle hnamed hpresent)⟩
    | missing => exact .inl ⟨_, rfl⟩

/-- Two classes that inherit from each other, the second one also from a class that does not
exist. -/
def mutualClasses : Forest where
  nodes := #[
    .ofRecord { id := "Array", kind := .class, inherits := ["Enumerable"] },
    .ofRecord { id := "Enumerable", kind := .class, inherits := ["Array", "Ghost"] }]
  keys := .empty
  top := [.owned 0, .owned 1]
  lookup := .ofList [("Array", 0), ("Enumerable", 1)]
  diagnostics := []

/-- Merging into the first class reports the cycle and the class that does not exist. -/
theorem inheritance_reports_exact_of_mutualClasses :
    let reports := (mergeInto mutualClasses.lineage mutualClasses 0).diagnostics
    (∃ path, .cycle "Array" path ∈ reports) ∧
      .missingAncestor "Array" "Ghost" .inherits ∈ reports := by
  obtain ⟨hmerged, hcycle, hmissing, _⟩ := inheritance_reports_exact mutualClasses
    mutualClasses.lineage.own 0 (by decide) (by decide +kernel)
  have hfirst : mutualClasses.lineage.Inherits "Array" "Enumerable" :=
    ⟨0, by decide +kernel, by decide +kernel⟩
  have hback : mutualClasses.lineage.Inherits "Enumerable" "Array" :=
    ⟨1, by decide +kernel, by decide +kernel⟩
  have hghost : mutualClasses.lineage.Inherits "Enumerable" "Ghost" :=
    ⟨1, by decide +kernel, by decide +kernel⟩
  obtain ⟨path, hpath⟩ := hcycle.mpr ⟨"Array", .refl, .tail (.single hfirst) hback⟩
  have habsent := (hmissing "Ghost").mpr ⟨.tail (.single hfirst) hghost, by decide +kernel⟩
  intro reports
  have hreports : reports = [] ++ _ := hmerged
  rw [hreports, List.nil_append]
  exact ⟨⟨path, hpath⟩, habsent⟩

end SymbolTree.Forest
