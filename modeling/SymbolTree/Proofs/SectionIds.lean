import SymbolTree.Proofs.Backlinks
import SymbolTree.Proofs.KeptRecords
import SymbolTree.Proofs.LookupWinners
import SymbolTree.Proofs.RelativeIds
import SymbolTree.Proofs.SectionGuessing

/-!
# Ids of sections

Sections have different keys, but what is left of a key for the id of a section loses its own section
and is lower-cased. Different sections may thus end with one id. Sections are not entered in the
lookup, so this goes unnoticed: a clash over an id is reported where records are filed under it, where
a key moves to it when sections are guessed, where nodes that are no sections have it, or where a
constructor is renamed to it.
-/

namespace SymbolTree

/-- What a loop brings about is there at its start or is brought about by one of its steps. -/
theorem foldl_iff {σ β : Type} {step : σ → β → σ} (holds : σ → Prop) (causes : σ → β → Prop)
    (hstep : ∀ state item, holds (step state item) ↔ holds state ∨ causes state item)
    (items : List β) (state : σ) :
    holds (items.foldl step state) ↔ holds state ∨ ∃ earlier item later,
      items = earlier ++ item :: later ∧ causes (earlier.foldl step state) item := by
  induction items generalizing state with
  | nil => simp
  | cons first items ih =>
    rw [List.foldl_cons, ih, hstep, or_assoc]
    -- a later step among the rest is a later step of the whole, behind one more step
    refine or_congr_right ⟨?_, ?_⟩
    · rintro (hfirst | ⟨earlier, item, later, rfl, hitem⟩)
      · exact ⟨[], first, items, rfl, hfirst⟩
      · exact ⟨first :: earlier, item, later, rfl, hitem⟩
    · rintro ⟨earlier, item, later, hsplit, hitem⟩
      cases earlier with
      | nil =>
        obtain ⟨rfl, rfl⟩ := List.cons.inj hsplit
        exact .inl hitem
      | cons other earlier =>
        obtain ⟨rfl, rfl⟩ := List.cons.inj hsplit
        exact .inr ⟨earlier, item, later, rfl, hitem⟩

namespace Diagnostic

/-- A clash over an id is among some diagnostics. -/
def Clash (name : String) (diagnostics : List Diagnostic) : Prop :=
  ∃ kept dropped, .nameClash name kept dropped ∈ diagnostics

/-- A clash is a diagnostic that counts as one. -/
theorem clash_iff_countP {name : String} {diagnostics : List Diagnostic} :
    Clash name diagnostics ↔ 0 < diagnostics.countP (·.isClashOn name) := by
  rw [List.countP_pos_iff]
  constructor
  · rintro ⟨kept, dropped, hmem⟩
    exact ⟨_, hmem, by simp [isClashOn]⟩
  · rintro ⟨diagnostic, hmem, hclash⟩
    cases diagnostic with
    | nameClash id kept dropped =>
      obtain rfl : id = name := by simpa [isClashOn] using hclash
      exact ⟨kept, dropped, hmem⟩
    | missingAncestor => cases hclash
    | cycle => cases hclash

/-- A clash is among the first diagnostics or among the rest. -/
theorem clash_append {name : String} {first rest : List Diagnostic} :
    Clash name (first ++ rest) ↔ Clash name first ∨ Clash name rest := by
  simp only [Clash, List.mem_append, exists_or]

end Diagnostic

open Diagnostic (Clash clash_iff_countP clash_append)

namespace Collection

variable {collection : Collection} {seen : List Record} {name : String}

/-- Filing a record leads to a clash over its key if the key is held, and to no other. -/
theorem countP_fileOwn (collection : Collection) (record : Record) (name : String) :
    (collection.fileOwn record).diagnostics.countP (·.isClashOn name) =
      collection.diagnostics.countP (·.isClashOn name) +
        if record.key = name ∧ (collection.records.get? name).isSome then 1 else 0 := by
  unfold fileOwn
  cases hheld : collection.records.get? record.key with
  | none =>
    rw [file_of_free hheld, if_neg fun hand => by simp [← hand.1, hheld] at hand]
    rfl
  | some holder =>
    have hone (kept dropped : SourceLocation) :
        ([.nameClash record.key kept dropped] : List Diagnostic).countP (·.isClashOn name) =
          if record.key = name ∧ (collection.records.get? name).isSome then 1 else 0 := by
      by_cases hkey : record.key = name
      · subst hkey
        simp [Diagnostic.isClashOn, hheld]
      · simp [Diagnostic.isClashOn, hkey]
    by_cases hbeats : record.precedence.beats holder.precedence = true
    · rw [file_of_beats hheld hbeats, List.countP_append, hone]
    · rw [file_of_not_beats hheld hbeats, List.countP_append, hone]

/-- Filing some records leads to one clash fewer for each key than there are records with it. -/
theorem countP_foldl_fileOwn (h : KeepsLeast collection seen)
    (hseen : collection.diagnostics.countP (·.isClashOn name) =
      seen.countP (fun record => record.key = name) - 1) (records : List Record) :
    (records.foldl fileOwn collection).diagnostics.countP (·.isClashOn name) =
      (seen ++ records).countP (fun record => record.key = name) - 1 := by
  induction records generalizing collection seen with
  | nil => simpa using hseen
  | cons record records ih =>
    have hheld : (collection.records.get? name).isSome ↔
        0 < seen.countP fun record => record.key = name := by
      rw [(h.heldBy name).isSome_iff, List.countP_eq_length_filter, List.length_pos_iff_exists_mem]
    have hnext : (collection.fileOwn record).diagnostics.countP (·.isClashOn name) =
        (seen ++ [record]).countP (fun record => record.key = name) - 1 := by
      rw [countP_fileOwn, hseen, List.countP_append, List.countP_singleton]
      simp only [hheld]
      by_cases hkey : record.key = name
      · simp only [hkey, true_and, decide_true, if_true]
        split <;> omega
      · simp [hkey]
    rw [List.foldl_cons, ih (h.fileOwn record) hnext, List.append_assoc, List.singleton_append]

/-- A clash over a key is reported exactly if several records are filed under it. -/
theorem clash_insertAll_iff {records : List Record} :
    Clash name (empty.insertAll records).diagnostics ↔
      1 < (root :: filings records).countP fun record => record.key = name := by
  have hstart : empty.diagnostics.countP (·.isClashOn name) =
      [root].countP (fun record => record.key = name) - 1 := by
    rw [List.countP_singleton]
    split <;> rfl
  have hcount := countP_foldl_fileOwn keepsLeast_empty hstart (filings records)
  rw [clash_iff_countP, insertAll_eq, hcount, List.singleton_append]
  omega

end Collection

namespace Forest

variable {forest : Forest} {name : String}

/-- A clash is reported about its own id. -/
theorem clash_clashReport {id : String} {holder incoming : NodeId} :
    Clash name [forest.clashReport id holder incoming] ↔ id = name := by
  simp only [Clash, clashReport, List.mem_singleton, Diagnostic.nameClash.injEq]
  constructor
  · rintro ⟨_, _, rfl, _, _⟩
    rfl
  · rintro rfl
    exact ⟨_, _, rfl, rfl, rfl⟩

/-- Guessing sections reports a clash over each key that is held when another one moves to it. -/
theorem clash_assignSections_iff :
    Clash name forest.assignSections.diagnostics ↔ Clash name forest.diagnostics ∨
      ∃ key, forest.MovesTo key name ∧ name ∈ forest.keys.keys := by
  rw [(guessed_assignSections forest).reported, clash_append]
  refine or_congr_right ⟨?_, ?_⟩
  · rintro ⟨kept, dropped, hmem⟩
    obtain ⟨key, hkey, hreport⟩ := List.mem_filterMap.mp hmem
    obtain ⟨target, moving, holder, hmoves, _, hheld, hclash⟩ :=
      (guessReport?_eq_some_iff (mem_sortedKeys_iff.mp hkey).1).mp hreport
    obtain rfl : target = name :=
      clash_clashReport.mp ⟨kept, dropped, List.mem_singleton.mpr hclash⟩
    exact ⟨key, hmoves, KeyMap.mem_keys_of_get? hheld⟩
  · rintro ⟨key, hmoves, hname⟩
    obtain ⟨moving, hmoving⟩ := KeyMap.mem_keys_iff.mp hmoves.keyed
    obtain ⟨holder, hheld⟩ := KeyMap.mem_keys_iff.mp hname
    exact ⟨_, _, List.mem_filterMap.mpr ⟨key, hmoves.mem_sortedKeys,
      (guessReport?_eq_some_iff hmoves.keyed).mpr
        ⟨name, moving, holder, hmoves, hmoving, hheld, rfl⟩⟩⟩

/-- Nesting reports a clash over each id that several nodes have, sections apart. -/
theorem clash_nest_iff (hempty : forest.lookup = .empty) :
    Clash name forest.nest.diagnostics ↔ Clash name forest.diagnostics ∨
      1 < forest.keys.values.countP (forest.nest.answersTo name) := by
  have hstart : forest.withNames.lookup = .empty := by
    rw [lookup_eq_of_rest_eq forest.rest_withNames, hempty]
  obtain ⟨reports, hreports, _, hcount⟩ := ((Entered.start hstart).foldl forest.seats).reported
  have hcompetitors : forest.withNames.competitors ([] ++ forest.seats) name =
      forest.nest.competitors forest.seats name := by
    rw [competitors, answersTo_withNames]
    rfl
  have hdiagnostics : forest.nest.diagnostics = forest.diagnostics ++ reports := by
    rw [diagnostics_nest, ← diagnostics_eq_of_rest_eq forest.rest_withNames]
    exact hreports
  have hclash : Clash name reports ↔
      0 < forest.keys.values.countP (forest.nest.answersTo name) - 1 := by
    rw [clash_iff_countP, hcount, hcompetitors, length_competitors]
  rw [hdiagnostics, clash_append, hclash, Nat.sub_pos_iff_lt]

/-- Entering a node reports a clash over its id if the id is held. -/
theorem clash_enter_iff (forest : Forest) (id : String) (incoming : NodeId) :
    Clash name (forest.enter id incoming).diagnostics ↔ Clash name forest.diagnostics ∨
      id = name ∧ (forest.lookup.get? name).isSome := by
  rw [diagnostics_enter, clash_append]
  refine or_congr_right ?_
  cases hheld : forest.lookup.get? id with
  | none =>
    refine ⟨fun ⟨_, _, hmem⟩ => absurd hmem List.not_mem_nil, ?_⟩
    rintro ⟨rfl, hsome⟩
    simp [hheld] at hsome
  | some holder =>
    refine clash_clashReport.trans ⟨?_, And.left⟩
    rintro rfl
    exact ⟨rfl, by simp [hheld]⟩

/-- A renaming meets a clash: the node holds its old id, and its new id is held. -/
structure RenameClashes (forest : Forest) (rename : String × NodeId) (name : String) : Prop where
  /-- The node holds its old id. -/
  holds : forest.lookup.get? rename.1 = some rename.2
  /-- The id is the new one. -/
  id_eq : (forest.node rename.2).id = name
  /-- It is held once the old one is given up. -/
  held : ((forest.lookup.erase rename.1).get? name).isSome

/-- Renaming reports a clash if it meets one. -/
theorem clash_renameEntry_iff (forest : Forest) (rename : String × NodeId) :
    Clash name (forest.renameEntry rename).diagnostics ↔
      Clash name forest.diagnostics ∨ forest.RenameClashes rename name := by
  unfold renameEntry
  split
  · rename_i hholds
    rw [clash_enter_iff]
    exact or_congr_right ⟨fun h => ⟨hholds, h.1, h.2⟩, fun h => ⟨h.id_eq, h.held⟩⟩
  · rename_i hlost
    exact ⟨.inl, fun h => h.elim id fun hclash => absurd hclash.holds hlost⟩

/-- Classification reports the clashes that its renamings meet. -/
theorem clash_classify_iff :
    Clash name forest.classify.diagnostics ↔ Clash name forest.diagnostics ∨
      ∃ earlier rename later, forest.renames = earlier ++ rename :: later ∧
        (earlier.foldl renameEntry forest.withTypes).RenameClashes rename name := by
  rw [classify_eq, ← diagnostics_eq_of_rest_eq forest.rest_withTypes]
  exact foldl_iff (fun later => Clash name later.diagnostics)
    (fun later rename => later.RenameClashes rename name) clash_renameEntry_iff forest.renames
    forest.withTypes

end Forest

namespace Collection

/-- What leads to a clash over an id in the resolution of some records. -/
inductive Contested (records : List Record) (name : String) : Prop
  /-- Several records are filed under it. -/
  | filed : 1 < ((root :: filings records).countP fun record => record.key = name) →
      Contested records name
  /-- A key moves to it that is held. -/
  | guessed {key : String} :
      (Forest.ofCollection (empty.insertAll records)).MovesTo key name →
      name ∈ (Forest.ofCollection (empty.insertAll records)).keys.keys → Contested records name
  /-- Several nodes that are no sections are nested with it. -/
  | nested :
      1 < (Forest.ofCollection (empty.insertAll records)).assignSections.keys.values.countP
        ((empty.insertAll records).nested.answersTo name) → Contested records name
  /-- A constructor is renamed to it while it is held. -/
  | renamed {earlier later : List (String × NodeId)} {rename : String × NodeId} :
      (empty.insertAll records).nested.renames = earlier ++ rename :: later →
      (earlier.foldl Forest.renameEntry (empty.insertAll records).nested.withTypes).RenameClashes
        rename name → Contested records name

variable {records : List Record} {settings : Settings} {name : String}

/-- Problems of inheritance and reports about superclasses are no clashes. -/
theorem clash_resolve_iff_classify :
    Clash name ((empty.insertAll records).resolve settings).diagnostics ↔
      Clash name (empty.insertAll records).nested.classify.diagnostics := by
  obtain ⟨inherited, hdiagnostics, hinherited⟩ :=
    exists_diagnostics_resolve (empty.insertAll records) settings
  rw [hdiagnostics, List.append_assoc, clash_append]
  refine or_iff_left ?_
  rintro ⟨kept, dropped, hmem⟩
  rcases List.mem_append.mp hmem with hsuperclass | hinheritance
  · obtain ⟨⟨id, _⟩, hreport, rfl⟩ := List.mem_map.mp hsuperclass
    obtain ⟨_, hreport⟩ := Forest.mem_superclassReports_iff.mp hreport
    unfold Forest.superclassReport? at hreport
    split at hreport
    · obtain ⟨_, _, hclash⟩ := Option.map_eq_some_iff.mp hreport
      split at hclash <;> cases hclash
    · cases hreport
  · exact Bool.noConfusion (hinherited _ hinheritance)

/-- A clash over an id is reported exactly if the id is contested. -/
theorem clash_resolve_iff :
    Clash name ((empty.insertAll records).resolve settings).diagnostics ↔
      Contested records name := by
  have hempty : (Forest.ofCollection (empty.insertAll records)).assignSections.lookup = .empty := by
    rw [Forest.lookup_assignSections, Forest.lookup_ofCollection]
  rw [clash_resolve_iff_classify, Forest.clash_classify_iff, nested, Forest.clash_nest_iff hempty,
    Forest.clash_assignSections_iff, Forest.diagnostics_ofCollection, clash_insertAll_iff]
  constructor
  · rintro (((hfiled | ⟨key, hmoves, hname⟩) | hnested) | ⟨earlier, rename, later, hsplit, hclash⟩)
    · exact .filed hfiled
    · exact .guessed hmoves hname
    · exact .nested hnested
    · exact .renamed hsplit hclash
  · rintro (hfiled | ⟨hmoves, hname⟩ | hnested | ⟨hsplit, hclash⟩)
    · exact .inl (.inl (.inl hfiled))
    · exact .inl (.inl (.inr ⟨_, hmoves, hname⟩))
    · exact .inl (.inr hnested)
    · exact .inr ⟨_, _, _, hsplit, hclash⟩

/-- The id of a section is what is left of its key without a leading section, in lower case. -/
theorem exists_key_of_section {id : NodeId}
    (hreachable : ((empty.insertAll records).resolve settings).ownership.Reachable id)
    (hsection : (((empty.insertAll records).resolve settings).node id).isSection = true) :
    ∃ key, (Forest.ofCollection (empty.insertAll records)).assignSections.keys.get? key = some id ∧
      (((empty.insertAll records).resolve settings).node id).id =
        Text.lowerCase (QualifiedName.parse key).dropSection.text := by
  obtain ⟨root, _, h⟩ := exists_unentered records
  obtain ⟨record, hrecord, _⟩ := exists_record_of_reachable hreachable
  obtain ⟨moved, _, hkey⟩ := exists_key_of_reachable hreachable hrecord
  refine ⟨_, hkey, ?_⟩
  let forest := (Forest.ofCollection (empty.insertAll records)).assignSections
  have hstart : (forest.node id).isSection = true := by
    rw [Forest.node_assignSections, ← hsection]
    exact (Forest.isSection_resolve settings _ id).symm
  have htype : (((empty.insertAll records).resolve settings).node id).type ≠ .constructor := by
    rw [beq_iff_eq.mp hsection]
    decide
  have hfinal := final_id_eq hreachable
  simp only [if_neg htype] at hfinal
  have hnamed : (forest.nest.node id).id = (Forest.nameNode _ (forest.node id)).id :=
    h.view_nest (fun _ _ => rfl) (fun _ _ => rfl) hkey
  rw [hfinal]
  refine hnamed.trans ?_
  rw [Forest.nameNode]
  simp only [hstart, if_true]

/-- After any sequence of insertions and for all settings, a clash over an id is reported exactly if
several records are filed under it, a key moves to it that is held, several nodes that are no sections
are nested with it, or a constructor is renamed to it while it is held. Different sections that can be
reached have different keys, and they have one id exactly if what is left of the keys without leading
sections differs in case at most. That they have one id is thus reported for one of those reasons or
not at all. -/
theorem section_id_clash_iff (records : List Record) (settings : Settings) :
    let guessed := (Forest.ofCollection (empty.insertAll records)).assignSections
    let tree := (empty.insertAll records).resolve settings
    (∀ name, (∃ kept dropped, .nameClash name kept dropped ∈ tree.diagnostics) ↔
      Contested records name) ∧
    ∀ a b, a ≠ b → tree.ownership.Reachable a → tree.ownership.Reachable b →
      (tree.node a).isSection = true → (tree.node b).isSection = true →
      ∃ keyA keyB, guessed.keys.get? keyA = some a ∧ guessed.keys.get? keyB = some b ∧
        keyA ≠ keyB ∧
        ((tree.node a).id = (tree.node b).id ↔
          Text.lowerCase (QualifiedName.parse keyA).dropSection.text =
            Text.lowerCase (QualifiedName.parse keyB).dropSection.text) := by
  intro guessed tree
  refine ⟨fun name => clash_resolve_iff, fun a b hne ha hb hsectionA hsectionB => ?_⟩
  obtain ⟨keyA, hkeyA, hidA⟩ := exists_key_of_section ha hsectionA
  obtain ⟨keyB, hkeyB, hidB⟩ := exists_key_of_section hb hsectionB
  refine ⟨keyA, keyB, hkeyA, hkeyB, fun heq => ?_, by rw [hidA, hidB]⟩
  subst heq
  exact hne (Option.some.inj (hkeyA.symm.trans hkeyB))

/-- Two sections that differ in case, and two classes of other sections with the name that the sections
end with. -/
def sectionsAndNamesakes : List Record :=
  [{ id := "DOM", kind := .section }, { id := "dom", kind := .section },
    { id := "dom", kind := .class, «section» := some "A" },
    { id := "dom", kind := .class, «section» := some "B" }]

/-- The clash that is reported is one of the classes. -/
theorem section_id_clash_iff_of_sectionsAndNamesakes :
    let tree := (empty.insertAll sectionsAndNamesakes).resolve {}
    (tree.node 3).id = "dom" ∧ (tree.node 4).id = (tree.node 3).id ∧
      ∃ kept dropped, .nameClash "dom" kept dropped ∈ tree.diagnostics := by
  intro tree
  let guessed := (Forest.ofCollection (empty.insertAll sectionsAndNamesakes)).assignSections
  obtain ⟨⟨hupper, hlower⟩, ⟨hupperSection, hlowerSection⟩, ⟨hupperKey, hlowerKey⟩, hid,
      hnamesakes⟩ :
      (3 ∈ tree.top.map Edge.child ∧ 4 ∈ tree.top.map Edge.child) ∧
      ((tree.node 3).isSection = true ∧ (tree.node 4).isSection = true) ∧
      (guessed.keys.get? "DOM" = some 3 ∧ guessed.keys.get? "dom" = some 4) ∧
      (tree.node 3).id = "dom" ∧
      1 < guessed.keys.values.countP
        ((empty.insertAll sectionsAndNamesakes).nested.answersTo "dom") := by
    simp only [tree, guessed, nested_eval, Forest.assignSections_eval, resolve,
      Forest.resolve_eval]
    decide +kernel
  obtain ⟨hclash, hsections⟩ := section_id_clash_iff sectionsAndNamesakes {}
  obtain ⟨keyA, keyB, hkeyA, hkeyB, _, hsame⟩ := hsections 3 4 (by decide)
    (Ownership.reachable_iff_exists_line.mpr ⟨_, .top hupper⟩)
    (Ownership.reachable_iff_exists_line.mpr ⟨_, .top hlower⟩) hupperSection hlowerSection
  obtain ⟨_, _, hnestable⟩ := exists_unentered sectionsAndNamesakes
  obtain rfl := KeyMap.get?_inj_of_nodup_values hnestable.nodup_values hupperKey hkeyA
  obtain rfl := KeyMap.get?_inj_of_nodup_values hnestable.nodup_values hlowerKey hkeyB
  exact ⟨hid, (hsame.mpr (by decide +kernel)).symm, (hclash "dom").mpr (.nested hnamesakes)⟩

/-- Two sections that differ in case. -/
def sectionsInTwoCases : List Record :=
  [{ id := "DOM", kind := .section, line := 1 }, { id := "dom", kind := .section, line := 2 }]

/-- The two sections end with one id, and nothing is reported. -/
theorem section_ids_clash_silently_of_sectionsInTwoCases :
    let tree := (empty.insertAll sectionsInTwoCases).resolve {}
    tree.ownership.Reachable 1 ∧ tree.ownership.Reachable 2 ∧
      (tree.node 1).isSection = true ∧ (tree.node 2).isSection = true ∧
      (tree.node 1).id = "dom" ∧ (tree.node 2).id = "dom" ∧
      ∀ kept dropped, .nameClash "dom" kept dropped ∉ tree.diagnostics := by
  intro tree
  obtain ⟨hupper, hlower, hupperSection, hlowerSection, hupperId, hlowerId, hsilent⟩ :
      1 ∈ tree.top.map Edge.child ∧ 2 ∈ tree.top.map Edge.child ∧
      (tree.node 1).isSection = true ∧ (tree.node 2).isSection = true ∧
      (tree.node 1).id = "dom" ∧ (tree.node 2).id = "dom" ∧ tree.diagnostics = [] := by
    simp only [tree, resolve, Forest.resolve_eval]
    decide +kernel
  refine ⟨Ownership.reachable_iff_exists_line.mpr ⟨_, .top hupper⟩,
    Ownership.reachable_iff_exists_line.mpr ⟨_, .top hlower⟩, hupperSection, hlowerSection,
    hupperId, hlowerId, fun kept dropped => ?_⟩
  rw [hsilent]
  exact List.not_mem_nil

end Collection

end SymbolTree
