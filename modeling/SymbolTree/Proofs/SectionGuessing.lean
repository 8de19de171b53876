import SymbolTree.Proofs.CanonicalOrder
import SymbolTree.Proofs.SectionNames
import SymbolTree.Proofs.Sections

/-!
# Which keys move when sections are guessed

A key without a section moves behind the section of its donor, the first key in canonical order that
has a section and the same second segment. What follows the section stays, so keys that move stay
apart, and a moved key can only meet one that had its section from the start. Keys that have moved
name the donor's section themselves. A search that already sees them finds the same sections as one
that sees the keys as they were, and nothing is left to move afterwards.
-/

namespace SymbolTree

namespace Forest

variable {forest : Forest} {key target entity : String}

/-- The first key in canonical order that has a section and a given second segment. -/
structure IsDonor (forest : Forest) (entity donor : String) : Prop where
  /-- The donor is a key. -/
  keyed : donor ∈ forest.keys.keys
  /-- It has a section. -/
  head_ne : (QualifiedName.parse donor).head ≠ ""
  /-- It has the second segment. -/
  second_eq : (QualifiedName.parse donor).second? = some entity
  /-- No such key comes before it. -/
  first : ∀ other ∈ forest.keys.keys, (QualifiedName.parse other).head ≠ "" →
    (QualifiedName.parse other).second? = some entity → (compareIds donor other).isLE = true

/-- A key without a section moves to the same key behind the section of its donor. -/
structure MovesTo (forest : Forest) (key target : String) : Prop where
  /-- The key is held. -/
  keyed : key ∈ forest.keys.keys
  /-- It has no section. -/
  head_eq : (QualifiedName.parse key).head = ""
  /-- A donor for its second segment has the section. -/
  donated : ∃ entity donor, (QualifiedName.parse key).second? = some entity ∧
    forest.IsDonor entity donor ∧
    target = ((QualifiedName.parse key).withHead (QualifiedName.parse donor).head).text

/-- The names of the keys other than the root's, in canonical order. -/
def keyNames (forest : Forest) : List QualifiedName := forest.sortedKeys.map QualifiedName.parse

/-- The sorted keys are all keys but the root's. -/
theorem mem_sortedKeys_iff : key ∈ forest.sortedKeys ↔ key ∈ forest.keys.keys ∧ key ≠ "" := by
  rw [sortedKeys, sortByIds, (List.mergeSort_perm _ _).mem_iff, List.mem_filter, decide_eq_true_eq]

/-- The sorted keys are distinct. -/
theorem nodup_sortedKeys (forest : Forest) : forest.sortedKeys.Nodup :=
  (List.mergeSort_perm _ _).nodup_iff.mpr (forest.keys.nodup_keys.filter _)

/-- A key with a section is not the root's. -/
theorem ne_empty_of_head_ne (hhead : (QualifiedName.parse key).head ≠ "") : key ≠ "" := by
  rintro rfl
  exact hhead rfl

/-- The section that is found for a second segment is that of its donor. -/
theorem donor?_eq_some_iff {sectionName : String} :
    donor? forest.keyNames entity = some sectionName ↔
      ∃ donor, forest.IsDonor entity donor ∧ (QualifiedName.parse donor).head = sectionName := by
  rw [donor?, keyNames, List.find?_map, Option.map_map, Option.map_eq_some_iff]
  refine exists_congr fun donor => and_congr_left fun _ => ?_
  rw [sortedKeys, find?_sortByIds_iff]
  simp only [List.mem_filter, decide_eq_true_eq, Function.comp_apply]
  constructor
  · rintro ⟨⟨hkeyed, _⟩, ⟨hhead, hsecond⟩, hfirst⟩
    exact ⟨hkeyed, hhead, hsecond, fun other hother hotherHead hotherSecond =>
      hfirst other ⟨hother, ne_empty_of_head_ne hotherHead⟩ ⟨hotherHead, hotherSecond⟩⟩
  · intro h
    exact ⟨⟨h.keyed, ne_empty_of_head_ne h.head_ne⟩, ⟨h.head_ne, h.second_eq⟩,
      fun other hother hoffers => h.first other hother.1 hoffers.1 hoffers.2⟩

/-- A key with a section has a donor for its second segment. -/
theorem exists_isDonor (hkey : key ∈ forest.keys.keys)
    (hhead : (QualifiedName.parse key).head ≠ "")
    (hsecond : (QualifiedName.parse key).second? = some entity) :
    ∃ donor, forest.IsDonor entity donor := by
  cases hfound : donor? forest.keyNames entity with
  | none =>
    have hmem : QualifiedName.parse key ∈ forest.keyNames :=
      List.mem_map_of_mem (mem_sortedKeys_iff.mpr ⟨hkey, ne_empty_of_head_ne hhead⟩)
    have hnone := List.find?_eq_none.mp (Option.map_eq_none_iff.mp hfound) _ hmem
    exact absurd (decide_eq_true ⟨hhead, hsecond⟩) hnone
  | some sectionName =>
    obtain ⟨donor, hdonor, _⟩ := donor?_eq_some_iff.mp hfound
    exact ⟨donor, hdonor⟩

/-- A key moves where its guessed name says. -/
theorem movesTo_iff (hkey : key ∈ forest.keys.keys) :
    forest.MovesTo key target ↔
      ∃ name, guess? forest.keyNames (QualifiedName.parse key) = some name ∧
        name.text = target := by
  simp only [guess?_eq_some_iff]
  constructor
  · rintro ⟨_, hhead, entity, donor, hsecond, hdonor, rfl⟩
    exact ⟨_, ⟨hhead, entity, _, hsecond, donor?_eq_some_iff.mpr ⟨donor, hdonor, rfl⟩, rfl⟩, rfl⟩
  · rintro ⟨_, ⟨hhead, entity, _, hsecond, hfound, rfl⟩, rfl⟩
    obtain ⟨donor, hdonor, rfl⟩ := donor?_eq_some_iff.mp hfound
    exact ⟨hkey, hhead, entity, donor, hsecond, hdonor, rfl⟩

namespace MovesTo

/-- The key that a key moves to has a section before it. -/
theorem exists_section (h : forest.MovesTo key target) :
    ∃ sectionName, sectionName ≠ "" ∧ DelimiterFree sectionName ∧ target = sectionName ++ key := by
  obtain ⟨entity, donor, _, hdonor, rfl⟩ := h.donated
  refine ⟨(QualifiedName.parse donor).head, hdonor.head_ne,
    QualifiedName.delimiterFree_head_parse donor, ?_⟩
  rw [QualifiedName.text_withHead h.head_eq, QualifiedName.text_parse]

/-- A key that moves gets a section and keeps its other parts. -/
theorem parse_target (h : forest.MovesTo key target) :
    ∃ sectionName, sectionName ≠ "" ∧
      QualifiedName.parse target = ⟨sectionName, (QualifiedName.parse key).members⟩ := by
  obtain ⟨sectionName, hne, hfree, rfl⟩ := h.exists_section
  refine ⟨sectionName, hne, ?_⟩
  rw [QualifiedName.parse_append hfree, h.head_eq, String.append_empty]

/-- A key moves to one that has a section. -/
theorem head_target_ne (h : forest.MovesTo key target) :
    (QualifiedName.parse target).head ≠ "" := by
  obtain ⟨sectionName, hne, hparse⟩ := h.parse_target
  rwa [hparse]

/-- A key that moves keeps its second segment. -/
theorem second?_target (h : forest.MovesTo key target) :
    (QualifiedName.parse target).second? = (QualifiedName.parse key).second? := by
  obtain ⟨sectionName, _, hparse⟩ := h.parse_target
  rw [hparse]
  rfl

/-- What a key moves to does not move. -/
theorem not_movesTo_target (h : forest.MovesTo key target) {other : String} :
    ¬ forest.MovesTo target other := fun hother => h.head_target_ne hother.head_eq

/-- A key that moves is not one that a key moves to. -/
theorem not_movesTo_self (h : forest.MovesTo key target) {other : String} :
    ¬ forest.MovesTo other key := fun hother => hother.head_target_ne h.head_eq

/-- A key moves to another key. -/
theorem target_ne (h : forest.MovesTo key target) : target ≠ key := by
  rintro rfl
  exact h.not_movesTo_target h

/-- Two keys never move to one. -/
theorem source_unique {other : String} (h : forest.MovesTo key target)
    (hother : forest.MovesTo other target) : key = other := by
  obtain ⟨sectionName, _, hparse⟩ := h.parse_target
  obtain ⟨otherSection, _, hotherParse⟩ := hother.parse_target
  have hmembers : (QualifiedName.parse key).members = (QualifiedName.parse other).members :=
    (QualifiedName.mk.inj (hparse.symm.trans hotherParse)).2
  have hparts : QualifiedName.parse key = QualifiedName.parse other := by
    have hheads := h.head_eq.trans hother.head_eq.symm
    cases hkey : QualifiedName.parse key
    cases hotherKey : QualifiedName.parse other
    simp_all
  rw [← QualifiedName.text_parse key, hparts, QualifiedName.text_parse]

/-- A key moves to one key. -/
theorem target_unique {other : String} (h : forest.MovesTo key target)
    (hother : forest.MovesTo key other) : target = other := by
  obtain ⟨name, hname, rfl⟩ := (movesTo_iff h.keyed).mp h
  obtain ⟨otherName, hotherName, rfl⟩ := (movesTo_iff h.keyed).mp hother
  rw [Option.some.inj (hname.symm.trans hotherName)]

end MovesTo

/-- Moving a key reports a clash with the holder of the key that it moves to. -/
theorem diagnostics_rekey {oldKey newKey : String} {moving : NodeId}
    (hmoving : forest.keys.get? oldKey = some moving) (hne : newKey ≠ oldKey) :
    (forest.rekey oldKey newKey).diagnostics =
      forest.diagnostics ++ (forest.keys.get? newKey).toList.map
        fun holder => forest.clashReport newKey holder moving := by
  have herased : (forest.keys.erase oldKey).get? newKey = forest.keys.get? newKey := by
    rw [KeyMap.get?_erase, if_neg hne]
  cases hheld : forest.keys.get? newKey with
  | none =>
    rw [rekey_of_free hmoving (herased.trans hheld)]
    simp
  | some holder =>
    rw [rekey_of_held hmoving (herased.trans hheld)]
    rfl

/-- A key that is guessed moves. -/
theorem assignSection_of_guess? {names : List QualifiedName} {name : QualifiedName}
    (hguess : guess? names (QualifiedName.parse key) = some name) (forest : Forest) :
    assignSection names forest key = forest.rekey key name.text := by
  rw [assignSection, hguess]

/-- A key that is not guessed or not held changes nothing. -/
theorem assignSection_of_stays {names : List QualifiedName}
    (h : ∀ name moving, guess? names (QualifiedName.parse key) = some name →
      forest.keys.get? key ≠ some moving) :
    assignSection names forest key = forest := by
  cases hguess : guess? names (QualifiedName.parse key) with
  | none => rw [assignSection, hguess]
  | some name =>
    rw [assignSection_of_guess? hguess]
    exact rekey_of_absent (Option.eq_none_iff_forall_ne_some.mpr fun moving => h name moving hguess)

/-- The clash that a key runs into when it moves onto a held key. -/
def guessReport? (forest : Forest) (key : String) : Option Diagnostic :=
  (guess? forest.keyNames (QualifiedName.parse key)).bind fun name =>
    (forest.keys.get? key).bind fun moving =>
      (forest.keys.get? name.text).map fun holder => forest.clashReport name.text holder moving

/-- A key runs into a clash when the key that it moves to is held. -/
theorem guessReport?_eq_some_iff {report : Diagnostic} (hkey : key ∈ forest.keys.keys) :
    forest.guessReport? key = some report ↔
      ∃ target moving holder, forest.MovesTo key target ∧ forest.keys.get? key = some moving ∧
        forest.keys.get? target = some holder ∧
        report = forest.clashReport target holder moving := by
  simp only [guessReport?, Option.bind_eq_some_iff, Option.map_eq_some_iff, movesTo_iff hkey]
  constructor
  · rintro ⟨name, hname, moving, hmoving, holder, hholder, rfl⟩
    exact ⟨name.text, moving, holder, ⟨name, hname, rfl⟩, hmoving, hholder, rfl⟩
  · rintro ⟨_, moving, holder, ⟨name, hname, rfl⟩, hmoving, hholder, rfl⟩
    exact ⟨name, hname, moving, hmoving, holder, hholder, rfl⟩

/-- What guessing the sections of some keys has done to a forest. A key that moves competes only
with what held its target from the start, since nothing else moves there. -/
structure Guessed (forest : Forest) (done : List String) (later : Forest) : Prop where
  /-- All but the keys and the reports is as it was. -/
  frame : later = { forest with keys := later.keys, diagnostics := later.diagnostics }
  /-- A key that moves is free, and its node has asked for the target. -/
  moved : ∀ key ∈ done, ∀ target moving, forest.MovesTo key target →
    forest.keys.get? key = some moving → later.keys.get? key = none ∧
      later.keys.get? target =
        some (nextHolder forest.precedenceOf (forest.keys.get? target) moving)
  /-- A key that neither moves nor is moved to keeps its node. -/
  kept : ∀ key, (key ∈ done → ∀ target, ¬ forest.MovesTo key target) →
    (∀ source ∈ done, ¬ forest.MovesTo source key) →
      later.keys.get? key = forest.keys.get? key
  /-- Every clash has been reported. -/
  reported : later.diagnostics = forest.diagnostics ++ done.filterMap forest.guessReport?

namespace Guessed

variable {done : List String} {later : Forest}

/-- Nothing has been guessed yet. -/
theorem start (forest : Forest) : Guessed forest [] forest where
  frame := rfl
  moved _ hkey := absurd hkey List.not_mem_nil
  kept _ _ _ := rfl
  reported := (List.append_nil _).symm

/-- A key that does not move leaves all as it is. -/
theorem next_of_stays (h : Guessed forest done later)
    (hstays : ∀ target, ¬ forest.MovesTo key target) (hquiet : forest.guessReport? key = none) :
    Guessed forest (done ++ [key]) later where
  frame := h.frame
  moved other hother target moving hmoves hmoving := by
    rcases List.mem_append.mp hother with hother | hother
    · exact h.moved other hother target moving hmoves hmoving
    · obtain rfl := List.mem_singleton.mp hother
      exact absurd hmoves (hstays target)
  kept other hstill hfree :=
    h.kept other (fun hother => hstill (List.mem_append_left _ hother))
      fun source hsource => hfree source (List.mem_append_left _ hsource)
  reported := by simp [h.reported, hquiet]

/-- A key that moves takes its node along. -/
theorem next_of_moves (h : Guessed forest done later) (hfresh : key ∉ done) {moving : NodeId}
    (hmoves : forest.MovesTo key target) (hmoving : forest.keys.get? key = some moving)
    (hreport : (forest.guessReport? key).toList = (forest.keys.get? target).toList.map
      fun holder => forest.clashReport target holder moving) :
    Guessed forest (done ++ [key]) (later.rekey key target) := by
  obtain ⟨hnodes, htop, hlookup⟩ :
      later.nodes = forest.nodes ∧ later.top = forest.top ∧ later.lookup = forest.lookup := by
    rw [h.frame]
    exact ⟨rfl, rfl, rfl⟩
  have hnode (id : NodeId) : later.node id = forest.node id := node_eq_of_nodes_eq hnodes id
  have hprecedence : later.precedenceOf = forest.precedenceOf :=
    funext fun id => congrArg Node.precedence (hnode id)
  have hsource {source : String} (hdone : source ∈ done) : ¬ forest.MovesTo source target := by
    intro hother
    obtain rfl := hother.source_unique hmoves
    exact hfresh hdone
  -- Neither the key nor its target has been touched by the moves before this one.
  have hold : later.keys.get? key = some moving :=
    (h.kept key (fun hdone => absurd hdone hfresh) fun _ _ => hmoves.not_movesTo_self).trans hmoving
  have hheld : later.keys.get? target = forest.keys.get? target :=
    h.kept target (fun _ _ => hmoves.not_movesTo_target) fun _ hdone => hsource hdone
  have hget := @get?_keys_rekey later key target moving hold
  rw [hprecedence, KeyMap.get?_erase, if_neg hmoves.target_ne, hheld] at hget
  refine ⟨(later.rekey_frame key target).trans (by rw [hnodes, htop, hlookup]),
    fun other hother otherTarget otherMoving hotherMoves hotherMoving => ?_,
    fun other hstill hfree => ?_, ?_⟩
  · rcases List.mem_append.mp hother with hother | hother
    · obtain ⟨hgone, hasked⟩ :=
        h.moved other hother otherTarget otherMoving hotherMoves hotherMoving
      have hotherKey : other ≠ key := fun heq => hfresh (heq ▸ hother)
      have hotherNe : other ≠ target := fun heq => hmoves.not_movesTo_target (heq ▸ hotherMoves)
      have htargetNe : otherTarget ≠ target := fun heq => hsource hother (heq ▸ hotherMoves)
      have htargetKey : otherTarget ≠ key := fun heq => hmoves.not_movesTo_self (heq ▸ hotherMoves)
      rw [hget, hget, if_neg hotherNe, if_neg hotherKey, if_neg htargetNe, if_neg htargetKey]
      exact ⟨hgone, hasked⟩
    · obtain rfl := List.mem_singleton.mp hother
      obtain rfl := hotherMoves.target_unique hmoves
      obtain rfl := Option.some.inj (hmoving.symm.trans hotherMoving)
      rw [hget, hget, if_pos rfl, if_neg hmoves.target_ne.symm, if_pos rfl]
      exact ⟨rfl, rfl⟩
  · have hotherKey : other ≠ key := by
      rintro rfl
      exact hstill (by simp) target hmoves
    have hotherNe : other ≠ target := by
      rintro rfl
      exact hfree key (by simp) hmoves
    rw [hget, if_neg hotherNe, if_neg hotherKey]
    exact h.kept other (fun hother => hstill (List.mem_append_left _ hother))
      fun source hdone => hfree source (List.mem_append_left _ hdone)
  · have hclash (holder : NodeId) :
        later.clashReport target holder moving = forest.clashReport target holder moving := by
      simp only [clashReport, clashWinner, clashLoser, hnode]
    rw [diagnostics_rekey hold hmoves.target_ne, h.reported, hheld]
    simp only [hclash]
    rw [← hreport, List.append_assoc, List.filterMap_append]
    cases hguess : forest.guessReport? key <;> simp [hguess]

/-- One more key has been gone through. -/
theorem next (h : Guessed forest done later) (hkey : key ∈ forest.keys.keys) (hfresh : key ∉ done) :
    Guessed forest (done ++ [key]) (assignSection forest.keyNames later key) := by
  cases hguess : guess? forest.keyNames (QualifiedName.parse key) with
  | none =>
    rw [assignSection_of_stays fun name _ hname => nomatch hguess.symm.trans hname]
    refine h.next_of_stays (fun target hmoves => ?_) (by rw [guessReport?, hguess]; rfl)
    obtain ⟨name, hname, _⟩ := (movesTo_iff hkey).mp hmoves
    cases hguess.symm.trans hname
  | some name =>
    rw [assignSection_of_guess? hguess]
    obtain ⟨moving, hmoving⟩ := KeyMap.mem_keys_iff.mp hkey
    refine h.next_of_moves hfresh ((movesTo_iff hkey).mpr ⟨name, hguess, rfl⟩) hmoving ?_
    rw [guessReport?, hguess, hmoving, Option.bind_some, Option.bind_some]
    cases forest.keys.get? name.text <;> rfl

/-- Some distinct keys have been gone through. -/
theorem foldl {keys : List String} (h : Guessed forest done later)
    (hkeys : ∀ key ∈ keys, key ∈ forest.keys.keys) (hnodup : (done ++ keys).Nodup) :
    Guessed forest (done ++ keys) (keys.foldl (assignSection forest.keyNames) later) := by
  induction keys generalizing done later with
  | nil => simpa using h
  | cons key keys ih =>
    rw [List.append_cons] at hnodup ⊢
    have hfresh : key ∉ done := by
      have hdone := (List.nodup_append.mp hnodup).1
      exact fun hmem => (List.nodup_append.mp hdone).2.2 key hmem key (by simp) rfl
    exact ih (h.next (hkeys key List.mem_cons_self) hfresh)
      (fun other hother => hkeys other (List.mem_cons_of_mem _ hother)) hnodup

end Guessed

/-- Every key has been gone through in the end. -/
theorem guessed_assignSections (forest : Forest) :
    Guessed forest forest.sortedKeys forest.assignSections := by
  have hkeys : ∀ key ∈ forest.sortedKeys, key ∈ forest.keys.keys := fun key hkey =>
    (mem_sortedKeys_iff.mp hkey).1
  exact (Guessed.start forest).foldl hkeys forest.nodup_sortedKeys

/-- A key that moves is not the root's. -/
theorem MovesTo.mem_sortedKeys (h : forest.MovesTo key target) : key ∈ forest.sortedKeys := by
  obtain ⟨entity, _, hsecond, _⟩ := h.donated
  refine mem_sortedKeys_iff.mpr ⟨h.keyed, ?_⟩
  rintro rfl
  cases hsecond

/-- A key that moves is left free. -/
theorem MovesTo.get?_assignSections (h : forest.MovesTo key target) :
    forest.assignSections.keys.get? key = none := by
  obtain ⟨moving, hmoving⟩ := KeyMap.mem_keys_iff.mp h.keyed
  exact (forest.guessed_assignSections.moved key h.mem_sortedKeys target moving h hmoving).1

/-- A node has a key after guessing that it had before or that its key moved to. -/
theorem get?_of_assignSections {id : NodeId}
    (hkey : forest.assignSections.keys.get? key = some id) :
    forest.keys.get? key = some id ∨
      ∃ source, forest.MovesTo source key ∧ forest.keys.get? source = some id := by
  have h := forest.guessed_assignSections
  by_cases hsource : ∃ source, forest.MovesTo source key
  · obtain ⟨source, hmoves⟩ := hsource
    obtain ⟨moving, hmoving⟩ := KeyMap.mem_keys_iff.mp hmoves.keyed
    rw [(h.moved source hmoves.mem_sortedKeys key moving hmoves hmoving).2] at hkey
    obtain rfl := Option.some.inj hkey
    rcases nextHolder_cases forest.precedenceOf (forest.keys.get? key) moving with hwon | hkept
    · exact .inr ⟨source, hmoves, hmoving.trans (congrArg some hwon.symm)⟩
    · exact .inl hkept
  · have hstays : ∀ target, ¬ forest.MovesTo key target := fun target hmoves => by
      rw [hmoves.get?_assignSections] at hkey
      cases hkey
    have hkept := h.kept key (fun _ => hstays) fun source _ hmoves => hsource ⟨source, hmoves⟩
    exact .inl (hkept ▸ hkey)

/-- A key that is held after guessing was held before or is one that a key moved to. -/
theorem mem_keys_assignSections (hkey : key ∈ forest.assignSections.keys.keys) :
    key ∈ forest.keys.keys ∨ ∃ source, forest.MovesTo source key := by
  obtain ⟨holder, hholder⟩ := KeyMap.mem_keys_iff.mp hkey
  rcases get?_of_assignSections hholder with hbefore | ⟨source, hmoves, _⟩
  · exact .inl (KeyMap.mem_keys_iff.mpr ⟨holder, hbefore⟩)
  · exact .inr ⟨source, hmoves⟩

/-- After guessing no key is left that moves. A key that was moved to offers no section that was not
offered before. -/
theorem not_movesTo_assignSections (forest : Forest) (key target : String) :
    ¬ forest.assignSections.MovesTo key target := by
  intro h
  obtain ⟨entity, donor, hsecond, hdonor, _⟩ := h.donated
  have hmoves : ∃ other, forest.MovesTo key other := by
    have hkeyed : key ∈ forest.keys.keys :=
      (mem_keys_assignSections h.keyed).resolve_right fun ⟨source, hsource⟩ =>
        hsource.head_target_ne h.head_eq
    have hoffered : ∃ donor, forest.IsDonor entity donor := by
      rcases mem_keys_assignSections hdonor.keyed with hdonorKeyed | ⟨source, hsource⟩
      · exact exists_isDonor hdonorKeyed hdonor.head_ne hdonor.second_eq
      · obtain ⟨sourceEntity, sourceDonor, hsourceSecond, hsourceDonor, _⟩ := hsource.donated
        have hentity : sourceEntity = entity :=
          Option.some.inj ((hsourceSecond.symm.trans hsource.second?_target.symm).trans
            hdonor.second_eq)
        exact ⟨sourceDonor, hentity ▸ hsourceDonor⟩
    obtain ⟨donor, hdonor⟩ := hoffered
    exact ⟨_, hkeyed, h.head_eq, entity, donor, hsecond, hdonor, rfl⟩
  obtain ⟨other, hmoves⟩ := hmoves
  obtain ⟨holder, hholder⟩ := KeyMap.mem_keys_iff.mp h.keyed
  rw [hmoves.get?_assignSections] at hholder
  cases hholder

/-- Where no key moves, guessing changes nothing. -/
theorem assignSections_eq_self (h : ∀ key target, ¬ forest.MovesTo key target) :
    forest.assignSections = forest := by
  refine List.foldlRecOn (motive := (· = forest)) forest.sortedKeys
    (assignSection forest.keyNames) rfl fun later hlater key hkey => ?_
  subst hlater
  refine assignSection_of_stays fun name _ hguess => ?_
  have hkeyed := (mem_sortedKeys_iff.mp hkey).1
  exact absurd ((movesTo_iff hkeyed).mpr ⟨name, hguess, rfl⟩) (h key name.text)

/-- The section that is found first is found in the first of two lists that has one. -/
theorem donor?_append (names more : List QualifiedName) (entity : String) :
    donor? (names ++ more) entity = (donor? names entity).or (donor? more entity) := by
  rw [donor?, List.find?_append, Option.map_or]
  rfl

/-- A name without a section offers none. -/
theorem donor?_cons_of_head_eq {name : QualifiedName} (hhead : name.head = "")
    (names : List QualifiedName) (entity : String) :
    donor? (name :: names) entity = donor? names entity := by
  simp [donor?, hhead]

/-- Writing a guessed name in the place of the old one changes no section that is found. It offers
the section that was found for it, and so comes too late or says the same. -/
theorem donor?_replace {before after : List QualifiedName} {name guessed : QualifiedName}
    (hguess : guess? (before ++ name :: after) name = some guessed) (entity : String) :
    donor? (before ++ guessed :: after) entity = donor? (before ++ name :: after) entity := by
  obtain ⟨hhead, own, sectionName, hsecond, hdonor, rfl⟩ := guess?_eq_some_iff.mp hguess
  rw [donor?_append, donor?_append, donor?_cons_of_head_eq hhead]
  have hcons : donor? (name.withHead sectionName :: after) entity =
      if own = entity then some sectionName else donor? after entity := by
    have hsecondGuessed : (name.withHead sectionName).second? = some own := hsecond
    have hheadGuessed : (name.withHead sectionName).head ≠ "" := ne_empty_of_donor? hdonor
    by_cases hentity : own = entity
    · simp [donor?, hheadGuessed, hsecondGuessed, hentity]
      rfl
    · simp [donor?, hsecondGuessed, hentity]
  rw [hcons]
  split
  · rename_i hentity
    subst hentity
    rw [donor?_append, donor?_cons_of_head_eq hhead] at hdonor
    cases hbefore : donor? before own with
    | none => rw [← hdonor, hbefore]; rfl
    | some found => rfl
  · rfl

/-- Guess the sections of some keys in turn, where a search sees the names as they are by then:
those gone through already, with their new sections, and after them the others. -/
def assignInPlace (visited : List QualifiedName) (forest : Forest) : List String → Forest
  | [] => forest
  | key :: keys =>
    let name := QualifiedName.parse key
    match guess? (visited ++ name :: keys.map QualifiedName.parse) name, forest.keys.get? key with
    | some guessed, some _ =>
      assignInPlace (visited ++ [guessed]) (forest.rekey key guessed.text) keys
    | _, _ => assignInPlace (visited ++ [name]) forest keys

/-- Names that offer the same sections are guessed alike. -/
theorem guess?_congr {names others : List QualifiedName}
    (h : ∀ entity, donor? names entity = donor? others entity) (name : QualifiedName) :
    guess? names name = guess? others name := by
  rw [guess?, guess?, funext h]

/-- A search that sees the new names moves every key to the same place. -/
theorem assignInPlace_eq {names visited : List QualifiedName} {keys : List String}
    (h : ∀ entity, donor? (visited ++ keys.map QualifiedName.parse) entity = donor? names entity)
    (forest : Forest) :
    assignInPlace visited forest keys = keys.foldl (assignSection names) forest := by
  induction keys generalizing visited forest with
  | nil => rfl
  | cons key keys ih =>
    have hsame := guess?_congr h (QualifiedName.parse key)
    rw [List.map_cons] at h hsame
    rw [assignInPlace, List.foldl_cons]
    split
    · rename_i guessed _ hguess _
      rw [assignSection_of_guess? (hsame.symm.trans hguess)]
      refine ih (fun entity => ?_) _
      rw [← h, ← donor?_replace hguess, List.append_assoc, List.singleton_append]
    · rename_i hnot
      rw [assignSection_of_stays fun guessed moving hguess =>
        hnot guessed moving (hsame.trans hguess)]
      refine ih (fun entity => ?_) _
      rw [← h, List.append_assoc, List.singleton_append]

/-- No clash is reported twice, for every key has its own target. -/
theorem nodup_filterMap_guessReport? (forest : Forest) :
    (forest.sortedKeys.filterMap forest.guessReport?).Nodup := by
  refine List.Pairwise.filterMap _ ?_ (List.Pairwise.and_mem.mp forest.nodup_sortedKeys)
  rintro key other ⟨hkey, hother, hne⟩ report hreport otherReport hotherReport rfl
  obtain ⟨target, moving, holder, hmoves, _, _, rfl⟩ :=
    (guessReport?_eq_some_iff (mem_sortedKeys_iff.mp hkey).1).mp hreport
  obtain ⟨otherTarget, otherMoving, otherHolder, hotherMoves, _, _, hsame⟩ :=
    (guessReport?_eq_some_iff (mem_sortedKeys_iff.mp hother).1).mp hotherReport
  have htarget : target = otherTarget := (Diagnostic.nameClash.inj hsame).1
  exact hne (hmoves.source_unique (htarget ▸ hotherMoves))

/-- Guessing sections moves every key without a section for which some key offers one, behind the
section of the first key in canonical order that does. It leaves all other keys alone. A key that
moves onto a held one leaves it to its holder unless it is strictly ahead of it, and every such
clash is reported once, and nothing else is. No two keys move to one key. Guessing again changes
nothing, and a search that sees the names that have moved already gives the same forest. -/
theorem guessed_sections_exact (forest : Forest) :
    let guessed := forest.assignSections
    (∀ key donor entity, key ∈ forest.keys.keys → donor ∈ forest.keys.keys →
      (QualifiedName.parse key).head = "" → (QualifiedName.parse donor).head ≠ "" →
      (QualifiedName.parse key).second? = some entity →
      (QualifiedName.parse donor).second? = some entity → ∃ target, forest.MovesTo key target) ∧
    (∀ key target moving, forest.MovesTo key target → forest.keys.get? key = some moving →
      guessed.keys.get? key = none ∧ guessed.keys.get? target =
        some (nextHolder forest.precedenceOf (forest.keys.get? target) moving)) ∧
    (∀ key, (∀ target, ¬ forest.MovesTo key target) → (∀ source, ¬ forest.MovesTo source key) →
      guessed.keys.get? key = forest.keys.get? key) ∧
    (∀ key other target, forest.MovesTo key target → forest.MovesTo other target → key = other) ∧
    (∃ clashes, guessed.diagnostics = forest.diagnostics ++ clashes ∧ clashes.Nodup ∧
      ∀ report, report ∈ clashes ↔ ∃ key target moving holder, forest.MovesTo key target ∧
        forest.keys.get? key = some moving ∧ forest.keys.get? target = some holder ∧
        report = forest.clashReport target holder moving) ∧
    guessed = { forest with keys := guessed.keys, diagnostics := guessed.diagnostics } ∧
    guessed.assignSections = guessed ∧
    assignInPlace [] forest forest.sortedKeys = guessed := by
  intro guessed
  have h : Guessed forest forest.sortedKeys guessed := forest.guessed_assignSections
  refine ⟨fun key donor entity hkey hdonor hhead hne hsecond hsame => ?_,
    fun key target moving hmoves hmoving =>
      h.moved key hmoves.mem_sortedKeys target moving hmoves hmoving,
    fun key hstays hfree => h.kept key (fun _ => hstays) fun source _ => hfree source,
    fun _ _ _ hmoves hother => hmoves.source_unique hother,
    ⟨_, h.reported, forest.nodup_filterMap_guessReport?, fun report => ?_⟩, h.frame,
    assignSections_eq_self forest.not_movesTo_assignSections,
    assignInPlace_eq (fun _ => rfl) forest⟩
  · obtain ⟨first, hfirst⟩ := exists_isDonor hdonor hne hsame
    exact ⟨_, hkey, hhead, entity, first, hsecond, hfirst, rfl⟩
  · rw [List.mem_filterMap]
    constructor
    · rintro ⟨key, hkey, hreport⟩
      exact ⟨key, (guessReport?_eq_some_iff (mem_sortedKeys_iff.mp hkey).1).mp hreport⟩
    · rintro ⟨key, target, moving, holder, hmoves, hclash⟩
      exact ⟨key, hmoves.mem_sortedKeys,
        (guessReport?_eq_some_iff hmoves.keyed).mpr ⟨target, moving, holder, hmoves, hclash⟩⟩

/-- A class in a section, and before it in the sources the same class and a method without one. -/
def classWithoutSection : List Record :=
  [{ id := "Button", kind := .class, «section» := some "UI", file := ⟨"ui"⟩, line := 5 },
    { id := "Button", kind := .class, file := ⟨"button"⟩, line := 1 },
    { id := "Button#press", kind := .method, file := ⟨"button"⟩, line := 2 }]

/-- The class without a section moves onto the one that has it and wins, and its method follows it.
-/
theorem guessed_sections_exact_of_classWithoutSection :
    let forest := ofCollection (Collection.empty.insertAll classWithoutSection)
    let guessed := forest.assignSections
    forest.MovesTo ".Button" "UI.Button" ∧ forest.MovesTo ".Button#press" "UI.Button#press" ∧
      forest.keys.get? "UI.Button" = some 3 ∧ guessed.keys.get? ".Button" = none ∧
      guessed.keys.get? "UI.Button" = some 1 ∧ guessed.keys.get? "UI.Button#press" = some 2 ∧
      forest.clashReport "UI.Button" 3 1 ∈ guessed.diagnostics ∧
      guessed.assignSections = guessed := by
  intro forest guessed
  obtain ⟨hclass, hmethod, hholder, hfree, hclassGuess, hmethodGuess, hbeats⟩ :
      forest.keys.get? ".Button" = some 1 ∧ forest.keys.get? ".Button#press" = some 2 ∧
      forest.keys.get? "UI.Button" = some 3 ∧ forest.keys.get? "UI.Button#press" = none ∧
      guess? forest.keyNames (QualifiedName.parse ".Button") =
        some (QualifiedName.parse "UI.Button") ∧
      guess? forest.keyNames (QualifiedName.parse ".Button#press") =
        some (QualifiedName.parse "UI.Button#press") ∧
      (forest.precedenceOf 1).beats (forest.precedenceOf 3) = true := by
    simp only [forest, keyNames, sortedKeys, sortByIds_eq_insertionSort]
    decide +kernel
  have hclassMoves : forest.MovesTo ".Button" "UI.Button" :=
    (movesTo_iff (KeyMap.mem_keys_of_get? hclass)).mpr
      ⟨_, hclassGuess, QualifiedName.text_parse "UI.Button"⟩
  have hmethodMoves : forest.MovesTo ".Button#press" "UI.Button#press" :=
    (movesTo_iff (KeyMap.mem_keys_of_get? hmethod)).mpr
      ⟨_, hmethodGuess, QualifiedName.text_parse "UI.Button#press"⟩
  obtain ⟨_, hmoved, _, _, ⟨clashes, hreports, _, hclash⟩, _, hagain, _⟩ :=
    guessed_sections_exact forest
  obtain ⟨hgone, hwon⟩ := hmoved _ _ _ hclassMoves hclass
  obtain ⟨_, hfollowed⟩ := hmoved _ _ _ hmethodMoves hmethod
  rw [hholder, nextHolder, if_pos hbeats] at hwon
  rw [hfree, nextHolder] at hfollowed
  refine ⟨hclassMoves, hmethodMoves, hholder, hgone, hwon, hfollowed, ?_, hagain⟩
  have hreported := (hclash _).mpr ⟨_, _, _, _, hclassMoves, hclass, hholder, rfl⟩
  exact hreports ▸ List.mem_append_right _ hreported

end Forest

end SymbolTree
