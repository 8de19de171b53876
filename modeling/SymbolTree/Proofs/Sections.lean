import SymbolTree.Proofs.Winners

/-!
# Who keeps a key when sections are guessed

Guessing moves keys one after another. A node whose key moves onto a held one competes with its
holder, and the loser is left without a key. The keyed nodes after all moves, together with the
losers, are the keyed nodes before, once each; every loser is reported as dropped; and the root
section, whose key is empty, takes no part.
-/

namespace SymbolTree.Forest

/-- The node that is left without a key when one key moves to another. -/
def rekeyLoser? (forest : Forest) (oldKey newKey : String) : Option NodeId :=
  match forest.keys.get? oldKey, (forest.keys.erase oldKey).get? newKey with
  | some moving, some holder => some (forest.clashLoser holder moving)
  | _, _ => none

/-- The node that is left without a key when the section of one key is guessed. -/
def sectionLoser? (names : List QualifiedName) (forest : Forest) (key : String) : Option NodeId :=
  (guess? names (QualifiedName.parse key)).bind fun name => forest.rekeyLoser? key name.text

/-- The nodes that lose a clash while the sections of some keys are guessed in turn. -/
def sectionLosersAmong (names : List QualifiedName) : Forest → List String → List NodeId
  | _, [] => []
  | forest, key :: keys =>
    (sectionLoser? names forest key).toList
      ++ sectionLosersAmong names (assignSection names forest key) keys

/-- The nodes that lose a clash while sections are guessed. -/
def sectionLosers (forest : Forest) : List NodeId :=
  sectionLosersAmong (forest.sortedKeys.map QualifiedName.parse) forest forest.sortedKeys

variable {forest : Forest}

/-- A key that is not bound does not move. -/
theorem rekey_of_absent {oldKey newKey : String} (habsent : forest.keys.get? oldKey = none) :
    forest.rekey oldKey newKey = forest := by
  unfold rekey
  rw [habsent]

/-- A key moves to a free one with its node. -/
theorem rekey_of_free {oldKey newKey : String} {moving : NodeId}
    (hmoving : forest.keys.get? oldKey = some moving)
    (hfree : (forest.keys.erase oldKey).get? newKey = none) :
    forest.rekey oldKey newKey =
      { forest with keys := (forest.keys.erase oldKey).insert newKey moving } := by
  unfold rekey
  rw [hmoving]
  simp only [hfree]

/-- A key that moves onto a held one leaves it to the winner of a clash. -/
theorem rekey_of_held {oldKey newKey : String} {moving holder : NodeId}
    (hmoving : forest.keys.get? oldKey = some moving)
    (hheld : (forest.keys.erase oldKey).get? newKey = some holder) :
    forest.rekey oldKey newKey =
      { forest with
        keys := (forest.keys.erase oldKey).insert newKey (forest.clashWinner holder moving)
        diagnostics := forest.diagnostics ++ [forest.clashReport newKey holder moving] } := by
  unfold rekey
  rw [hmoving]
  simp only [hheld, settleClash_eq]
  rfl

/-- Moving a key leaves every node keyed but the loser. -/
theorem values_rekey_perm (forest : Forest) (oldKey newKey : String) :
    ((forest.rekey oldKey newKey).keys.values
      ++ (forest.rekeyLoser? oldKey newKey).toList).Perm forest.keys.values := by
  unfold rekeyLoser?
  cases hmoving : forest.keys.get? oldKey with
  | none =>
    rw [rekey_of_absent hmoving]
    simp
  | some moving =>
    have hold := KeyMap.values_perm_of_get? hmoving
    cases hheld : (forest.keys.erase oldKey).get? newKey with
    | none =>
      rw [rekey_of_free hmoving hheld]
      have hnew := (forest.keys.erase oldKey).values_insert_perm newKey moving
      rw [KeyMap.erase_eq_self hheld] at hnew
      simpa using hnew.trans hold.symm
    | some holder =>
      rw [rekey_of_held hmoving hheld]
      let remaining := ((forest.keys.erase oldKey).erase newKey).values
      have hnew := (forest.keys.erase oldKey).values_insert_perm newKey
        (forest.clashWinner holder moving)
      have hpair : (forest.clashWinner holder moving :: forest.clashLoser holder moving ::
          remaining).Perm (moving :: holder :: remaining) :=
        (forest.clash_perm holder moving).append_right remaining
      have hheldPerm := (KeyMap.values_perm_of_get? hheld).cons moving
      have hlast : (((forest.keys.erase oldKey).insert newKey
          (forest.clashWinner holder moving)).values ++ [forest.clashLoser holder moving]).Perm
            (forest.clashWinner holder moving :: forest.clashLoser holder moving :: remaining) :=
        (hnew.append_right _).trans
          ((List.perm_append_singleton _ remaining).cons (forest.clashWinner holder moving))
      exact hlast.trans (hpair.trans (hheldPerm.symm.trans hold.symm))

/-- Moving a key reports the loser, and nothing else. -/
theorem droppedLocations_rekey (forest : Forest) (oldKey newKey : String) :
    droppedLocations (forest.rekey oldKey newKey).diagnostics =
      droppedLocations forest.diagnostics ++
        (forest.rekeyLoser? oldKey newKey).toList.map fun id => (forest.node id).location := by
  unfold rekeyLoser?
  cases hmoving : forest.keys.get? oldKey with
  | none =>
    rw [rekey_of_absent hmoving]
    simp
  | some moving =>
    cases hheld : (forest.keys.erase oldKey).get? newKey with
    | none =>
      rw [rekey_of_free hmoving hheld]
      simp
    | some holder =>
      rw [rekey_of_held hmoving hheld, droppedLocations_append, droppedLocations_clashReport]
      rfl

/-- Moving a key settles who holds the key that it moves to. -/
theorem get?_keys_rekey {oldKey newKey : String} {moving : NodeId}
    (hmoving : forest.keys.get? oldKey = some moving) (key : String) :
    (forest.rekey oldKey newKey).keys.get? key =
      if key = newKey then
        some (nextHolder forest.precedenceOf ((forest.keys.erase oldKey).get? newKey) moving)
      else if key = oldKey then none else forest.keys.get? key := by
  cases hheld : (forest.keys.erase oldKey).get? newKey with
  | none =>
    rw [rekey_of_free hmoving hheld, KeyMap.get?_insert, KeyMap.get?_erase]
    rfl
  | some holder =>
    rw [rekey_of_held hmoving hheld, KeyMap.get?_insert, KeyMap.get?_erase]
    rfl

/-- A key other than the two that a move concerns keeps its node. -/
theorem get?_keys_rekey_of_ne {oldKey newKey key : String} (hold : key ≠ oldKey)
    (hnew : key ≠ newKey) :
    (forest.rekey oldKey newKey).keys.get? key = forest.keys.get? key := by
  cases hmoving : forest.keys.get? oldKey with
  | none => rw [rekey_of_absent hmoving]
  | some moving => rw [get?_keys_rekey hmoving, if_neg hnew, if_neg hold]

/-- Moving a key changes nothing but the keys and the reports. -/
theorem rekey_frame (forest : Forest) (oldKey newKey : String) :
    forest.rekey oldKey newKey =
      { forest with
        keys := (forest.rekey oldKey newKey).keys
        diagnostics := (forest.rekey oldKey newKey).diagnostics } := by
  cases hmoving : forest.keys.get? oldKey with
  | none => rw [rekey_of_absent hmoving]
  | some moving =>
    cases hheld : (forest.keys.erase oldKey).get? newKey with
    | none => rw [rekey_of_free hmoving hheld]
    | some holder => rw [rekey_of_held hmoving hheld]

/-- Moving a key enters no id. -/
theorem lookup_rekey (forest : Forest) (oldKey newKey : String) :
    (forest.rekey oldKey newKey).lookup = forest.lookup := by
  rw [rekey_frame]

/-- A section that is found for a second segment is a section. -/
theorem ne_empty_of_donor? {names : List QualifiedName} {entity sectionName : String}
    (h : donor? names entity = some sectionName) : sectionName ≠ "" := by
  obtain ⟨donor, hfound, rfl⟩ := Option.map_eq_some_iff.mp h
  have hoffers := List.find?_some hfound
  exact (decide_eq_true_eq.mp hoffers).1

/-- A name is guessed when it has no section and one is found for its second segment. -/
theorem guess?_eq_some_iff {names : List QualifiedName} {name guessed : QualifiedName} :
    guess? names name = some guessed ↔
      name.head = "" ∧ ∃ entity sectionName, name.second? = some entity ∧
        donor? names entity = some sectionName ∧ guessed = name.withHead sectionName := by
  unfold guess?
  split
  · rename_i hhead
    simp only [hhead, true_and, Option.map_eq_some_iff, Option.bind_eq_some_iff]
    constructor
    · rintro ⟨sectionName, ⟨entity, hsecond, hdonor⟩, rfl⟩
      exact ⟨entity, sectionName, hsecond, hdonor, rfl⟩
    · rintro ⟨entity, sectionName, hsecond, hdonor, rfl⟩
      exact ⟨sectionName, ⟨entity, hsecond, hdonor⟩, rfl⟩
  · rename_i hhead
    exact iff_of_false (by simp) fun h => hhead h.1

/-- A guess names a section, so it is never the root's key. -/
theorem text_ne_empty_of_guess? {names : List QualifiedName} {name guessed : QualifiedName}
    (hguess : guess? names name = some guessed) : guessed.text ≠ "" := by
  obtain ⟨_, entity, sectionName, _, hdonor, rfl⟩ := guess?_eq_some_iff.mp hguess
  intro htext
  have hchars : (name.withHead sectionName).chars = [] := by
    simpa [QualifiedName.text] using congrArg String.toList htext
  have hhead := (List.append_eq_nil_iff.mp hchars).1
  exact ne_empty_of_donor? hdonor (String.toList_eq_nil_iff.mp hhead)

/-- Guessing one section leaves every node keyed but the loser. -/
theorem values_assignSection_perm (names : List QualifiedName) (forest : Forest) (key : String) :
    ((assignSection names forest key).keys.values
      ++ (sectionLoser? names forest key).toList).Perm forest.keys.values := by
  unfold assignSection sectionLoser?
  cases guess? names (QualifiedName.parse key) with
  | none => simp
  | some name => exact values_rekey_perm forest key name.text

/-- Guessing one section reports the loser, and nothing else. -/
theorem droppedLocations_assignSection (names : List QualifiedName) (forest : Forest)
    (key : String) :
    droppedLocations (assignSection names forest key).diagnostics =
      droppedLocations forest.diagnostics ++
        (sectionLoser? names forest key).toList.map fun id => (forest.node id).location := by
  unfold assignSection sectionLoser?
  cases guess? names (QualifiedName.parse key) with
  | none => simp
  | some name => exact droppedLocations_rekey forest key name.text

/-- Guessing the section of a named key leaves the root alone. -/
theorem get?_keys_assignSection_root (names : List QualifiedName) (forest : Forest) {key : String}
    (hkey : key ≠ "") :
    (assignSection names forest key).keys.get? "" = forest.keys.get? "" := by
  unfold assignSection
  split
  · rfl
  · rename_i hguess
    exact get?_keys_rekey_of_ne hkey.symm (text_ne_empty_of_guess? hguess).symm

private theorem values_foldl_assignSection_perm (names : List QualifiedName) (forest : Forest)
    (keys : List String) :
    ((keys.foldl (assignSection names) forest).keys.values
      ++ sectionLosersAmong names forest keys).Perm forest.keys.values := by
  induction keys generalizing forest with
  | nil => simp [sectionLosersAmong]
  | cons key keys ih =>
    have hstep := values_assignSection_perm names forest key
    have hrest := ih (assignSection names forest key)
    rw [List.foldl_cons, sectionLosersAmong]
    refine List.Perm.trans ?_ ((hrest.append_right _).trans hstep)
    rw [List.append_assoc]
    exact List.perm_append_comm.append_left _

private theorem droppedLocations_foldl_assignSection (names : List QualifiedName) (forest : Forest)
    (keys : List String) :
    droppedLocations (keys.foldl (assignSection names) forest).diagnostics =
      droppedLocations forest.diagnostics ++
        (sectionLosersAmong names forest keys).map fun id => (forest.node id).location := by
  induction keys generalizing forest with
  | nil => simp [sectionLosersAmong]
  | cons key keys ih =>
    have hnode (id : NodeId) : (assignSection names forest key).node id = forest.node id :=
      node_eq_of_nodes_eq (nodes_assignSection names forest key) id
    rw [List.foldl_cons, ih, droppedLocations_assignSection, sectionLosersAmong,
      List.map_append, List.append_assoc]
    simp only [hnode]

/-- The keyed nodes after guessing and the losers are the keyed nodes before. -/
theorem values_assignSections_perm (forest : Forest) :
    (forest.assignSections.keys.values ++ forest.sectionLosers).Perm forest.keys.values :=
  values_foldl_assignSection_perm _ forest forest.sortedKeys

/-- Guessing sections reports every loser, and nothing else. -/
theorem droppedLocations_assignSections (forest : Forest) :
    droppedLocations forest.assignSections.diagnostics =
      droppedLocations forest.diagnostics ++
        forest.sectionLosers.map fun id => (forest.node id).location :=
  droppedLocations_foldl_assignSection _ forest forest.sortedKeys

/-- Guessing sections enters no id. -/
theorem lookup_assignSections (forest : Forest) : forest.assignSections.lookup = forest.lookup := by
  refine foldl_keeps lookup (fun forest key _ => ?_) forest
  unfold assignSection
  split
  · rfl
  · exact lookup_rekey forest key _

/-- Guessing sections leaves the root alone. -/
theorem get?_keys_assignSections_root (forest : Forest) :
    forest.assignSections.keys.get? "" = forest.keys.get? "" := by
  refine foldl_keeps (·.keys.get? "") (fun forest key hkey => ?_) forest
  have hne : key ≠ "" := by
    have hfiltered := (List.mergeSort_perm _ _).mem_iff.mp hkey
    simpa using (List.mem_filter.mp hfiltered).2
  exact get?_keys_assignSection_root _ forest hne

end SymbolTree.Forest
