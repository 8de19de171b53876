import SymbolTree.Proofs.Columns.Stages
import SymbolTree.Proofs.KeyMap

/-!
# Settling clashes

When two nodes compete for one key or id, one of them keeps it and the location of the other one is
reported as dropped. The list of all dropped locations is the account of the clashes: its length is
their number, and a node that loses appears in it.
-/

namespace SymbolTree

namespace Diagnostic

/-- Whether a diagnostic reports a clash. -/
def isNameClash : Diagnostic → Bool
  | .nameClash .. => true
  | _ => false

/-- The location that a clash drops. -/
def dropped? : Diagnostic → Option SourceLocation
  | .nameClash _ _ dropped => some dropped
  | _ => none

end Diagnostic

/-- The locations that clashes drop, in the order of the reports. -/
def droppedLocations (diagnostics : List Diagnostic) : List SourceLocation :=
  diagnostics.filterMap (·.dropped?)

/-- Later reports come after earlier ones. -/
@[simp] theorem droppedLocations_append (a b : List Diagnostic) :
    droppedLocations (a ++ b) = droppedLocations a ++ droppedLocations b :=
  List.filterMap_append

/-- A clash drops one location. -/
@[simp] theorem droppedLocations_nameClash (id : String) (kept dropped : SourceLocation) :
    droppedLocations [.nameClash id kept dropped] = [dropped] := rfl

/-- There are as many clashes as dropped locations. -/
theorem countP_isNameClash (diagnostics : List Diagnostic) :
    diagnostics.countP (·.isNameClash) = (droppedLocations diagnostics).length := by
  induction diagnostics with
  | nil => rfl
  | cons diagnostic rest ih =>
    cases diagnostic <;> simp_all [droppedLocations, Diagnostic.isNameClash, Diagnostic.dropped?]

/-- A location is dropped when some clash says so. -/
theorem mem_droppedLocations {diagnostics : List Diagnostic} {location : SourceLocation} :
    location ∈ droppedLocations diagnostics ↔
      ∃ id kept, Diagnostic.nameClash id kept location ∈ diagnostics := by
  simp only [droppedLocations, List.mem_filterMap]
  constructor
  · rintro ⟨diagnostic, hmem, hdropped⟩
    cases diagnostic with
    | nameClash id kept dropped =>
      obtain rfl := Option.some.inj hdropped
      exact ⟨id, kept, hmem⟩
    | missingAncestor => cases hdropped
    | cycle => cases hdropped
  · rintro ⟨id, kept, hmem⟩
    exact ⟨_, hmem, rfl⟩

namespace Forest

/-- The node that keeps an id. -/
def clashWinner (forest : Forest) (holder incoming : NodeId) : NodeId :=
  if (forest.node incoming).precedence.beats (forest.node holder).precedence then incoming
  else holder

/-- The node that gives way. -/
def clashLoser (forest : Forest) (holder incoming : NodeId) : NodeId :=
  if (forest.node incoming).precedence.beats (forest.node holder).precedence then holder
  else incoming

/-- One of the two nodes wins and the other one loses. -/
theorem clash_cases (forest : Forest) (holder incoming : NodeId) :
    (forest.clashWinner holder incoming = incoming ∧ forest.clashLoser holder incoming = holder) ∨
      (forest.clashWinner holder incoming = holder ∧
        forest.clashLoser holder incoming = incoming) := by
  unfold clashWinner clashLoser
  split
  · exact .inl ⟨rfl, rfl⟩
  · exact .inr ⟨rfl, rfl⟩

/-- Winner and loser are the two competitors. -/
theorem clash_perm (forest : Forest) (holder incoming : NodeId) :
    [forest.clashWinner holder incoming, forest.clashLoser holder incoming].Perm
      [incoming, holder] := by
  rcases forest.clash_cases holder incoming with ⟨hwinner, hloser⟩ | ⟨hwinner, hloser⟩
  · rw [hwinner, hloser]
  · rw [hwinner, hloser]
    exact List.Perm.swap _ _ _

/-- The report about a clash. -/
def clashReport (forest : Forest) (id : String) (holder incoming : NodeId) : Diagnostic :=
  .nameClash id (forest.node (forest.clashWinner holder incoming)).location
    (forest.node (forest.clashLoser holder incoming)).location

/-- Settling a clash yields the winner and reports it with the loser. -/
theorem settleClash_eq (forest : Forest) (id : String) (holder incoming : NodeId) :
    forest.settleClash id holder incoming =
      (forest.clashWinner holder incoming,
        forest.report (forest.clashReport id holder incoming)) := by
  unfold settleClash clashReport clashWinner clashLoser
  simp only
  split <;> rfl

/-- A clash drops the loser's location. -/
theorem droppedLocations_clashReport (forest : Forest) (id : String) (holder incoming : NodeId) :
    droppedLocations [forest.clashReport id holder incoming] =
      [(forest.node (forest.clashLoser holder incoming)).location] := rfl

/-- A free id goes to the node that asks for it. -/
theorem enter_of_free {forest : Forest} {id : String} (hfree : forest.lookup.get? id = none)
    (incoming : NodeId) :
    forest.enter id incoming = { forest with lookup := forest.lookup.insert id incoming } := by
  unfold enter
  rw [hfree]

/-- An id that is held goes to the winner of a clash. -/
theorem enter_of_held {forest : Forest} {id : String} {holder : NodeId}
    (hheld : forest.lookup.get? id = some holder) (incoming : NodeId) :
    forest.enter id incoming =
      { forest with
        lookup := forest.lookup.insert id (forest.clashWinner holder incoming)
        diagnostics := forest.diagnostics ++ [forest.clashReport id holder incoming] } := by
  unfold enter
  rw [hheld]
  simp only [settleClash_eq, report]

/-- Entering an id adds one entry or reports one clash. -/
theorem size_lookup_enter (forest : Forest) (id : String) (incoming : NodeId) :
    (forest.enter id incoming).lookup.size
        + (droppedLocations (forest.enter id incoming).diagnostics).length =
      forest.lookup.size + (droppedLocations forest.diagnostics).length + 1 := by
  cases hheld : forest.lookup.get? id with
  | none =>
    rw [enter_of_free hheld]
    have hsize := KeyMap.size_insert_of_get?_eq_none incoming hheld
    simp only
    omega
  | some holder =>
    rw [enter_of_held hheld]
    have hsize := KeyMap.size_insert_of_get? (forest.clashWinner holder incoming) hheld
    simp only [droppedLocations_append, List.length_append, droppedLocations_clashReport,
      List.length_singleton]
    omega

/-- Only the entered id can change hands. -/
theorem get?_lookup_enter_of_ne (forest : Forest) {id other : String} (hne : other ≠ id)
    (incoming : NodeId) :
    (forest.enter id incoming).lookup.get? other = forest.lookup.get? other := by
  cases hheld : forest.lookup.get? id with
  | none => rw [enter_of_free hheld, KeyMap.get?_insert, if_neg hne]
  | some holder => rw [enter_of_held hheld, KeyMap.get?_insert, if_neg hne]

/-- Entering an id only adds reports. -/
theorem mem_droppedLocations_enter {forest : Forest} {location : SourceLocation}
    (hdropped : location ∈ droppedLocations forest.diagnostics) (id : String) (incoming : NodeId) :
    location ∈ droppedLocations (forest.enter id incoming).diagnostics := by
  cases hheld : forest.lookup.get? id with
  | none =>
    rw [enter_of_free hheld]
    exact hdropped
  | some holder =>
    rw [enter_of_held hheld, droppedLocations_append]
    exact List.mem_append_left _ hdropped

/-- Whoever holds or asks for an id has it afterwards or is dropped. -/
theorem holds_or_dropped_enter (forest : Forest) (id : String) (incoming : NodeId)
    {competitor : NodeId}
    (hcompetes : competitor = incoming ∨ forest.lookup.get? id = some competitor) :
    (forest.enter id incoming).lookup.get? id = some competitor ∨
      (forest.node competitor).location ∈
        droppedLocations (forest.enter id incoming).diagnostics := by
  cases hheld : forest.lookup.get? id with
  | none =>
    have heq : competitor = incoming := by simpa [hheld] using hcompetes
    rw [enter_of_free hheld, KeyMap.get?_insert, if_pos rfl, heq]
    exact .inl rfl
  | some holder =>
    have hor : competitor = incoming ∨ competitor = holder := by
      simpa [hheld, eq_comm] using hcompetes
    rw [enter_of_held hheld, KeyMap.get?_insert, if_pos rfl, droppedLocations_append,
      droppedLocations_clashReport]
    have hmem : competitor ∈
        [forest.clashWinner holder incoming, forest.clashLoser holder incoming] :=
      (forest.clash_perm holder incoming).mem_iff.mpr (by simpa using hor)
    rcases List.mem_pair.mp hmem with hwinner | hloser
    · exact .inl (congrArg some hwinner.symm)
    · exact .inr (List.mem_append_right _ (by simp [hloser]))

end Forest

end SymbolTree
