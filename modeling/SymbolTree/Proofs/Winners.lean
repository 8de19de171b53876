import SymbolTree.Proofs.CanonicalOrder
import SymbolTree.Proofs.Clashes
import SymbolTree.Proofs.Precedence

/-!
# Who keeps a place

Records compete for keys and nodes for keys and ids. The competitors for one place ask for it in
turn, and its holder gives way only to one that is strictly ahead. The place therefore ends with the
first competitor of least precedence, however often it changes hands on the way. In every clash the
kept location does not come after the dropped one.
-/

namespace SymbolTree

open Std

variable {α β : Type} {rank : α → Precedence}

/-- Who holds a place once one more competitor has asked for it. -/
def nextHolder (rank : α → Precedence) : Option α → α → α
  | none, incoming => incoming
  | some holder, incoming => if (rank incoming).beats (rank holder) then incoming else holder

/-- The place goes to the competitor that asks for it or stays with its holder. -/
theorem nextHolder_cases (rank : α → Precedence) (holder : Option α) (incoming : α) :
    nextHolder rank holder incoming = incoming ∨
      holder = some (nextHolder rank holder incoming) := by
  cases holder with
  | none => exact .inl rfl
  | some holder =>
    simp only [nextHolder]
    split
    · exact .inl rfl
    · exact .inr rfl

/-- A winner is the first competitor of least precedence: it is strictly ahead of all that come
before it, and none that comes after it is ahead of it. -/
def FirstLeast (rank : α → Precedence) (competitors : List α) (winner : α) : Prop :=
  ∃ before after, competitors = before ++ winner :: after ∧
    (∀ other ∈ before, (rank winner).beats (rank other) = true) ∧
    ∀ other ∈ after, ((rank winner).compare (rank other)).isLE = true

namespace FirstLeast

variable {competitors : List α} {winner : α}

/-- The winner competes. -/
theorem mem (h : FirstLeast rank competitors winner) : winner ∈ competitors := by
  obtain ⟨before, after, rfl, _, _⟩ := h
  simp

/-- Nobody is ahead of the winner. -/
theorem isLE (h : FirstLeast rank competitors winner) {other : α} (hother : other ∈ competitors) :
    ((rank winner).compare (rank other)).isLE = true := by
  obtain ⟨before, after, rfl, hbefore, hafter⟩ := h
  rcases List.mem_append.mp hother with hother | hother
  · exact Precedence.isLE_of_beats (hbefore other hother)
  · rcases List.mem_cons.mp hother with rfl | hother
    · exact ReflCmp.isLE_rfl
    · exact hafter other hother

/-- There is one winner. -/
theorem unique {other : α} (h : FirstLeast rank competitors winner)
    (hother : FirstLeast rank competitors other) : winner = other := by
  obtain ⟨before, after, rfl, hbefore, hafter⟩ := h
  obtain ⟨earlier, later, hsplit, hearlier, hlater⟩ := hother
  -- Where the two positions differ, the later winner is both ahead of the earlier one and not.
  have hclash {a b : α} (hahead : (rank a).beats (rank b) = true)
      (hnot : ((rank b).compare (rank a)).isLE = true) : False := by
    rw [Precedence.beats, beq_iff_eq] at hahead
    have hswap : (rank b).compare (rank a) = ((rank a).compare (rank b)).swap := OrientedCmp.eq_swap
    rw [hswap, hahead] at hnot
    cases hnot
  rcases List.append_eq_append_iff.mp hsplit with
    ⟨between, hbetween, hrest⟩ | ⟨between, hbetween, hrest⟩
  · cases between with
    | nil => exact (List.cons.inj hrest).1
    | cons first between =>
      obtain ⟨rfl, rfl⟩ := List.cons.inj hrest
      exact (hclash (hearlier winner (by simp [hbetween])) (hafter other (by simp))).elim
  · cases between with
    | nil => exact (List.cons.inj hrest).1.symm
    | cons first between =>
      obtain ⟨rfl, rfl⟩ := List.cons.inj hrest
      exact (hclash (hbefore other (by simp [hbetween])) (hlater winner (by simp))).elim

/-- A competitor that is strictly ahead of the winner wins. -/
theorem concat_of_beats (h : FirstLeast rank competitors winner) {incoming : α}
    (hbeats : (rank incoming).beats (rank winner) = true) :
    FirstLeast rank (competitors ++ [incoming]) incoming := by
  refine ⟨competitors, [], rfl, fun other hother => ?_, by simp⟩
  rw [Precedence.beats, beq_iff_eq] at hbeats ⊢
  exact TransCmp.lt_of_lt_of_isLE hbeats (h.isLE hother)

/-- A competitor that is not strictly ahead of the winner leaves it the place. -/
theorem concat_of_not_beats (h : FirstLeast rank competitors winner) {incoming : α}
    (hbeats : ¬ (rank incoming).beats (rank winner) = true) :
    FirstLeast rank (competitors ++ [incoming]) winner := by
  obtain ⟨before, after, rfl, hbefore, hafter⟩ := h
  refine ⟨before, after ++ [incoming], by simp, hbefore, fun other hother => ?_⟩
  rcases List.mem_append.mp hother with hother | hother
  · exact hafter other hother
  · obtain rfl := List.mem_singleton.mp hother
    exact Precedence.isLE_of_not_beats hbeats

/-- Competitors that are known by an attribute have the winner's attribute as winner. -/
theorem map_iff (view : β → α) {items : List β} :
    FirstLeast rank (items.map view) winner ↔
      ∃ item, view item = winner ∧ FirstLeast (fun item => rank (view item)) items item := by
  constructor
  · rintro ⟨before, after, hsplit, hbefore, hafter⟩
    obtain ⟨first, rest, rfl, rfl, hrest⟩ := List.map_eq_append_iff.mp hsplit
    obtain ⟨item, last, rfl, rfl, rfl⟩ := List.map_eq_cons_iff.mp hrest
    exact ⟨item, rfl, first, last, rfl, fun other hother => hbefore _ (List.mem_map_of_mem hother),
      fun other hother => hafter _ (List.mem_map_of_mem hother)⟩
  · rintro ⟨item, rfl, before, after, rfl, hbefore, hafter⟩
    refine ⟨before.map view, after.map view, by simp, ?_, ?_⟩
    · exact List.forall_mem_map.mpr hbefore
    · exact List.forall_mem_map.mpr hafter

/-- Among competitors in strict canonical order, the winner has the least precedence, and of those
who share it the first id. -/
theorem iff_of_increasing (id : α → String)
    (hsorted : competitors.Pairwise fun a b => compareIds (id a) (id b) = .lt) :
    FirstLeast rank competitors winner ↔
      winner ∈ competitors ∧ ∀ other ∈ competitors,
        (rank winner).beats (rank other) = true ∨
          (rank winner).compare (rank other) = .eq ∧
            (compareIds (id winner) (id other)).isLE = true := by
  constructor
  · intro h
    refine ⟨h.mem, fun other hother => ?_⟩
    obtain ⟨before, after, rfl, hbefore, hafter⟩ := h
    rcases List.mem_append.mp hother with hother | hother
    · exact .inl (hbefore other hother)
    · rcases List.mem_cons.mp hother with rfl | hother
      · exact .inr ⟨ReflCmp.compare_self, ReflCmp.isLE_rfl⟩
      · have hlt := List.rel_of_pairwise_cons (List.pairwise_append.mp hsorted).2.1 hother
        have hle := hafter other hother
        cases hcompare : (rank winner).compare (rank other) with
        | lt => exact .inl (by rw [Precedence.beats, hcompare]; rfl)
        | eq => exact .inr ⟨rfl, by rw [hlt]; rfl⟩
        | gt =>
          rw [hcompare] at hle
          cases hle
  · rintro ⟨hwinner, hleast⟩
    obtain ⟨before, after, rfl⟩ := List.append_of_mem hwinner
    refine ⟨before, after, rfl, fun other hother => ?_, fun other hother => ?_⟩
    · have hlt : compareIds (id other) (id winner) = .lt :=
        (List.pairwise_append.mp hsorted).2.2 other hother winner List.mem_cons_self
      have hgt : compareIds (id winner) (id other) = .gt := OrientedCmp.gt_of_lt hlt
      refine (hleast other (List.mem_append_left _ hother)).resolve_right ?_
      rintro ⟨_, hle⟩
      rw [hgt] at hle
      cases hle
    · rcases hleast other (by simp [hother]) with hbeats | ⟨hequal, _⟩
      · exact Precedence.isLE_of_beats hbeats
      · rw [hequal]
        rfl

end FirstLeast

/-- A place that some competitors asked for in turn: it is free if there were none, and else the
first of least precedence holds it. -/
inductive HeldBy (rank : α → Precedence) : List α → Option α → Prop where
  /-- Nobody asked for the place. -/
  | free : HeldBy rank [] none
  /-- The winner holds the place. -/
  | held {competitors : List α} {winner : α} (hwinner : FirstLeast rank competitors winner) :
      HeldBy rank competitors (some winner)

namespace HeldBy

variable {competitors : List α} {holder : Option α}

/-- One more competitor asks for the place. -/
theorem next (h : HeldBy rank competitors holder) (incoming : α) :
    HeldBy rank (competitors ++ [incoming]) (some (nextHolder rank holder incoming)) := by
  cases h with
  | free => exact .held ⟨[], [], rfl, by simp, by simp⟩
  | held hwinner =>
    refine .held ?_
    unfold nextHolder
    simp only
    split
    · rename_i hbeats
      exact hwinner.concat_of_beats hbeats
    · rename_i hbeats
      exact hwinner.concat_of_not_beats hbeats

/-- The holder is the winner. -/
theorem eq_some_iff (h : HeldBy rank competitors holder) {winner : α} :
    holder = some winner ↔ FirstLeast rank competitors winner := by
  cases h with
  | free => simp [FirstLeast]
  | held hwinner =>
    constructor
    · rintro ⟨⟩
      exact hwinner
    · intro hother
      rw [hwinner.unique hother]

/-- A place is free when nobody asked for it. -/
theorem eq_none_iff (h : HeldBy rank competitors holder) : holder = none ↔ competitors = [] := by
  cases h with
  | free => exact iff_of_true rfl rfl
  | held hwinner => exact iff_of_false (by simp) (List.ne_nil_of_mem hwinner.mem)

/-- A place is held when somebody asked for it. -/
theorem isSome_iff (h : HeldBy rank competitors holder) :
    holder.isSome = true ↔ ∃ competitor, competitor ∈ competitors := by
  cases h with
  | free => simp
  | held hwinner => exact iff_of_true rfl ⟨_, hwinner.mem⟩

end HeldBy

/-- Precedences that do not come later have locations that do not. -/
theorem Precedence.location_isLE {a b : Precedence} (h : (a.compare b).isLE = true) :
    (a.location.compare b.location).isLE = true := by
  unfold Precedence.compare at h
  cases hlocation : a.location.compare b.location with
  | lt => rfl
  | eq => rfl
  | gt =>
    rw [hlocation] at h
    cases h

namespace Diagnostic

/-- A clash whose kept location does not come after the dropped one. -/
def KeepsEarlier : Diagnostic → Prop
  | .nameClash _ kept dropped => (kept.compare dropped).isLE = true
  | _ => False

/-- Whether a diagnostic reports a clash on an id. -/
def isClashOn (id : String) : Diagnostic → Bool
  | .nameClash other _ _ => other == id
  | _ => false

/-- Clashes that keep earlier locations are clashes. -/
theorem KeepsEarlier.isNameClash {diagnostic : Diagnostic} (h : diagnostic.KeepsEarlier) :
    diagnostic.isNameClash = true := by
  cases diagnostic with
  | nameClash => rfl
  | missingAncestor => exact h.elim
  | cycle => exact h.elim

end Diagnostic

namespace Forest

/-- The precedence of the node at a position. -/
def precedenceOf (forest : Forest) (id : NodeId) : Precedence := (forest.node id).precedence

/-- The report about a clash keeps the earlier location. -/
theorem keepsEarlier_clashReport (forest : Forest) (id : String) (holder incoming : NodeId) :
    (forest.clashReport id holder incoming).KeepsEarlier := by
  have hordered : ((forest.node (forest.clashWinner holder incoming)).precedence.compare
      (forest.node (forest.clashLoser holder incoming)).precedence).isLE = true := by
    unfold clashWinner clashLoser
    split
    · rename_i hbeats
      exact Precedence.isLE_of_beats hbeats
    · rename_i hbeats
      exact Precedence.isLE_of_not_beats hbeats
  have hlocations := Precedence.location_isLE hordered
  rwa [clashReport, Diagnostic.KeepsEarlier]

end Forest

end SymbolTree
