import SymbolTree.Proofs.Ownership
import Mathlib.Data.List.Perm.Basic

/-!
# Moving owned edges

Three moves account for all that happens to owned edges once nodes are nested: the links of a list
are reordered, a child is detached from its owner and put at the top, and chosen children of the
nodes in a list are lifted into that list. Each of them keeps a forest with its members and rank.
-/

namespace SymbolTree.Ownership

open scoped List

/-- Some nodes, followed by all others. -/
theorem range_perm {size : Nat} {ids : List NodeId} (hnodup : ids.Nodup)
    (hlt : ∀ id ∈ ids, id < size) :
    List.range size ~ ids ++ (List.range size).filter (· ∉ ids) := by
  refine (List.perm_ext_iff_of_nodup List.nodup_range ?_).mpr fun id => ?_
  · refine List.nodup_append.mpr ⟨hnodup, List.nodup_range.filter _, ?_⟩
    rintro a ha b hb rfl
    simp [ha] at hb
  · simp only [List.mem_range, List.mem_append, List.mem_filter, decide_eq_true_eq]
    have := hlt id
    tauto

/-- The links below the top are those of the owners. -/
theorem below_perm (ownership : Ownership) {ids : List NodeId} (hnodup : ids.Nodup)
    (hlt : ∀ id ∈ ids, id < ownership.size) (hnil : ∀ id ∉ ids, ownership.owned id = []) :
    ownership.below ~ ids.flatMap ownership.owned := by
  refine ((range_perm hnodup hlt).flatMap_right _).trans ?_
  have hothers : ((List.range ownership.size).filter (· ∉ ids)).flatMap ownership.owned = [] := by
    refine List.flatMap_eq_nil_iff.mpr fun id hid => hnil id ?_
    simpa using (List.mem_filter.mp hid).2
  rw [List.flatMap_append, hothers, List.append_nil]

/-- The children of one node, apart from those of all others. -/
theorem flatMap_range_perm {size id : Nat} (hid : id < size) (owned : NodeId → List NodeId) :
    (List.range size).flatMap owned ~
      owned id ++ ((List.range size).erase id).flatMap owned :=
  (List.perm_cons_erase (List.mem_range.mpr hid)).flatMap_right owned

private theorem flatMap_erase_update {size : Nat} (id : NodeId) (owned : NodeId → List NodeId)
    (children : List NodeId) :
    ((List.range size).erase id).flatMap (Function.update owned id children) =
      ((List.range size).erase id).flatMap owned := by
  refine List.flatMap_congr fun other hother => ?_
  have hne : other ≠ id := (List.nodup_range.mem_erase_iff.mp hother).1
  exact Function.update_of_ne hne children owned

/-- Detach a child from its owner and put it at the end of the top. -/
def detach (ownership : Ownership) (parent child : NodeId) : Ownership :=
  { ownership with
    top := ownership.top ++ [child]
    owned := Function.update ownership.owned parent
      ((ownership.owned parent).filter (· != child)) }

/-- The nodes of a list, each followed by those of its children that `moves` chooses. -/
def lifted (ownership : Ownership) (moves : NodeId → NodeId → Bool) (ids : List NodeId) :
    List NodeId :=
  ids.flatMap fun id => id :: (ownership.owned id).filter (moves id)

/-- What every node owns after the chosen children of the nodes in a list have left. -/
def remaining (ownership : Ownership) (moves : NodeId → NodeId → Bool) (ids : List NodeId)
    (id : NodeId) : List NodeId :=
  if id ∈ ids then (ownership.owned id).filter (!moves id ·) else ownership.owned id

/-- Lift the chosen children of the nodes at the top. -/
def liftTop (ownership : Ownership) (moves : NodeId → NodeId → Bool) : Ownership :=
  { ownership with
    top := ownership.lifted moves ownership.top
    owned := ownership.remaining moves ownership.top }

/-- Lift the chosen grandchildren of one node. -/
def liftWithin (ownership : Ownership) (moves : NodeId → NodeId → Bool) (id : NodeId) : Ownership :=
  let children := ownership.owned id
  { ownership with
    owned := Function.update (ownership.remaining moves children) id
      (ownership.lifted moves children) }

/-- Lifting moves links from owners to the list that holds them, and drops none. -/
theorem lifted_append_perm (ownership : Ownership) (moves : NodeId → NodeId → Bool)
    {ids : List NodeId} (hnodup : ids.Nodup) (hlt : ∀ id ∈ ids, id < ownership.size) :
    (ownership.lifted moves ids
        ++ (List.range ownership.size).flatMap (ownership.remaining moves ids)).Perm
      (ids ++ ownership.below) := by
  let others := (List.range ownership.size).filter (· ∉ ids)
  have hrange : (List.range ownership.size).Perm (ids ++ others) := range_perm hnodup hlt
  have hothers : others.flatMap (ownership.remaining moves ids) =
      others.flatMap ownership.owned := by
    refine List.flatMap_congr fun id hid => ?_
    have hfresh : id ∉ ids := by simpa using (List.mem_filter.mp hid).2
    exact if_neg hfresh
  have hids : ids.flatMap (ownership.remaining moves ids) =
      ids.flatMap fun id => (ownership.owned id).filter (!moves id ·) :=
    List.flatMap_congr fun id hid => if_pos hid
  have hlifted : (ownership.lifted moves ids).Perm
      (ids ++ ids.flatMap fun id => (ownership.owned id).filter (moves id)) := by
    have h := List.map_append_flatMap_perm ids id fun id => (ownership.owned id).filter (moves id)
    rw [List.map_id] at h
    exact h.symm
  have hsplit : ((ids.flatMap fun id => (ownership.owned id).filter (moves id)) ++
      ids.flatMap fun id => (ownership.owned id).filter (!moves id ·)).Perm
        (ids.flatMap ownership.owned) := by
    refine (List.flatMap_append_perm _ _ _).trans (List.Perm.flatMap_left _ fun id _ => ?_)
    exact List.filter_append_perm _ _
  calc ownership.lifted moves ids
        ++ (List.range ownership.size).flatMap (ownership.remaining moves ids)
      _ ~ (ids ++ ids.flatMap fun id => (ownership.owned id).filter (moves id)) ++
          (ids ++ others).flatMap (ownership.remaining moves ids) :=
        hlifted.append (hrange.flatMap_right _)
      _ ~ ids ++ (((ids.flatMap fun id => (ownership.owned id).filter (moves id)) ++
            ids.flatMap fun id => (ownership.owned id).filter (!moves id ·)) ++
          others.flatMap ownership.owned) := by
        rw [List.flatMap_append, hids, hothers]
        simp only [List.append_assoc, List.Perm.refl]
      _ ~ ids ++ (ids.flatMap ownership.owned ++ others.flatMap ownership.owned) :=
        (hsplit.append_right _).append_left _
      _ ~ ids ++ ownership.below := by
        rw [← List.flatMap_append]
        exact (hrange.symm.flatMap_right _).append_left _

namespace IsForest

variable {ownership : Ownership} {members : List NodeId} {rank : NodeId → Nat}

/-- Reordering links keeps a forest. -/
theorem of_perm (h : ownership.IsForest members rank) {other : Ownership}
    (hsize : other.size = ownership.size) (htop : other.top.Perm ownership.top)
    (howned : ∀ id, (other.owned id).Perm (ownership.owned id)) :
    other.IsForest members rank where
  nodup := h.nodup
  links_perm := by
    refine (htop.append ?_).trans h.links_perm
    rw [below, below, hsize]
    exact List.Perm.flatMap_left _ fun id _ => howned id
  owner_mem howns := h.owner_mem ((howned _).mem_iff.mp howns)
  rank_lt howns := h.rank_lt ((howned _).mem_iff.mp howns)
  lt_size hid := hsize ▸ h.lt_size hid

/-- Detaching a child keeps a forest. -/
theorem detach (h : ownership.IsForest members rank) {parent child : NodeId}
    (howns : ownership.Owns parent child) :
    (ownership.detach parent child).IsForest members rank := by
  have hsub : ∀ {a b}, (ownership.detach parent child).Owns a b → ownership.Owns a b := by
    intro a b hab
    by_cases ha : a = parent
    · subst ha
      simp only [Owns, Ownership.detach, Function.update_self] at hab
      exact (List.mem_filter.mp hab).1
    · simpa only [Owns, Ownership.detach, Function.update_of_ne ha] using hab
  refine ⟨h.nodup, ?_, fun hab => h.owner_mem (hsub hab), fun hab => h.rank_lt (hsub hab),
    fun hid => h.lt_size hid⟩
  have hparent := h.lt_size (h.owner_mem howns)
  have herase : (ownership.owned parent).filter (· != child) =
      (ownership.owned parent).erase child := ((h.nodup_owned parent).erase_eq_filter child).symm
  have hbelow : (ownership.detach parent child).below.Perm
      ((ownership.owned parent).erase child ++
        ((List.range ownership.size).erase parent).flatMap ownership.owned) := by
    refine (flatMap_range_perm hparent _).trans ?_
    simp only [Ownership.detach, Function.update_self, herase, flatMap_erase_update,
      List.Perm.refl]
  calc (ownership.detach parent child).links
      _ ~ (ownership.top ++ [child]) ++ ((ownership.owned parent).erase child ++
          ((List.range ownership.size).erase parent).flatMap ownership.owned) :=
        hbelow.append_left _
      _ ~ ownership.top ++ ((child :: (ownership.owned parent).erase child) ++
          ((List.range ownership.size).erase parent).flatMap ownership.owned) := by
        simp only [List.append_assoc, List.cons_append, List.nil_append, List.Perm.refl]
      _ ~ ownership.top ++ (ownership.owned parent ++
          ((List.range ownership.size).erase parent).flatMap ownership.owned) :=
        ((List.perm_cons_erase howns).symm.append_right _).append_left _
      _ ~ ownership.links := (flatMap_range_perm hparent _).symm.append_left _
      _ ~ members := h.links_perm

private theorem owns_of_mem_remaining {moves : NodeId → NodeId → Bool} {ids : List NodeId}
    {a b : NodeId} (hab : b ∈ ownership.remaining moves ids a) : ownership.Owns a b := by
  rw [remaining] at hab
  split at hab
  · exact (List.mem_filter.mp hab).1
  · exact hab

/-- Lifting children into the top keeps a forest. -/
theorem liftTop (h : ownership.IsForest members rank) (moves : NodeId → NodeId → Bool) :
    (ownership.liftTop moves).IsForest members rank where
  nodup := h.nodup
  links_perm :=
    (ownership.lifted_append_perm moves h.nodup_top fun _ hid => h.lt_size (h.top_mem hid)).trans
      h.links_perm
  owner_mem hab := h.owner_mem (owns_of_mem_remaining hab)
  rank_lt hab := h.rank_lt (owns_of_mem_remaining hab)
  lt_size hid := h.lt_size hid

/-- A node that is no grandchild's owner of its own keeps its children when they are lifted. -/
private theorem remaining_self (h : ownership.IsForest members rank)
    (moves : NodeId → NodeId → Bool) (id : NodeId) :
    ownership.remaining moves (ownership.owned id) id = ownership.owned id :=
  if_neg fun howns => Nat.lt_irrefl _ (h.rank_lt howns)

/-- After lifting within a node, an edge was there before or skips one owner. -/
private theorem owns_of_liftWithin {moves : NodeId → NodeId → Bool} {id a b : NodeId}
    (hab : (ownership.liftWithin moves id).Owns a b) :
    ownership.Owns a b ∨ ∃ middle, ownership.Owns a middle ∧ ownership.Owns middle b := by
  by_cases ha : a = id
  · subst ha
    simp only [Owns, Ownership.liftWithin, Function.update_self, lifted] at hab
    obtain ⟨middle, hmiddle, hb⟩ := List.mem_flatMap.mp hab
    rcases List.mem_cons.mp hb with rfl | hb
    · exact .inl hmiddle
    · exact .inr ⟨middle, hmiddle, (List.mem_filter.mp hb).1⟩
  · simp only [Owns, Ownership.liftWithin, Function.update_of_ne ha] at hab
    exact .inl (owns_of_mem_remaining hab)

/-- Lifting grandchildren of a node keeps a forest. -/
theorem liftWithin (h : ownership.IsForest members rank) (moves : NodeId → NodeId → Bool)
    {id : NodeId} (hid : id < ownership.size) :
    (ownership.liftWithin moves id).IsForest members rank := by
  refine ⟨h.nodup, ?_, fun hab => ?_, fun hab => ?_, fun hid => h.lt_size hid⟩
  · let children := ownership.owned id
    let others := (List.range ownership.size).erase id
    have hself : ownership.remaining moves children id = children := h.remaining_self moves id
    -- Both sides also count the children of `id` where they stood before; these cancel.
    have hlifted := ownership.lifted_append_perm moves (h.nodup_owned id)
      fun _ hchild => h.lt_size (h.child_mem hchild)
    have hremaining : ((List.range ownership.size).flatMap
        (ownership.remaining moves children)).Perm
          (children ++ others.flatMap (ownership.remaining moves children)) := by
      have hperm := flatMap_range_perm hid (ownership.remaining moves children)
      rwa [hself] at hperm
    have hcancel : (ownership.lifted moves children ++
        others.flatMap (ownership.remaining moves children)).Perm ownership.below := by
      have hboth : (children ++ (ownership.lifted moves children ++
          others.flatMap (ownership.remaining moves children))).Perm
            (children ++ ownership.below) :=
        calc children ++ (ownership.lifted moves children ++
              others.flatMap (ownership.remaining moves children))
            _ ~ ownership.lifted moves children ++
                (children ++ others.flatMap (ownership.remaining moves children)) := by
              rw [← List.append_assoc, ← List.append_assoc]
              exact List.perm_append_comm.append_right _
            _ ~ ownership.lifted moves children ++ (List.range ownership.size).flatMap
                (ownership.remaining moves children) := hremaining.symm.append_left _
            _ ~ children ++ ownership.below := hlifted
      exact (List.perm_append_left_iff _).mp hboth
    have hbelow : (ownership.liftWithin moves id).below.Perm ownership.below := by
      refine (flatMap_range_perm hid _).trans ?_
      simp only [Ownership.liftWithin, Function.update_self, flatMap_erase_update]
      exact hcancel
    exact (hbelow.append_left _).trans h.links_perm
  · rcases owns_of_liftWithin hab with hab | ⟨_, hmiddle, _⟩
    · exact h.owner_mem hab
    · exact h.owner_mem hmiddle
  · rcases owns_of_liftWithin hab with hab | ⟨_, hmiddle, hab⟩
    · exact h.rank_lt hab
    · exact Nat.lt_trans (h.rank_lt hmiddle) (h.rank_lt hab)

end IsForest

end SymbolTree.Ownership
