import SymbolTree.Proofs.Ownership
import Mathlib.Data.List.Perm.Subperm

/-!
# Listing the nodes of a forest

`Forest.reachable` follows branches only as far down as there are nodes. In a forest no branch is
longer, and no node lies in two branches, so the list holds every member once.
-/

namespace SymbolTree

namespace Ownership.IsForest

variable {ownership : Ownership} {members : List NodeId} {rank : NodeId → Nat}

/-- Counting the members that rank below a node gives a rank smaller than the number of nodes. -/
theorem exists_rank_lt_size (h : ownership.IsForest members rank) :
    ∃ small, ownership.IsForest members small ∧ ∀ id ∈ members, small id < ownership.size := by
  let ahead (id : NodeId) : List NodeId := members.filter (rank · < rank id)
  have hahead : ∀ {a b}, b ∈ ahead a ↔ b ∈ members ∧ rank b < rank a := by simp [ahead]
  refine ⟨fun id => (ahead id).length, ⟨h.nodup, h.links_perm, h.owner_mem, ?_, h.lt_size⟩, ?_⟩
  · intro parent child howns
    have hfresh : parent ∉ ahead parent := fun hmem => Nat.lt_irrefl _ (hahead.mp hmem).2
    have hsub : parent :: ahead parent ⊆ ahead child := by
      intro id hid
      rcases List.mem_cons.mp hid with rfl | hid
      · exact hahead.mpr ⟨h.owner_mem howns, h.rank_lt howns⟩
      · obtain ⟨hmem, hlt⟩ := hahead.mp hid
        exact hahead.mpr ⟨hmem, Nat.lt_trans hlt (h.rank_lt howns)⟩
    exact (List.subperm_of_subset (List.nodup_cons.mpr ⟨hfresh, h.nodup.filter _⟩) hsub).length_le
  · intro id hid
    have hshort : (ahead id).length < members.length :=
      List.length_filter_lt_length_iff_exists.mpr ⟨id, hid, by simp⟩
    have hsub : members ⊆ List.range ownership.size :=
      fun other hother => List.mem_range.mpr (h.lt_size hother)
    have hsize := (List.subperm_of_subset h.nodup hsub).length_le
    rw [List.length_range] at hsize
    exact Nat.lt_of_lt_of_le hshort hsize

/-- The rank does not decrease along a chain of owned edges. -/
theorem rank_le_of_reflTransGen (h : ownership.IsForest members rank) {a b : NodeId}
    (hchain : Relation.ReflTransGen ownership.Owns a b) : rank a ≤ rank b := by
  rcases Relation.reflTransGen_iff_eq_or_transGen.mp hchain with rfl | hchain
  · exact Nat.le_refl _
  · exact Nat.le_of_lt (h.rank_lt_of_transGen hchain)

/-- Of two nodes above a third, one is above the other. -/
theorem comparable_of_common_below (h : ownership.IsForest members rank) {a b c : NodeId}
    (ha : Relation.ReflTransGen ownership.Owns a c)
    (hb : Relation.ReflTransGen ownership.Owns b c) :
    Relation.ReflTransGen ownership.Owns a b ∨ Relation.ReflTransGen ownership.Owns b a := by
  have hunique : Relator.RightUnique (Function.swap ownership.Owns) :=
    fun _ _ _ hx hy => h.owner_unique hx hy
  rw [← Relation.reflTransGen_swap] at ha hb
  rcases Relation.ReflTransGen.total_of_right_unique hunique ha hb with hab | hba
  · exact .inr (Relation.reflTransGen_swap.mp hab)
  · exact .inl (Relation.reflTransGen_swap.mp hba)

/-- Nothing but itself is above a node at the top. -/
theorem eq_of_reflTransGen_top (h : ownership.IsForest members rank) {a b : NodeId}
    (hb : b ∈ ownership.top) (hchain : Relation.ReflTransGen ownership.Owns a b) : a = b := by
  rcases Relation.ReflTransGen.cases_tail hchain with heq | ⟨_, _, howns⟩
  · exact heq.symm
  · exact absurd howns (h.not_owns_of_mem_top hb)

/-- Of two children of one owner, neither is above the other. -/
theorem eq_of_reflTransGen_siblings (h : ownership.IsForest members rank) {parent a b : NodeId}
    (ha : ownership.Owns parent a) (hb : ownership.Owns parent b)
    (hchain : Relation.ReflTransGen ownership.Owns a b) : a = b := by
  rcases Relation.ReflTransGen.cases_tail hchain with heq | ⟨middle, habove, howns⟩
  · exact heq.symm
  · obtain rfl := h.owner_unique howns hb
    have hle := h.rank_le_of_reflTransGen habove
    have hlt := h.rank_lt ha
    omega

end Ownership.IsForest

namespace Forest

open scoped List

variable {forest : Forest} {members : List NodeId} {rank : NodeId → Nat}

/-- What a branch lists lies below its start. -/
theorem reflTransGen_of_mem_branch {depth : Nat} {id other : NodeId}
    (hmem : other ∈ forest.branch depth id) :
    Relation.ReflTransGen forest.ownership.Owns id other := by
  induction depth generalizing id with
  | zero => simp [branch] at hmem
  | succ depth ih =>
    rcases List.mem_cons.mp hmem with rfl | hbelow
    · exact .refl
    · obtain ⟨child, hchild, hmem⟩ := List.mem_flatMap.mp hbelow
      exact .head (List.mem_reverse.mp hchild) (ih hmem)

/-- A branch lists what lies below its start, up to its depth. -/
theorem mem_branch (h : forest.ownership.IsForest members rank) {depth : Nat} {id other : NodeId}
    (hchain : Relation.ReflTransGen forest.ownership.Owns id other)
    (hdepth : rank other < rank id + depth) : other ∈ forest.branch depth id := by
  induction hchain using Relation.ReflTransGen.head_induction_on generalizing depth with
  | refl =>
    obtain ⟨depth, rfl⟩ := Nat.exists_eq_succ_of_ne_zero (show depth ≠ 0 by omega)
    exact List.mem_cons_self
  | head howns hrest ih =>
    have hlt := h.rank_lt howns
    have hle := h.rank_le_of_reflTransGen hrest
    obtain ⟨depth, rfl⟩ := Nat.exists_eq_succ_of_ne_zero (show depth ≠ 0 by omega)
    exact List.mem_cons_of_mem _ <|
      List.mem_flatMap.mpr ⟨_, List.mem_reverse.mpr howns, ih (by omega)⟩

/-- Branches that start at unrelated nodes share nothing. -/
private theorem nodup_flatMap_branch (h : forest.ownership.IsForest members rank) {depth : Nat}
    {ids : List NodeId} (hnodup : ids.Nodup) (hbranch : ∀ id ∈ ids, (forest.branch depth id).Nodup)
    (hunrelated : ∀ a ∈ ids, ∀ b ∈ ids,
      Relation.ReflTransGen forest.ownership.Owns a b → a = b) :
    (ids.reverse.flatMap (forest.branch depth)).Nodup := by
  refine List.nodup_flatMap.mpr ⟨fun id hid => hbranch id (List.mem_reverse.mp hid), ?_⟩
  refine (List.nodup_reverse.mpr hnodup).pairwise_of_forall_ne fun a ha b hb hne => ?_
  intro other hbelowA hbelowB
  rcases h.comparable_of_common_below (reflTransGen_of_mem_branch hbelowA)
    (reflTransGen_of_mem_branch hbelowB) with hab | hba
  · exact hne (hunrelated a (List.mem_reverse.mp ha) b (List.mem_reverse.mp hb) hab)
  · exact hne (hunrelated b (List.mem_reverse.mp hb) a (List.mem_reverse.mp ha) hba).symm

/-- A branch lists no node twice. -/
theorem nodup_branch (h : forest.ownership.IsForest members rank) (depth : Nat) (id : NodeId) :
    (forest.branch depth id).Nodup := by
  induction depth generalizing id with
  | zero => exact List.nodup_nil
  | succ depth ih =>
    refine List.nodup_cons.mpr ⟨fun hmem => ?_, ?_⟩
    · obtain ⟨child, hchild, hmem⟩ := List.mem_flatMap.mp hmem
      have hlt := h.rank_lt (List.mem_reverse.mp hchild)
      have hle := h.rank_le_of_reflTransGen (reflTransGen_of_mem_branch hmem)
      omega
    · exact nodup_flatMap_branch h (h.nodup_owned id) (fun child _ => ih child)
        fun a ha b hb => h.eq_of_reflTransGen_siblings ha hb

/-- The nodes with a place are the members of the forest, once each. -/
theorem reachable_perm (h : forest.ownership.IsForest members rank) :
    forest.reachable ~ members := by
  obtain ⟨small, hsmall, hbound⟩ := h.exists_rank_lt_size
  have hnodup : forest.reachable.Nodup :=
    nodup_flatMap_branch h h.nodup_top (fun id _ => nodup_branch h _ id)
      fun a _ b hb => h.eq_of_reflTransGen_top hb
  refine (List.perm_ext_iff_of_nodup hnodup h.nodup).mpr fun id => ⟨fun hmem => ?_, fun hmem => ?_⟩
  · obtain ⟨start, hstart, hbelow⟩ := List.mem_flatMap.mp hmem
    rcases Relation.ReflTransGen.cases_tail (reflTransGen_of_mem_branch hbelow) with
      rfl | ⟨_, _, howns⟩
    · exact h.top_mem (List.mem_reverse.mp hstart)
    · exact h.child_mem howns
  · obtain ⟨path, hpath⟩ := h.reachable_of_mem hmem
    obtain ⟨start, hstart, hchain⟩ := hpath.exists_top
    have hdepth := hbound id hmem
    refine List.mem_flatMap.mpr ⟨start, List.mem_reverse.mpr hstart, ?_⟩
    exact mem_branch hsmall hchain (Nat.lt_of_lt_of_le hdepth (Nat.le_add_left _ _))

/-- The placed nodes are the members of the forest that are no sections, once each. -/
theorem placed_perm (h : forest.ownership.IsForest members rank) :
    forest.placed ~ members.filter fun id => !(forest.node id).isSection :=
  (List.mergeSort_perm _ _).trans ((reachable_perm h).filter _)

end Forest

end SymbolTree
