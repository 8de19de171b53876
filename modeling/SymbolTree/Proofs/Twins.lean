import SymbolTree.Proofs.Columns.Stages
import SymbolTree.Proofs.Filing
import SymbolTree.Proofs.Names
import SymbolTree.Proofs.Sections

/-!
# Bound twins form a matching

The keys of a bound method and of its twin differ in their last delimiter only, which is `.` in one
and `#` in the other. A key therefore occurs in no two different pairs, so that links between twins
do not interfere and may be made in any order.
-/

namespace SymbolTree

open scoped List

namespace QualifiedName

/-- The instance twin of a name has the same owner and the same trailing segment. -/
theorem chars_of_instanceTwin? {name twin : QualifiedName}
    (htwin : name.instanceTwin? = some twin) :
    ∃ owner segment, name.members.getLast? = some (.static, segment) ∧
      name.chars = owner ++ '.' :: segment.toList ∧
      twin.chars = owner ++ '#' :: segment.toList := by
  unfold instanceTwin? at htwin
  split at htwin
  · rename_i segment hlast
    obtain rfl := Option.some.inj htwin
    have hne : name.members ≠ [] := by
      rintro hnil
      simp [hnil] at hlast
    have hparent : name.parent? = some { name with members := name.members.dropLast } := by
      simp [parent?, hne]
    obtain ⟨qualifier, segment', hlast', hchars⟩ := chars_eq_of_parent? hparent
    obtain ⟨rfl, rfl⟩ := Prod.mk.inj (Option.some.inj (hlast'.symm.trans hlast))
    refine ⟨_, segment', hlast, hchars, ?_⟩
    simp [chars, Qualifier.mark]
  · cases htwin

/-- A trailing class member has no delimiter in its name. -/
theorem segment_of_getLast? {id segment : String}
    (hlast : (parse id).members.getLast? = some (.static, segment)) :
    ∀ c ∈ segment.toList, isDelimiter c = false := by
  obtain ⟨_, hmembers⟩ := split_segments id.toList
  have hmem := List.mem_of_getLast? hlast
  obtain ⟨member, hmember, hpair⟩ := List.mem_map.mp hmem
  obtain ⟨hqualifier, rfl⟩ := Prod.mk.inj hpair
  intro c hc
  rw [String.toList_ofList] at hc
  exact hmembers member hmember (by simp [hqualifier]) c hc

end QualifiedName

namespace Collection

/-- Two keys that differ in their last delimiter: `.` in the first, `#` in the second. -/
def IsTwinPair (pair : String × String) : Prop :=
  ∃ owner segment : List Char, (∀ c ∈ segment, isDelimiter c = false) ∧
    pair.1.toList = owner ++ '.' :: segment ∧ pair.2.toList = owner ++ '#' :: segment

/-- A text is cut in one way at its last delimiter. -/
private theorem cut_unique {owner owner' segment segment' : List Char} {mark mark' : Char}
    (hsegment : ∀ c ∈ segment, isDelimiter c = false)
    (hsegment' : ∀ c ∈ segment', isDelimiter c = false)
    (hmark : isDelimiter mark = true) (hmark' : isDelimiter mark' = true)
    (h : owner ++ mark :: segment = owner' ++ mark' :: segment') :
    owner = owner' ∧ mark = mark' ∧ segment = segment' := by
  rcases List.append_eq_append_iff.mp h with ⟨middle, rfl, hrest⟩ | ⟨middle, rfl, hrest⟩
  · cases middle with
    | nil =>
      obtain ⟨rfl, rfl⟩ := List.cons.inj hrest
      simp
    | cons c middle =>
      obtain ⟨_, rfl⟩ := List.cons.inj hrest
      have := hsegment mark' (by simp)
      simp_all
  · cases middle with
    | nil =>
      obtain ⟨rfl, rfl⟩ := List.cons.inj hrest
      simp
    | cons c middle =>
      obtain ⟨_, rfl⟩ := List.cons.inj hrest
      have := hsegment' mark (by simp)
      simp_all

/-- The two keys of a pair differ. -/
theorem IsTwinPair.ne {pair : String × String} (h : IsTwinPair pair) : pair.1 ≠ pair.2 := by
  obtain ⟨owner, segment, _, hfirst, hsecond⟩ := h
  intro heq
  rw [heq, hsecond, List.append_cancel_left_eq] at hfirst
  cases hfirst

/-- Different pairs share no key. -/
theorem IsTwinPair.disjoint {p q : String × String} (hp : IsTwinPair p) (hq : IsTwinPair q)
    (hne : p ≠ q) : p.1 ≠ q.1 ∧ p.1 ≠ q.2 ∧ p.2 ≠ q.1 ∧ p.2 ≠ q.2 := by
  obtain ⟨owner, segment, hclean, hp₁, hp₂⟩ := hp
  obtain ⟨owner', segment', hclean', hq₁, hq₂⟩ := hq
  have hequal (howner : owner = owner') (hsegment : segment = segment') : p = q := by
    subst howner hsegment
    exact Prod.ext (String.toList_injective (hp₁.trans hq₁.symm))
      (String.toList_injective (hp₂.trans hq₂.symm))
  refine ⟨fun h => ?_, fun h => ?_, fun h => ?_, fun h => ?_⟩
  · have hlists := (hp₁.symm.trans (congrArg String.toList h)).trans hq₁
    obtain ⟨howner, _, hsegment⟩ := cut_unique hclean hclean' rfl rfl hlists
    exact hne (hequal howner hsegment)
  · have hlists := (hp₁.symm.trans (congrArg String.toList h)).trans hq₂
    obtain ⟨_, hmark, _⟩ := cut_unique hclean hclean' rfl rfl hlists
    cases hmark
  · have hlists := (hp₂.symm.trans (congrArg String.toList h)).trans hq₁
    obtain ⟨_, hmark, _⟩ := cut_unique hclean hclean' rfl rfl hlists
    cases hmark
  · have hlists := (hp₂.symm.trans (congrArg String.toList h)).trans hq₂
    obtain ⟨howner, _, hsegment⟩ := cut_unique hclean hclean' rfl rfl hlists
    exact hne (hequal howner hsegment)

/-- The keys of a bound method and of its twin differ in their last delimiter. -/
theorem isTwinPair_of_twinKeys? {record : Record} {pair : String × String}
    (hkeys : twinKeys? record = some pair) : IsTwinPair pair := by
  obtain ⟨twin, htwin, rfl⟩ := Option.map_eq_some_iff.mp hkeys
  unfold twin? at htwin
  split at htwin
  · rename_i hbound
    obtain ⟨name, hname, rfl⟩ := Option.map_eq_some_iff.mp htwin
    obtain ⟨owner, segment, hlast, hchars, htwinChars⟩ :=
      QualifiedName.chars_of_instanceTwin? hname
    have hsection : record.kind ≠ .section := by simp [hbound.1]
    rw [QualifiedName.chars_parse] at hchars
    refine ⟨(record.section.getD "").toList ++ '.' :: owner, segment.toList,
      QualifiedName.segment_of_getLast? hlast, ?_, ?_⟩
    · simp [Record.key, hsection, hchars]
    · simp [Record.key, hsection, QualifiedName.text, htwinChars]
  · cases htwin

/-- Inserting records notes the keys of the bound methods and their twins. -/
theorem boundPairs_insertAll (records : List Record) :
    (empty.insertAll records).boundPairs = records.filterMap twinKeys? := by
  rw [insertAll_eq]
  rfl

/-- The keys that are noted differ in their last delimiter. -/
theorem isTwinPair_of_mem_boundPairs {records : List Record} {pair : String × String}
    (hpair : pair ∈ (empty.insertAll records).boundPairs) : IsTwinPair pair := by
  rw [boundPairs_insertAll] at hpair
  obtain ⟨record, _, hkeys⟩ := List.mem_filterMap.mp hpair
  exact isTwinPair_of_twinKeys? hkeys

end Collection

namespace Forest

variable {forest : Forest}

/-- Changes of different nodes may be made in any order. -/
theorem modify_comm (forest : Forest) {a b : NodeId} (hne : a ≠ b) (f g : Node → Node) :
    (forest.modify a f).modify b g = (forest.modify b g).modify a f := by
  unfold modify
  simp only
  congr 1
  refine Array.ext_getElem? fun id => ?_
  simp only [Array.getElem?_modify]
  by_cases ha : a = id <;> by_cases hb : b = id <;> simp_all

/-- Link two nodes as bound twins. -/
private def linkNodes (forest : Forest) (a b : NodeId) : Forest :=
  (forest.modify a fun node => { node with boundSibling := some b }).modify b
    fun node => { node with boundSibling := some a }

private theorem linkNodes_comm {a b c d : NodeId} (hac : a ≠ c) (had : a ≠ d) (hbc : b ≠ c)
    (hbd : b ≠ d) :
    (forest.linkNodes a b).linkNodes c d = (forest.linkNodes c d).linkNodes a b := by
  unfold linkNodes
  rw [modify_comm _ hbc, modify_comm _ hac, modify_comm _ hbd, modify_comm _ had]

private theorem keys_linkTwins (forest : Forest) (pair : String × String) :
    (forest.linkTwins pair).keys = forest.keys :=
  keys_eq_of_rest_eq (rest_linkTwins forest pair)

/-- A pair that lacks a node links nothing, and any other pair links its two nodes. -/
private theorem linkTwins_cases (keys : KeyMap NodeId) (pair : String × String) :
    (∀ forest : Forest, forest.keys = keys → forest.linkTwins pair = forest) ∨
      ∃ a b, keys.get? pair.1 = some a ∧ keys.get? pair.2 = some b ∧
        ∀ forest : Forest, forest.keys = keys → forest.linkTwins pair = forest.linkNodes a b := by
  cases hfirst : keys.get? pair.1 with
  | none =>
    refine .inl fun forest hkeys => ?_
    simp [linkTwins, hkeys, hfirst]
  | some a =>
    cases hsecond : keys.get? pair.2 with
    | none =>
      refine .inl fun forest hkeys => ?_
      simp [linkTwins, hkeys, hfirst, hsecond]
    | some b =>
      refine .inr ⟨a, b, rfl, rfl, fun forest hkeys => ?_⟩
      simp [linkTwins, hkeys, hfirst, hsecond, linkNodes]

/-- Two pairs of twins may be linked in any order. -/
theorem linkTwins_comm (hnodup : forest.keys.values.Nodup) {p q : String × String}
    (hp : Collection.IsTwinPair p) (hq : Collection.IsTwinPair q) :
    (forest.linkTwins p).linkTwins q = (forest.linkTwins q).linkTwins p := by
  by_cases heq : p = q
  · rw [heq]
  obtain ⟨h₁₁, h₁₂, h₂₁, h₂₂⟩ := hp.disjoint hq heq
  have hdistinct {k k' : String} {id id' : NodeId} (hne : k ≠ k')
      (hk : forest.keys.get? k = some id) (hk' : forest.keys.get? k' = some id') : id ≠ id' := by
    rintro rfl
    exact hne (KeyMap.get?_inj_of_nodup_values hnodup hk hk')
  rcases linkTwins_cases forest.keys p with hskip | ⟨a, b, ha, hb, hlink⟩
  · rw [hskip forest rfl, hskip _ (keys_linkTwins forest q)]
  · rcases linkTwins_cases forest.keys q with hskip' | ⟨c, d, hc, hd, hlink'⟩
    · rw [hskip' forest rfl, hskip' _ (keys_linkTwins forest p)]
    · rw [hlink' _ (keys_linkTwins forest p), hlink _ (keys_linkTwins forest q), hlink forest rfl,
        hlink' forest rfl]
      exact linkNodes_comm (hdistinct h₁₁ ha hc) (hdistinct h₁₂ ha hd) (hdistinct h₂₁ hb hc)
        (hdistinct h₂₂ hb hd)

/-- Twins may be linked in any order. -/
theorem foldl_linkTwins_perm {pairs reordered : List (String × String)} (hperm : pairs ~ reordered)
    (hpairs : ∀ pair ∈ pairs, Collection.IsTwinPair pair) (hnodup : forest.keys.values.Nodup) :
    pairs.foldl linkTwins forest = reordered.foldl linkTwins forest := by
  induction hperm generalizing forest with
  | nil => rfl
  | cons pair _ ih =>
    refine ih (fun other hother => hpairs other (List.mem_cons_of_mem _ hother)) ?_
    rwa [keys_linkTwins]
  | swap p q pairs =>
    have hp : Collection.IsTwinPair p := hpairs p (by simp)
    have hq : Collection.IsTwinPair q := hpairs q (by simp)
    rw [List.foldl_cons, List.foldl_cons, List.foldl_cons, List.foldl_cons,
      linkTwins_comm hnodup hq hp]
  | trans hfirst _ ih₁ ih₂ =>
    exact (ih₁ hpairs hnodup).trans
      (ih₂ (fun pair hpair => hpairs pair (hfirst.mem_iff.mpr hpair)) hnodup)

end Forest

end SymbolTree
