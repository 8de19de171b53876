import SymbolTree.Name

/-!
# Parsed names and their texts

Parsing an id loses no character and leaves no delimiter in a segment, the name of an event apart. A
name prints as the id that it was parsed from, and its structural parent has a shorter text.
-/

namespace SymbolTree.QualifiedName

/-- Splitting an id loses no character. -/
theorem split_chars (chars : List Char) :
    (split chars).1 ++ (split chars).2.flatMap (fun member => member.1.mark :: member.2) =
      chars := by
  induction chars with
  | nil => rfl
  | cons c rest ih =>
    rw [split]
    split
    · simp_all [Qualifier.mark]
    · simp only
      split
      · simp_all [Qualifier.mark]
      · split
        · simp_all [Qualifier.mark]
        · simpa using ih

/-- Splitting leaves no delimiter in a segment, unless it names an event. -/
theorem split_segments (chars : List Char) :
    (∀ c ∈ (split chars).1, isDelimiter c = false) ∧
      ∀ member ∈ (split chars).2, member.1 ≠ .event → ∀ c ∈ member.2, isDelimiter c = false := by
  induction chars with
  | nil => simp [split]
  | cons c rest ih =>
    obtain ⟨hhead, hmembers⟩ := ih
    rw [split]
    split
    · simp
    · simp only
      split
      · refine ⟨by simp, fun member hmember hevent => ?_⟩
        rcases List.mem_cons.mp hmember with rfl | hmember
        · exact hhead
        · exact hmembers member hmember hevent
      · split
        · refine ⟨by simp, fun member hmember hevent => ?_⟩
          rcases List.mem_cons.mp hmember with rfl | hmember
          · exact hhead
          · exact hmembers member hmember hevent
        · refine ⟨fun d hd => ?_, hmembers⟩
          rcases List.mem_cons.mp hd with rfl | hd
          · simp_all [isDelimiter]
          · exact hhead d hd

/-- A parsed name has the characters of its id. -/
theorem chars_parse (id : String) : (parse id).chars = id.toList := by
  have hchars := split_chars id.toList
  simpa [parse, chars, List.flatMap_map] using hchars

/-- A parsed name prints as its id. -/
@[simp] theorem text_parse (id : String) : (parse id).text = id := by
  rw [text, chars_parse, String.ofList_toList]

/-- A name without a parent is a bare head. -/
theorem members_eq_nil_of_parent? {name : QualifiedName} (hparent : name.parent? = none) :
    name.members = [] := by
  unfold parent? at hparent
  split at hparent
  · rename_i hempty
    exact List.isEmpty_iff.mp hempty
  · cases hparent

/-- A name with members has the characters of its parent, a delimiter and its last segment. -/
theorem chars_eq_of_parent? {name parent : QualifiedName} (hparent : name.parent? = some parent) :
    ∃ qualifier segment, name.members.getLast? = some (qualifier, segment) ∧
      name.chars = parent.chars ++ qualifier.mark :: segment.toList := by
  unfold parent? at hparent
  split at hparent
  · cases hparent
  · rename_i hmembers
    obtain rfl := Option.some.inj hparent
    have hne : name.members ≠ [] := by simpa using hmembers
    refine ⟨(name.members.getLast hne).1, (name.members.getLast hne).2,
      List.getLast?_eq_some_getLast hne, ?_⟩
    calc name.chars
        _ = ({ name with members := name.members.dropLast ++ [name.members.getLast hne] } :
              QualifiedName).chars := by rw [List.dropLast_concat_getLast]
        _ = _ := by simp [chars]

/-- The structural parent has a shorter text. -/
theorem length_chars_parent?_lt {name parent : QualifiedName}
    (hparent : name.parent? = some parent) : parent.chars.length < name.chars.length := by
  obtain ⟨qualifier, segment, _, hchars⟩ := chars_eq_of_parent? hparent
  rw [hchars, List.length_append, List.length_cons]
  omega

/-- The structural parent of an id is shorter than the id. -/
theorem length_text_parent?_lt {key : String} {parent : QualifiedName}
    (hparent : (parse key).parent? = some parent) : parent.text.length < key.length := by
  have hlt := length_chars_parent?_lt hparent
  rw [chars_parse, String.length_toList] at hlt
  rwa [text, String.length_ofList]

end SymbolTree.QualifiedName
