import SymbolTree.Proofs.ParsedNames

/-!
# The boundary of an id

Where an id is cut into its structural parent and its name can be seen in its text: at the first
`@`, or, without one, at the last `.` or `#`. A parsed name holds the segments from left to right,
and all delimiters of an id stand between them but for those in the name of an event. Taking off the
last segment thus cuts the text at this position.
-/

namespace SymbolTree.QualifiedName

/-- The position of the last character with a property. -/
def lastPosition? (property : Char → Bool) : List Char → Option Nat
  | [] => none
  | c :: rest =>
    match lastPosition? property rest with
    | some position => some (position + 1)
    | none => if property c then some 0 else none

/-- Whether a character joins a segment that names no event. -/
def isMemberMark (c : Char) : Bool := c == '.' || c == '#'

/-- The position of the first `@`, or else of the last `.` or `#`. -/
def boundary? (chars : List Char) : Option Nat :=
  chars.idxOf? '@' <|> lastPosition? isMemberMark chars

/-- Where no character has a property there is no last one. -/
theorem lastPosition?_eq_none {property : Char → Bool} {chars : List Char}
    (hnone : ∀ c ∈ chars, property c = false) : lastPosition? property chars = none := by
  induction chars with
  | nil => rfl
  | cons c rest ih =>
    obtain ⟨hc, hrest⟩ := List.forall_mem_cons.mp hnone
    rw [lastPosition?, ih hrest, hc]
    rfl

/-- A character with a property is the last one if no later one has it. -/
theorem lastPosition?_append {property : Char → Bool} {mark : Char} {after : List Char}
    (hmark : property mark = true) (hafter : ∀ c ∈ after, property c = false)
    (before : List Char) :
    lastPosition? property (before ++ mark :: after) = some before.length := by
  induction before with
  | nil =>
    rw [List.nil_append, lastPosition?, lastPosition?_eq_none hafter, hmark]
    rfl
  | cons c before ih =>
    rw [List.cons_append, lastPosition?, ih]
    rfl

/-- Without `@` the boundary is the last `.` or `#`. -/
theorem boundary?_of_notMem {chars : List Char} (hnone : '@' ∉ chars) :
    boundary? chars = lastPosition? isMemberMark chars := by
  rw [boundary?, List.idxOf?_eq_none_iff.mpr hnone]
  rfl

/-- A text without delimiters has neither `.` nor `#`. -/
theorem isMemberMark_eq_false {text : String} (hfree : DelimiterFree text) :
    ∀ c ∈ text.toList, isMemberMark c = false := fun c hc =>
  (Bool.or_eq_false_iff.mp (hfree c hc)).1

/-- A text without delimiters has no boundary. -/
theorem boundary?_eq_none {text : String} (hfree : DelimiterFree text) :
    boundary? text.toList = none := by
  rw [boundary?_of_notMem (hfree.notMem rfl), lastPosition?_eq_none (isMemberMark_eq_false hfree)]

/-- The delimiter of an event is the boundary if it is the first `@`. -/
theorem boundary?_event {before : List Char} (hbefore : '@' ∉ before) (after : List Char) :
    boundary? (before ++ '@' :: after) = some before.length := by
  have hfirst : (before ++ '@' :: after).idxOf? '@' = some before.length := by
    rw [List.idxOf?_eq_some_iff]
    refine ⟨by simp, by simp, fun position hposition hat => hbefore ?_⟩
    rw [List.getElem_append_left hposition] at hat
    exact hat ▸ List.getElem_mem hposition
  rw [boundary?, hfirst]
  rfl

example : boundary? "UI.Element@click.once#x".toList = some 10 := by decide

/-- The delimiter of another segment is the boundary if no `@` comes before it and the segment is
the rest of the id. -/
theorem boundary?_segment {qualifier : Qualifier} (hqualifier : qualifier ≠ .event)
    {before : List Char} (hbefore : '@' ∉ before) {segment : String}
    (hsegment : DelimiterFree segment) :
    boundary? (before ++ qualifier.mark :: segment.toList) = some before.length := by
  have hmark : isMemberMark qualifier.mark = true := by
    cases qualifier with
    | static => rfl
    | inst => rfl
    | event => exact absurd rfl hqualifier
  have hne : '@' ≠ qualifier.mark := fun heq => absurd (heq ▸ hmark) (by decide)
  have hnone : '@' ∉ before ++ qualifier.mark :: segment.toList := by
    simp only [List.mem_append, List.mem_cons, not_or]
    exact ⟨hbefore, hne, hsegment.notMem rfl⟩
  rw [boundary?_of_notMem hnone, lastPosition?_append hmark (isMemberMark_eq_false hsegment)]

namespace WellFormed

variable {name parent : QualifiedName}

/-- A name of the shape of parsed names has an `@` only before an event. -/
theorem at_notMem_chars (h : name.WellFormed)
    (hmembers : ∀ member ∈ name.members, member.1 ≠ .event) : '@' ∉ name.chars := by
  intro hat
  rcases List.mem_append.mp hat with hat | hat
  · exact h.head_free.notMem rfl hat
  · obtain ⟨⟨qualifier, segment⟩, hmember, hat⟩ := List.mem_flatMap.mp hat
    have hqualifier : qualifier ≠ .event := hmembers _ hmember
    rcases List.mem_cons.mp hat with hmark | hat
    · cases qualifier with
      | static => cases hmark
      | inst => cases hmark
      | event => exact hqualifier rfl
    · exact (h.segments_free _ hmember hqualifier).notMem rfl hat

/-- The structural parent of a parsed name has no event. -/
theorem at_notMem_parent (h : name.WellFormed) (hparent : name.parent? = some parent) :
    '@' ∉ parent.chars := by
  refine (h.parent hparent).at_notMem_chars ?_
  unfold parent? at hparent
  split at hparent
  · cases hparent
  · obtain rfl := Option.some.inj hparent
    exact h.event_last

/-- A name with members has its boundary right behind the text of its parent. -/
theorem boundary?_chars (h : name.WellFormed) (hparent : name.parent? = some parent) :
    boundary? name.chars = some parent.chars.length := by
  obtain ⟨qualifier, segment, hlast, hchars⟩ := chars_eq_of_parent? hparent
  have hbefore := h.at_notMem_parent hparent
  rw [hchars]
  by_cases hqualifier : qualifier = .event
  · subst hqualifier
    exact boundary?_event hbefore segment.toList
  · exact boundary?_segment hqualifier hbefore
      (h.segments_free _ (List.mem_of_getLast? hlast) hqualifier)

end WellFormed

/-- An id without a boundary has no parent and is a name as a whole. Otherwise the parent prints as
the text before the boundary, the name is the text behind it, and the owner's text ends with it. -/
theorem boundary_separates_name (id : String) :
    match boundary? id.toList with
    | none => (parse id).parent? = none ∧ (parse id).lastSegment = id ∧ (parse id).ownerText = ""
    | some position =>
      (parse id).parent?.map text = some (String.ofList (id.toList.take position)) ∧
        (parse id).lastSegment = String.ofList (id.toList.drop (position + 1)) ∧
        (parse id).ownerText = String.ofList (id.toList.take (position + 1)) := by
  have hshape := wellFormed_parse id
  cases hparent : (parse id).parent? with
  | none =>
    have hmembers := members_eq_nil_of_parent? hparent
    have hhead : (parse id).head = id := by
      have hchars := chars_parse id
      rwa [chars, hmembers, List.flatMap_nil, List.append_nil, String.toList_inj] at hchars
    have hnone : boundary? id.toList = none := boundary?_eq_none (hhead ▸ hshape.head_free)
    rw [hnone]
    refine ⟨rfl, ?_, ?_⟩
    · rw [lastSegment, hmembers]
      exact hhead
    · rw [ownerText, hparent]
  | some parent =>
    obtain ⟨qualifier, segment, hlast, hchars⟩ := chars_eq_of_parent? hparent
    have hboundary := hshape.boundary?_chars hparent
    rw [chars_parse] at hchars hboundary
    rw [hboundary]
    refine ⟨?_, ?_, ?_⟩
    · rw [Option.map_some, text, hchars, List.take_left]
    · rw [lastSegment, hlast, hchars, List.append_cons, List.drop_left' (by simp),
        String.ofList_toList]
    · rw [ownerText, hparent, qualifier?, hlast, hchars, List.append_cons,
        List.take_left' (by simp)]
      rfl

end SymbolTree.QualifiedName
