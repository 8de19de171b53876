import SymbolTree.Proofs.SectionNames

/-!
# The shape of parsed names

Parsing yields exactly the names whose printed form can be read back: a leading segment without
delimiters, then segments without delimiters, and an event of any text, which can only come last.
Taking the parent, dropping the section, turning to the instance member and changing the leading
segment keep this shape, so it does not matter whether a name is printed and parsed again before or
after them.

An id can also be read from left to right, one character at a time, up to the first `@`. What has
been read by then is the parsed form of the beginning.
-/

namespace SymbolTree.QualifiedName

/-- The shape of a parsed name. -/
structure WellFormed (name : QualifiedName) : Prop where
  /-- The leading segment has no delimiter. -/
  head_free : DelimiterFree name.head
  /-- No other segment has one, unless it names an event. -/
  segments_free : ∀ member ∈ name.members, member.1 ≠ .event → DelimiterFree member.2
  /-- An event can only come last. -/
  event_last : ∀ member ∈ name.members.dropLast, member.1 ≠ .event

instance : DecidablePred WellFormed := fun name =>
  decidable_of_iff
    (DelimiterFree name.head ∧
      (∀ member ∈ name.members, member.1 ≠ .event → DelimiterFree member.2) ∧
      ∀ member ∈ name.members.dropLast, member.1 ≠ .event)
    ⟨fun ⟨hhead, hsegments, hlast⟩ => ⟨hhead, hsegments, hlast⟩,
      fun h => ⟨h.head_free, h.segments_free, h.event_last⟩⟩

/-- What precedes the last item of a list. -/
private theorem mem_dropLast_cons {α : Type} {item first : α} {rest : List α} :
    item ∈ (first :: rest).dropLast ↔ rest ≠ [] ∧ (item = first ∨ item ∈ rest.dropLast) := by
  cases rest <;> simp

/-- An event comes last also behind another segment. -/
private theorem event_last_cons {α : Type} {first : Qualifier × α} {rest : List (Qualifier × α)}
    (hfirst : first.1 ≠ .event) (hrest : ∀ member ∈ rest.dropLast, member.1 ≠ .event) :
    ∀ member ∈ (first :: rest).dropLast, member.1 ≠ .event := by
  intro member hmember
  obtain ⟨_, rfl | hmember⟩ := mem_dropLast_cons.mp hmember
  · exact hfirst
  · exact hrest member hmember

/-- Splitting puts an event last. -/
theorem split_event_last (chars : List Char) :
    ∀ member ∈ (split chars).2.dropLast, member.1 ≠ .event := by
  induction chars with
  | nil => simp [split]
  | cons c rest ih =>
    rw [split]
    split
    · simp
    · simp only
      split
      · exact event_last_cons Qualifier.noConfusion ih
      · split
        · exact event_last_cons Qualifier.noConfusion ih
        · exact ih

/-- A parsed name has the shape of parsed names. -/
theorem wellFormed_parse (id : String) : (parse id).WellFormed where
  head_free := delimiterFree_head_parse id
  segments_free := by
    intro member hmember hevent c hc
    obtain ⟨before, hbefore, rfl⟩ := List.mem_map.mp hmember
    rw [String.toList_ofList] at hc
    exact (split_segments id.toList).2 before hbefore hevent c hc
  event_last := by
    intro member hmember
    rw [parse_eq, ← List.map_dropLast] at hmember
    obtain ⟨before, hbefore, rfl⟩ := List.mem_map.mp hmember
    exact split_event_last id.toList before hbefore

/-- What can follow a leading segment: segments without delimiters, and at most one event after
them. -/
inductive Segments : List (Qualifier × String) → Prop
  /-- Nothing follows. -/
  | nil : Segments []
  /-- Nothing follows an event. -/
  | event (text : String) : Segments [(.event, text)]
  /-- Any other segment has no delimiter. -/
  | cons {qualifier : Qualifier} {segment : String} {rest : List (Qualifier × String)} :
      qualifier ≠ .event → DelimiterFree segment → Segments rest →
      Segments ((qualifier, segment) :: rest)

/-- What follows the leading segment of a parsed name. -/
theorem WellFormed.segments {name : QualifiedName} (h : name.WellFormed) :
    Segments name.members := by
  obtain ⟨_, hfree, hlast⟩ := h
  generalize name.members = members at hfree hlast
  induction members with
  | nil => exact .nil
  | cons first rest ih =>
    by_cases hevent : first.1 = .event
    · obtain rfl : rest = [] := by
        by_contra hne
        exact hlast first (mem_dropLast_cons.mpr ⟨hne, .inl rfl⟩) hevent
      have hfirst : first = (.event, first.2) := Prod.ext hevent rfl
      exact hfirst ▸ .event first.2
    · refine .cons hevent (hfree first List.mem_cons_self hevent)
        (ih (fun member hmember => hfree member (List.mem_cons_of_mem _ hmember)) ?_)
      intro member hmember
      have hne : rest ≠ [] := by
        rintro rfl
        cases hmember
      exact hlast member (mem_dropLast_cons.mpr ⟨hne, .inr hmember⟩)

/-- The characters of segments with their delimiters. -/
def memberChars (members : List (Qualifier × String)) : List Char :=
  members.flatMap fun member => member.1.mark :: member.2.toList

/-- Splitting the characters of segments gives the segments back. -/
theorem Segments.split_memberChars {members : List (Qualifier × String)} (h : Segments members) :
    split (memberChars members) =
      ([], members.map fun member => (member.1, member.2.toList)) := by
  induction h with
  | nil => rfl
  | event text => simp [memberChars, split, Qualifier.mark]
  | @cons qualifier segment rest hevent hfree _ ih =>
    have hchars : memberChars ((qualifier, segment) :: rest) =
        qualifier.mark :: (segment.toList ++ memberChars rest) := rfl
    rw [hchars, split, split_append hfree, ih]
    cases qualifier with
    | static => simp [Qualifier.mark]
    | inst => simp [Qualifier.mark]
    | event => exact absurd rfl hevent

/-- A name of the shape of parsed names is read back from its text. -/
theorem WellFormed.parse_text {name : QualifiedName} (h : name.WellFormed) :
    parse name.text = name := by
  have hchars : name.text.toList = name.head.toList ++ memberChars name.members :=
    String.toList_ofList
  rw [parse_eq, hchars, split_append h.head_free, h.segments.split_memberChars]
  simp [Function.comp_def]

/-- The names that can be read back from their texts are those of the shape of parsed names. -/
theorem parse_text_iff {name : QualifiedName} : parse name.text = name ↔ name.WellFormed :=
  ⟨fun h => h ▸ wellFormed_parse name.text, WellFormed.parse_text⟩

namespace WellFormed

variable {name : QualifiedName}

/-- The parent of a parsed name has the same shape. -/
theorem parent (h : name.WellFormed) {parent : QualifiedName}
    (hparent : name.parent? = some parent) : parent.WellFormed := by
  unfold parent? at hparent
  split at hparent
  · cases hparent
  · obtain rfl := Option.some.inj hparent
    exact ⟨h.head_free,
      fun member hmember => h.segments_free member (List.dropLast_subset _ hmember),
      fun member hmember => h.event_last member (List.dropLast_subset _ hmember)⟩

/-- A parsed name has the same shape below its section. -/
theorem dropSection (h : name.WellFormed) : name.dropSection.WellFormed := by
  unfold QualifiedName.dropSection
  split
  · rename_i first rest hmembers
    obtain ⟨_, hsegments, hlast⟩ := h
    rw [hmembers] at hsegments hlast
    refine ⟨hsegments _ List.mem_cons_self Qualifier.noConfusion,
      fun member hmember => hsegments member (List.mem_cons_of_mem _ hmember),
      fun member hmember => hlast member (mem_dropLast_cons.mpr
        ⟨fun hempty => by simp [hempty] at hmember, .inr hmember⟩)⟩
  · exact h

/-- The instance member beside a parsed name has the same shape. -/
theorem instanceTwin (h : name.WellFormed) {twin : QualifiedName}
    (htwin : name.instanceTwin? = some twin) : twin.WellFormed := by
  unfold instanceTwin? at htwin
  split at htwin
  · rename_i segment hlast
    obtain rfl := Option.some.inj htwin
    have hsegment : DelimiterFree segment :=
      h.segments_free _ (List.mem_of_getLast? hlast) Qualifier.noConfusion
    refine ⟨h.head_free, fun member hmember hevent => ?_, fun member hmember => ?_⟩
    · rcases List.mem_append.mp hmember with hmember | hmember
      · exact h.segments_free member (List.dropLast_subset _ hmember) hevent
      · obtain rfl := List.mem_singleton.mp hmember
        exact hsegment
    · rw [List.dropLast_concat] at hmember
      exact h.event_last member hmember
  · cases htwin

/-- A parsed name keeps its shape under another leading segment exactly if this has no delimiter. -/
theorem withHead_iff (h : name.WellFormed) {head : String} :
    (name.withHead head).WellFormed ↔ DelimiterFree head :=
  ⟨fun hhead => hhead.head_free, fun hhead => ⟨hhead, h.segments_free, h.event_last⟩⟩

end WellFormed

/-! ## Reading from left to right -/

/-- What has been read of an id up to some character before the first `@`. -/
structure Reading where
  /-- The leading segment, once it has ended. -/
  head : List Char := []
  /-- The segments that have ended after it. -/
  members : List (Qualifier × List Char) := []
  /-- The segment that is being read. -/
  current : List Char := []
  /-- How the segment that is being read is joined, or nothing for the leading one. -/
  pending : Option Qualifier := none

namespace Reading

/-- The segment that is being read ends with some more text. -/
def finish (reading : Reading) (more : List Char) : List Char × List (Qualifier × List Char) :=
  match reading.pending with
  | none => (reading.current ++ more, reading.members)
  | some qualifier => (reading.head, reading.members ++ [(qualifier, reading.current ++ more)])

/-- A delimiter ends the segment and starts one that it joins. -/
def next (reading : Reading) (qualifier : Qualifier) : Reading :=
  let (head, members) := reading.finish []
  { head, members, pending := some qualifier }

/-- Read one character. -/
def step (reading : Reading) (c : Char) : Reading :=
  if c = '.' then reading.next .static
  else if c = '#' then reading.next .inst
  else { reading with current := reading.current ++ [c] }

/-- What ends after a delimiter comes after all that has ended before. -/
theorem finish_next (reading : Reading) (qualifier : Qualifier) (more : List Char) :
    (reading.next qualifier).finish more =
      ((reading.finish []).1, (reading.finish []).2 ++ [(qualifier, more)]) := rfl

/-- A character of the segment that is being read may as well come with the end of it. -/
theorem finish_append (reading : Reading) (c : Char) (more : List Char) :
    ({ reading with current := reading.current ++ [c] } : Reading).finish more =
      reading.finish (c :: more) := by
  unfold finish
  cases reading.pending <;> simp

/-- Reading on from anywhere finishes the segment that is being read and adds what the rest splits
into. -/
theorem finish_foldl_step {chars : List Char} (hnone : '@' ∉ chars) (reading : Reading) :
    (chars.foldl step reading).finish [] =
      ((reading.finish (split chars).1).1,
        (reading.finish (split chars).1).2 ++ (split chars).2) := by
  induction chars generalizing reading with
  | nil => simp [split]
  | cons c rest ih =>
    obtain ⟨hc, hrest⟩ := not_or.mp (mt List.mem_cons.mpr hnone)
    rw [List.foldl_cons, ih hrest, split, if_neg (Ne.symm hc), step]
    split
    · simp [finish_next]
    · split
      · simp [finish_next]
      · simp [finish_append]

end Reading

/-- What precedes the first `@`. -/
def beforeEvent (chars : List Char) : List Char := chars.takeWhile (· ≠ '@')

/-- The event that starts at the first `@`. -/
def event? (chars : List Char) : Option (Qualifier × List Char) :=
  (chars.dropWhile (· ≠ '@')).tail?.map fun rest => (.event, rest)

/-- Read an id from left to right up to the first `@`. What follows is an event. -/
def read (id : String) : QualifiedName :=
  let (head, members) := ((beforeEvent id.toList).foldl Reading.step {}).finish []
  ⟨String.ofList head,
    (members ++ (event? id.toList).toList).map fun member => (member.1, String.ofList member.2)⟩

/-- No `@` precedes the first one. -/
theorem at_notMem_beforeEvent (chars : List Char) : '@' ∉ beforeEvent chars := fun hmem => by
  simpa using List.all_eq_true.mp List.all_takeWhile _ hmem

/-- An id splits into what precedes its event and the event. -/
theorem split_eq (chars : List Char) :
    split chars = ((split (beforeEvent chars)).1,
      (split (beforeEvent chars)).2 ++ (event? chars).toList) := by
  induction chars with
  | nil => rfl
  | cons c rest ih =>
    by_cases hc : c = '@'
    · simp [hc, split, beforeEvent, event?]
    · have hbefore : beforeEvent (c :: rest) = c :: beforeEvent rest :=
        List.takeWhile_cons_of_pos (by simpa using hc)
      have hevent : event? (c :: rest) = event? rest := by
        rw [event?, List.dropWhile_cons_of_pos (by simpa using hc)]
        rfl
      rw [hbefore, hevent, split, split, if_neg hc, if_neg hc, ih]
      simp only
      split
      · rfl
      · split <;> rfl

/-- Reading an id from left to right parses it. -/
theorem read_eq_parse (id : String) : read id = parse id := by
  rw [read, Reading.finish_foldl_step (at_notMem_beforeEvent id.toList), parse_eq,
    split_eq id.toList]
  rfl

/-! ## Printing and parsing -/

/-- A change of names keeps the shape of parsed names, and it makes no difference whether a name of
this shape is printed and parsed before or after the change. -/
def KeepsShape (change : QualifiedName → Option QualifiedName) : Prop :=
  ∀ name : QualifiedName, name.WellFormed →
    (∀ changed ∈ change name, changed.WellFormed) ∧
      change (parse name.text) = (change name).map fun changed => parse changed.text

/-- A change that keeps the shape of parsed names commutes with printing and parsing. -/
theorem keepsShape_of {change : QualifiedName → Option QualifiedName}
    (hkeeps : ∀ name : QualifiedName, name.WellFormed →
      ∀ changed ∈ change name, changed.WellFormed) : KeepsShape change := by
  refine fun name h => ⟨hkeeps name h, ?_⟩
  rw [h.parse_text]
  cases hchange : change name with
  | none => rfl
  | some changed =>
    have hchanged : changed.WellFormed := hkeeps name h changed hchange
    rw [Option.map_some, hchanged.parse_text]

/-- Parsing reads an id from left to right, loses nothing of it and yields names of one shape. The
names of this shape are exactly those that are read back from their texts. The parent, the name
below the section, the instance member and the name under another leading segment without delimiters
keep the shape and commute with printing and parsing, while a leading segment with a delimiter does
not. -/
theorem parsing_inverts_printing :
    (∀ id, parse id = read id ∧ (parse id).text = id ∧ (parse id).WellFormed) ∧
      (∀ name, parse name.text = name ↔ name.WellFormed) ∧
      KeepsShape parent? ∧ KeepsShape (fun name => some name.dropSection) ∧
      KeepsShape instanceTwin? ∧
      ∀ head, KeepsShape (fun name => some (name.withHead head)) ↔ DelimiterFree head := by
  refine ⟨fun id => ⟨(read_eq_parse id).symm, text_parse id, wellFormed_parse id⟩,
    fun name => parse_text_iff, keepsShape_of fun name h parent => h.parent,
    keepsShape_of fun name h changed hchanged => ?_,
    keepsShape_of fun name h twin => h.instanceTwin,
    fun head => ⟨fun hkeeps => ?_, fun hhead => keepsShape_of fun name h changed hchanged => ?_⟩⟩
  · obtain rfl := Option.some.inj hchanged
    exact h.dropSection
  · have hempty : WellFormed ⟨"", []⟩ := by decide
    exact hempty.withHead_iff.mp ((hkeeps _ hempty).1 _ rfl)
  · obtain rfl := Option.some.inj hchanged
    exact h.withHead_iff.mpr hhead

/-- An event of an instance member without a name, with delimiters in its own. -/
def eventOfUnnamedMember : QualifiedName :=
  ⟨"UI", [(.static, "Element"), (.inst, ""), (.event, "click.once#x")]⟩

/-- The event is read back from its id, below its section too. A leading segment with a delimiter is
not. -/
theorem parsing_inverts_printing_of_eventOfUnnamedMember :
    eventOfUnnamedMember.WellFormed ∧
      parse "UI.Element#@click.once#x" = eventOfUnnamedMember ∧
      parse "Element#@click.once#x" = eventOfUnnamedMember.dropSection ∧
      parse (eventOfUnnamedMember.withHead "a.b").text ≠ eventOfUnnamedMember.withHead "a.b" := by
  obtain ⟨_, hinverse, _, hsection, _, _⟩ := parsing_inverts_printing
  have hshape : eventOfUnnamedMember.WellFormed := by decide
  obtain ⟨hbelow, _⟩ := hsection eventOfUnnamedMember hshape
  refine ⟨hshape, (hinverse eventOfUnnamedMember).mpr hshape,
    (hinverse eventOfUnnamedMember.dropSection).mpr (hbelow _ rfl), fun hback => ?_⟩
  exact absurd ((hinverse _).mp hback) (by decide)

end SymbolTree.QualifiedName
