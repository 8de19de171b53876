import SymbolTree.Proofs.Names
import Mathlib.Data.List.Basic

/-!
# Names below a section

The key of a symbol is its section, a `.` and its id. Dropping the section from the key gives the id
back exactly when the section has no delimiter. Otherwise the key is cut inside the section, or not
at all, and more than the id remains.
-/

namespace SymbolTree

/-- Whether a text contains none of the three delimiters. -/
def DelimiterFree (text : String) : Prop := ∀ c ∈ text.toList, isDelimiter c = false

instance : DecidablePred DelimiterFree := fun text =>
  List.decidableBAll (fun c => isDelimiter c = false) text.toList

/-- No delimiter occurs in a text without delimiters. -/
theorem DelimiterFree.notMem {text : String} {mark : Char} (hfree : DelimiterFree text)
    (hmark : isDelimiter mark = true) : mark ∉ text.toList := fun hmem =>
  Bool.false_ne_true ((hfree mark hmem).symm.trans hmark)

/-- The empty text has no delimiter. -/
@[simp] theorem delimiterFree_empty : DelimiterFree "" := by
  simp [DelimiterFree]

/-- A text is free of delimiters when its two parts are. -/
@[simp] theorem delimiterFree_append {a b : String} :
    DelimiterFree (a ++ b) ↔ DelimiterFree a ∧ DelimiterFree b := by
  simp only [DelimiterFree, String.toList_append, List.mem_append]
  constructor
  · intro h
    exact ⟨fun c hc => h c (.inl hc), fun c hc => h c (.inr hc)⟩
  · rintro ⟨ha, hb⟩ c (hc | hc)
    · exact ha c hc
    · exact hb c hc

namespace QualifiedName

/-- The parts of a parsed name. -/
theorem parse_eq (id : String) :
    parse id = ⟨String.ofList (split id.toList).1,
      (split id.toList).2.map fun member => (member.1, String.ofList member.2)⟩ := rfl

/-- The leading segment of a parsed name has no delimiter. -/
theorem delimiterFree_head_parse (id : String) : DelimiterFree (parse id).head := by
  intro c hc
  rw [parse_eq, String.toList_ofList] at hc
  exact (split_segments id.toList).1 c hc

/-- What precedes the first delimiter goes to the leading segment. -/
theorem split_append {head : List Char} (hhead : ∀ c ∈ head, isDelimiter c = false)
    (rest : List Char) :
    split (head ++ rest) = (head ++ (split rest).1, (split rest).2) := by
  induction head with
  | nil => rfl
  | cons c head ih =>
    have hc : isDelimiter c = false := hhead c List.mem_cons_self
    have hrest := ih fun d hd => hhead d (List.mem_cons_of_mem _ hd)
    simp only [isDelimiter, Bool.or_eq_false_iff, beq_eq_false_iff_ne] at hc
    obtain ⟨⟨hstatic, hinst⟩, hevent⟩ := hc
    rw [List.cons_append, split, if_neg hevent, hrest]
    simp only [if_neg hstatic, if_neg hinst, List.cons_append]

/-- A text without delimiters before an id goes to its leading segment. -/
theorem parse_append {before : String} (hfree : DelimiterFree before) (id : String) :
    parse (before ++ id) = ⟨before ++ (parse id).head, (parse id).members⟩ := by
  rw [parse_eq, String.toList_append, split_append hfree, String.ofList_append,
    String.ofList_toList]
  rfl

/-- A name without a leading segment that gets one has it before its text. -/
theorem text_withHead {name : QualifiedName} (hhead : name.head = "") (head : String) :
    (name.withHead head).text = head ++ name.text := by
  rw [← String.toList_inj]
  simp [text, chars, withHead, hhead]

/-- A section without delimiters comes before the parts of what follows it. -/
theorem parse_section {sectionName : String} (hfree : DelimiterFree sectionName) (id : String) :
    parse (sectionName ++ "." ++ id) =
      ⟨sectionName, (.static, (parse id).head) :: (parse id).members⟩ := by
  have hchars : (sectionName ++ "." ++ id).toList = sectionName.toList ++ '.' :: id.toList := by
    simp
  have hdot : split ('.' :: id.toList) =
      ([], (.static, (split id.toList).1) :: (split id.toList).2) := by
    rw [split]
    simp
  rw [parse_eq, hchars, split_append hfree, hdot, List.append_nil, String.ofList_toList]
  rfl

/-- Dropping a section without delimiters from a key leaves what follows it. -/
theorem dropSection_parse {sectionName : String} (hfree : DelimiterFree sectionName)
    (id : String) : (parse (sectionName ++ "." ++ id)).dropSection = parse id := by
  rw [parse_section hfree]
  rfl

/-- A name whose first delimiter is not `.` has no section to drop. -/
theorem dropSection_parse_of_mark {before : List Char} {mark : Char}
    (hfree : ∀ c ∈ before, isDelimiter c = false) (hmark : mark = '#' ∨ mark = '@')
    {key : String} {rest : List Char} (hkey : key.toList = before ++ mark :: rest) :
    (parse key).dropSection = parse key := by
  rw [parse_eq, hkey, split_append hfree]
  rcases hmark with rfl | rfl
  · rw [split]
    rfl
  · rw [split]
    rfl

/-- A text with a delimiter is cut at the first one. -/
theorem exists_first_delimiter {chars : List Char} (h : ¬ ∀ c ∈ chars, isDelimiter c = false) :
    ∃ before mark rest, (∀ c ∈ before, isDelimiter c = false) ∧ isDelimiter mark = true ∧
      chars = before ++ mark :: rest := by
  induction chars with
  | nil => exact absurd (fun _ hc => absurd hc List.not_mem_nil) h
  | cons c chars ih =>
    by_cases hc : isDelimiter c = true
    · exact ⟨[], c, chars, by simp, hc, rfl⟩
    · have hfree : isDelimiter c = false := by simpa using hc
      obtain ⟨before, mark, rest, hbefore, hmark, rfl⟩ := ih fun hall =>
        h (List.forall_mem_cons.mpr ⟨hfree, hall⟩)
      exact ⟨c :: before, mark, rest, List.forall_mem_cons.mpr ⟨hfree, hbefore⟩, hmark, rfl⟩

private theorem length_lt_key (sectionName id : String) :
    id.length < (sectionName ++ "." ++ id).length := by
  have hdot : ".".length = 1 := rfl
  rw [String.length_append, String.length_append]
  omega

/-- When a section has a delimiter, more than the id remains of a key. -/
theorem length_lt_text_dropSection {sectionName : String} (hmarked : ¬ DelimiterFree sectionName)
    (id : String) :
    id.length < (parse (sectionName ++ "." ++ id)).dropSection.text.length := by
  obtain ⟨before, mark, rest, hfree, hmark, hsection⟩ := exists_first_delimiter hmarked
  have hkey : (sectionName ++ "." ++ id).toList = before ++ mark :: (rest ++ '.' :: id.toList) := by
    simp [hsection]
  by_cases hdot : mark = '.'
  · -- The key is cut at a `.` inside the section, and the rest of the section stays.
    have hcut : sectionName ++ "." ++ id =
        String.ofList before ++ "." ++ (String.ofList rest ++ "." ++ id) := by
      rw [← String.toList_inj, hkey, hdot]
      simp
    have hbefore : DelimiterFree (String.ofList before) := by
      simpa [DelimiterFree] using hfree
    rw [hcut, dropSection_parse hbefore, text_parse]
    exact length_lt_key _ id
  · -- The first delimiter is no `.`, so the key stays as it is.
    have hother : mark = '#' ∨ mark = '@' := by
      simpa [isDelimiter, hdot] using hmark
    rw [dropSection_parse_of_mark hfree hother hkey, text_parse]
    exact length_lt_key _ id

/-- Dropping the section from a key gives the id back exactly when the section has no delimiter. -/
theorem text_dropSection_eq_iff {sectionName id : String} :
    (parse (sectionName ++ "." ++ id)).dropSection.text = id ↔ DelimiterFree sectionName := by
  constructor
  · intro heq
    by_contra hmarked
    have hlt := length_lt_text_dropSection hmarked id
    rw [heq] at hlt
    exact Nat.lt_irrefl _ hlt
  · intro hfree
    rw [dropSection_parse hfree, text_parse]

/-- A name is its owner's text followed by its last segment. -/
theorem ownerText_append_lastSegment (name : QualifiedName) :
    name.ownerText ++ name.lastSegment = name.text := by
  cases hparent : name.parent? with
  | none =>
    have hmembers := members_eq_nil_of_parent? hparent
    rw [← String.toList_inj]
    simp [ownerText, hparent, lastSegment, text, chars, hmembers]
  | some parent =>
    obtain ⟨qualifier, segment, hlast, hchars⟩ := chars_eq_of_parent? hparent
    rw [← String.toList_inj]
    simp [ownerText, hparent, lastSegment, qualifier?, hlast, text, hchars]

/-- The last segment of an id with its delimiter. A bare head goes by itself. -/
def memberText (id : String) : String :=
  match (parse id).members.getLast? with
  | some (qualifier, name) => String.ofList (qualifier.mark :: name.toList)
  | none => id

/-- A key below the key of a symbol is that key and a last segment, and dropping the section leaves
the id of the symbol and this segment. -/
theorem exists_member_of_parent? {sectionName owner key : String}
    (hfree : DelimiterFree sectionName) {parent : QualifiedName}
    (hparent : (parse key).parent? = some parent)
    (htext : parent.text = sectionName ++ "." ++ owner) :
    ∃ member, key = sectionName ++ "." ++ (owner ++ member) ∧
      memberText (owner ++ member) = member := by
  obtain ⟨qualifier, segment, hlast, hchars⟩ := chars_eq_of_parent? hparent
  let member := String.ofList (qualifier.mark :: segment.toList)
  have hkey : key = sectionName ++ "." ++ (owner ++ member) := by
    rw [← String.append_assoc, ← htext, ← String.toList_inj, ← chars_parse, hchars]
    simp [member, text]
  refine ⟨member, hkey, ?_⟩
  rw [hkey, parse_section hfree] at hlast hparent
  cases hmembers : (parse (owner ++ member)).members with
  | nil =>
    -- The section alone is no key below a symbol: the text of the parent is longer.
    rw [hmembers] at hparent
    obtain rfl := Option.some.inj hparent
    have hlength := congrArg String.length htext
    have hdot : ".".length = 1 := rfl
    simp only [text, chars, List.dropLast_singleton, List.flatMap_nil, List.append_nil,
      String.ofList_toList, String.length_append, hdot] at hlength
    omega
  | cons first rest =>
    rw [hmembers, List.getLast?_cons_cons] at hlast
    rw [memberText, hmembers, hlast]

end QualifiedName

end SymbolTree
