import SymbolTree.Proofs.ParsedNames

/-!
# Navigation paths

A path sets `prototype` before the name of an instance member and `event` before that of an event,
and joins all words by `.`. Read from left to right, such a word announces what follows it, unless a
class member or a nested entity is itself called so. Without such names an id can be read back from
its path.
-/

namespace SymbolTree

namespace QualifiedName

/-- No class member or nested entity is called like a word that paths set before other segments. -/
def AvoidsPathWords (name : QualifiedName) : Prop :=
  ∀ member ∈ name.members, member.1 = .static → member.2 ≠ "prototype" ∧ member.2 ≠ "event"

instance (name : QualifiedName) : Decidable name.AvoidsPathWords :=
  inferInstanceAs (Decidable (∀ member ∈ name.members,
    member.1 = .static → member.2 ≠ "prototype" ∧ member.2 ≠ "event"))

/-- The characters of segments in a path. -/
def pathChars (members : List (Qualifier × String)) : List Char :=
  members.flatMap fun member => member.1.pathMark ++ member.2.toList

/-- The words of a segment in a path. The name of an event may have several. -/
def memberWords : Qualifier × String → List (List Char)
  | (.static, segment) => [segment.toList]
  | (.inst, segment) => ["prototype".toList, segment.toList]
  | (.event, segment) => "event".toList :: segment.toList.splitOn '.'

/-- Read segments from the words of a path. -/
def ofWords : List (List Char) → List (Qualifier × String)
  | [] => []
  | [word] => [(.static, String.ofList word)]
  | word :: next :: rest =>
    if word = "event".toList then [(.event, String.ofList (['.'].intercalate (next :: rest)))]
    else if word = "prototype".toList then (.inst, String.ofList next) :: ofWords rest
    else (.static, String.ofList word) :: ofWords (next :: rest)

/-- All words after `event` are the name of an event. -/
theorem ofWords_event {words : List (List Char)} (hwords : words ≠ []) :
    ofWords ("event".toList :: words) = [(.event, String.ofList (['.'].intercalate words))] := by
  obtain ⟨next, rest, rfl⟩ := List.exists_cons_of_ne_nil hwords
  rw [ofWords, if_pos rfl]

/-- The word after `prototype` is the name of an instance member. -/
theorem ofWords_prototype (segment : List Char) (words : List (List Char)) :
    ofWords ("prototype".toList :: segment :: words) =
      (.inst, String.ofList segment) :: ofWords words := by
  rw [ofWords, if_neg (by simp), if_pos rfl]

/-- Any other word is the name of a class member or a nested entity. -/
theorem ofWords_segment {segment : String} (hprototype : segment ≠ "prototype")
    (hevent : segment ≠ "event") (words : List (List Char)) :
    ofWords (segment.toList :: words) = (.static, segment) :: ofWords words := by
  cases words with
  | nil => rw [ofWords, ofWords, String.ofList_toList]
  | cons next rest =>
    rw [ofWords, if_neg (mt String.toList_inj.mp hevent),
      if_neg (mt String.toList_inj.mp hprototype), String.ofList_toList]

/-- Read a name from its path. -/
def ofPath (path : String) : QualifiedName :=
  let words := path.toList.splitOn '.'
  ⟨String.ofList (words.headD []), ofWords words.tail⟩

/-- In a path a word stands between an instance member or an event and its owner. -/
theorem pathMark_eq :
    Qualifier.inst.pathMark = '.' :: ("prototype".toList ++ ['.']) ∧
      Qualifier.event.pathMark = '.' :: ("event".toList ++ ['.']) := by
  decide

/-- A path consists of the words of its segments. -/
theorem Segments.splitOn_pathChars {members : List (Qualifier × String)} (h : Segments members)
    {segment : List Char} (hsegment : '.' ∉ segment) :
    (segment ++ pathChars members).splitOn '.' = segment :: members.flatMap memberWords := by
  induction h generalizing segment with
  | nil => simp [pathChars, List.splitOn_eq_singleton hsegment]
  | event text =>
    have hchars : pathChars [(.event, text)] = '.' :: ("event".toList ++ '.' :: text.toList) := by
      simp only [pathChars, List.flatMap_cons, List.flatMap_nil, pathMark_eq.2, List.append_nil,
        List.cons_append, List.append_assoc, List.nil_append]
    rw [hchars, List.splitOn_append_cons_self_of_not_mem hsegment,
      List.splitOn_append_cons_self_of_not_mem (by simp)]
    rw [List.flatMap_cons, List.flatMap_nil, List.append_nil, memberWords]
  | @cons qualifier first rest hevent hfree _ ih =>
    have hfirst := ih (hfree.notMem rfl)
    cases qualifier with
    | static =>
      have hchars : pathChars ((.static, first) :: rest) =
          '.' :: (first.toList ++ pathChars rest) := rfl
      rw [hchars, List.splitOn_append_cons_self_of_not_mem hsegment, hfirst]
      rfl
    | inst =>
      have hchars : pathChars ((.inst, first) :: rest) =
          '.' :: ("prototype".toList ++ '.' :: (first.toList ++ pathChars rest)) := by
        simp only [pathChars, List.flatMap_cons, pathMark_eq.1, List.cons_append,
          List.append_assoc, List.nil_append]
      rw [hchars, List.splitOn_append_cons_self_of_not_mem hsegment,
        List.splitOn_append_cons_self_of_not_mem (by simp), hfirst]
      rfl
    | event => exact absurd rfl hevent

/-- Segments are read back from their words, if none of them is called like a word of paths. -/
theorem Segments.ofWords_memberWords {members : List (Qualifier × String)} (h : Segments members)
    (havoids : ∀ member ∈ members, member.1 = .static →
      member.2 ≠ "prototype" ∧ member.2 ≠ "event") :
    ofWords (members.flatMap memberWords) = members := by
  induction h with
  | nil => rfl
  | event text =>
    have hwords : [(Qualifier.event, text)].flatMap memberWords =
        "event".toList :: text.toList.splitOn '.' := List.append_nil _
    rw [hwords, ofWords_event (List.splitOn_ne_nil _ _), List.intercalate_splitOn,
      String.ofList_toList]
  | @cons qualifier first rest hevent hfree _ ih =>
    have hrest := ih fun member hmember => havoids member (List.mem_cons_of_mem _ hmember)
    cases qualifier with
    | static =>
      obtain ⟨hprototype, hevent⟩ := havoids _ List.mem_cons_self rfl
      have hwords : ((Qualifier.static, first) :: rest).flatMap memberWords =
          first.toList :: rest.flatMap memberWords := rfl
      rw [hwords, ofWords_segment hprototype hevent, hrest]
    | inst =>
      have hwords : ((Qualifier.inst, first) :: rest).flatMap memberWords =
          "prototype".toList :: first.toList :: rest.flatMap memberWords := rfl
      rw [hwords, ofWords_prototype, hrest, String.ofList_toList]
    | event => exact absurd rfl hevent

/-- A name without misleading words is read back from its path. -/
theorem WellFormed.ofPath_path {name : QualifiedName} (h : name.WellFormed)
    (havoids : name.AvoidsPathWords) : ofPath name.path = name := by
  have hchars : name.path.toList = name.head.toList ++ pathChars name.members :=
    String.toList_ofList
  rw [ofPath, hchars, h.segments.splitOn_pathChars (h.head_free.notMem rfl)]
  simp [h.segments.ofWords_memberWords havoids]

/-- Ids without misleading words that have one path are one id. -/
theorem eq_of_path_parse_eq {a b : String} (ha : (parse a).AvoidsPathWords)
    (hb : (parse b).AvoidsPathWords) (hpath : (parse a).path = (parse b).path) : a = b := by
  have hname : parse a = parse b := by
    rw [← (wellFormed_parse a).ofPath_path ha, hpath, (wellFormed_parse b).ofPath_path hb]
  rw [← text_parse a, hname, text_parse]

example : (parse "A.prototype.b").path = (parse "A#b").path := by decide +kernel

end QualifiedName

end SymbolTree
