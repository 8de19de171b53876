import SymbolTree.Document
import SymbolTree.Json.Reader
import SymbolTree.Text.Blank
import Mathlib.Data.List.Basic

/-!
# The two forms of a written value

A value is written in a compact and in an indented form. `dropSpace` scans a text, keeps track of
the quoted texts in it and deletes the white space between them. What stands outside quoted texts is
made of a few marks, so deleting the white space of the indented form undoes the indentation and
nothing else: the compact form is left.
-/

namespace SymbolTree.Json

/-- Where a scan of a written value stands. -/
inductive ScanState where
  /-- Outside quoted texts. -/
  | outside
  /-- Inside a quoted text. -/
  | quoted
  /-- Inside a quoted text, right after a backslash. -/
  | escaped
deriving DecidableEq

/-- Where a scan stands after one more character. -/
def ScanState.after : ScanState → Char → ScanState
  | .outside, c => if c = '"' then .quoted else .outside
  | .quoted, c => if c = '"' then .outside else if c = '\\' then .escaped else .quoted
  | .escaped, _ => .quoted

/-- Delete the white space outside quoted texts. -/
def dropSpace (white : Char → Bool) : ScanState → List Char → List Char
  | _, [] => []
  | state, c :: rest =>
    if state = .outside ∧ white c = true then dropSpace white state rest
    else c :: dropSpace white (state.after c) rest

/-- The characters that a compact value has outside quoted texts. -/
def marks : List Char :=
  ['{', '}', '[', ']', ',', ':', '-', '+', '.', '0', '1', '2', '3', '4', '5', '6', '7', '8', '9',
    'a', 'e', 'f', 'l', 'n', 'r', 's', 't', 'u']

/-- A notion of white space that includes what indentation inserts and excludes what a compact value
has outside quoted texts. -/
structure SetsApart (white : Char → Bool) : Prop where
  /-- Blanks are white space. -/
  blank : white ' ' = true
  /-- Line breaks are white space. -/
  newline : white '\n' = true
  /-- Quotes are no white space. -/
  quote : white '"' = false
  /-- Marks are no white space. -/
  mark : ∀ c ∈ marks, white c = false

/-- No mark is white space if a search finds none that is. -/
private theorem mark_of_any {white : Char → Bool} (hnone : marks.any white = false) :
    ∀ c ∈ marks, white c = false := by
  simpa only [List.any_eq_false, Bool.not_eq_true] using hnone

/-- What a reader skips between tokens. -/
theorem setsApart_isGap : SetsApart Reader.isGap where
  blank := by decide
  newline := by decide
  quote := by decide
  mark := mark_of_any (by decide)

/-- What the Unicode standard calls white space. -/
theorem setsApart_whiteSpace : SetsApart Text.whiteSpace.contains where
  blank := by decide +kernel
  newline := by decide +kernel
  quote := by decide +kernel
  mark := mark_of_any (by decide +kernel)

variable {white : Char → Bool}

/-! ## Outside quoted texts -/

/-- A scan deletes white space. -/
private theorem dropSpace_space {space : List Char} (hspace : ∀ c ∈ space, white c = true)
    (rest : List Char) :
    dropSpace white .outside (space ++ rest) = dropSpace white .outside rest := by
  induction space with
  | nil => rfl
  | cons c space ih =>
    obtain ⟨hc, hspace⟩ := List.forall_mem_cons.mp hspace
    rw [List.cons_append, dropSpace, if_pos ⟨rfl, hc⟩, ih hspace]

namespace SetsApart

/-- A scan keeps a mark. -/
theorem dropSpace_mark (h : SetsApart white) {c : Char} (hc : c ∈ marks) (rest : List Char) :
    dropSpace white .outside (c :: rest) = c :: dropSpace white .outside rest := by
  have hquote : c ≠ '"' := by
    rintro rfl
    exact absurd hc (by decide)
  rw [dropSpace, if_neg (by simp [h.mark c hc]), ScanState.after, if_neg hquote]

/-- A scan keeps a token that is made of marks. -/
theorem dropSpace_token (h : SetsApart white) (token : List Char) (htoken : token ⊆ marks)
    (rest : List Char) :
    dropSpace white .outside (token ++ rest) = token ++ dropSpace white .outside rest := by
  induction token with
  | nil => rfl
  | cons c token ih =>
    obtain ⟨hc, htoken⟩ := List.cons_subset.mp htoken
    rw [List.cons_append, h.dropSpace_mark hc, ih htoken, List.cons_append]

/-- A scan deletes a blank. -/
theorem dropSpace_blank (h : SetsApart white) (rest : List Char) :
    dropSpace white .outside (' ' :: rest) = dropSpace white .outside rest := by
  rw [dropSpace, if_pos ⟨rfl, h.blank⟩]

/-- A scan deletes the beginning of a new line. -/
theorem dropSpace_lineBreak (h : SetsApart white) (level : Nat) (rest : List Char) :
    dropSpace white .outside (lineBreak level ++ rest) = dropSpace white .outside rest := by
  apply dropSpace_space
  intro c hc
  rcases List.mem_cons.mp hc with rfl | hc
  · exact h.newline
  · rw [List.eq_of_mem_replicate hc, h.blank]

end SetsApart

/-! ## Quoted texts -/

/-- A character of a quoted text is written as an escape of two characters, as an escape with four
hexadecimal digits, or as itself. -/
private theorem escapeChar_cases (c : Char) :
    (∃ letter, escapeChar c = ['\\', letter]) ∨
      (∃ high low, escapeChar c = ['\\', 'u', '0', '0', hexDigit high, hexDigit low]) ∨
      escapeChar c = [c] ∧ c ≠ '"' ∧ c ≠ '\\' := by
  by_cases hquote : c = '"'
  · exact .inl ⟨_, if_pos hquote⟩
  by_cases hbackslash : c = '\\'
  · exact .inl ⟨_, (if_neg hquote).trans (if_pos hbackslash)⟩
  rw [escapeChar, if_neg hquote, if_neg hbackslash]
  iterate 5
    split
    · exact .inl ⟨_, rfl⟩
  split
  · exact .inr (.inl ⟨_, _, rfl⟩)
  · exact .inr (.inr ⟨rfl, hquote, hbackslash⟩)

/-- A hexadecimal digit neither ends a quoted text nor starts an escape. -/
private theorem plain_hexDigit (n : Nat) : hexDigit n ≠ '"' ∧ hexDigit n ≠ '\\' := by
  have hdigits : ∀ digit < 16, Nat.digitChar digit ≠ '"' ∧ Nat.digitChar digit ≠ '\\' := by decide
  exact hdigits (n % 16) (Nat.mod_lt n (by decide))

/-- A scan copies a backslash together with what it escapes. -/
private theorem dropSpace_escape (letter : Char) (rest : List Char) :
    dropSpace white .quoted ('\\' :: letter :: rest) =
      '\\' :: letter :: dropSpace white .quoted rest := by
  simp [dropSpace, ScanState.after]

/-- A scan copies what neither ends a quoted text nor starts an escape. -/
private theorem dropSpace_plain {c : Char} (hplain : c ≠ '"' ∧ c ≠ '\\') (rest : List Char) :
    dropSpace white .quoted (c :: rest) = c :: dropSpace white .quoted rest := by
  simp [dropSpace, ScanState.after, hplain]

/-- A scan copies every character of a quoted text in the form in which it is written, and stays
inside the text. -/
private theorem dropSpace_escapeChar (c : Char) (rest : List Char) :
    dropSpace white .quoted (escapeChar c ++ rest) =
      escapeChar c ++ dropSpace white .quoted rest := by
  rcases escapeChar_cases c with ⟨letter, heq⟩ | ⟨high, low, heq⟩ | ⟨heq, hplain⟩
  · rw [heq]
    exact dropSpace_escape letter rest
  · rw [heq]
    simp only [List.cons_append, List.nil_append]
    rw [dropSpace_escape, dropSpace_plain (by decide), dropSpace_plain (by decide),
      dropSpace_plain (plain_hexDigit high), dropSpace_plain (plain_hexDigit low)]
  · rw [heq]
    exact dropSpace_plain hplain rest

/-- A scan copies a quoted text whole, the white space in it included. -/
private theorem SetsApart.dropSpace_quotedChars (h : SetsApart white) (text : String)
    (rest : List Char) :
    dropSpace white .outside (quotedChars text ++ rest) =
      quotedChars text ++ dropSpace white .outside rest := by
  have hopening (tail : List Char) :
      dropSpace white .outside ('"' :: tail) = '"' :: dropSpace white .quoted tail := by
    simp [dropSpace, ScanState.after, h.quote]
  have hclosing : dropSpace white .quoted ('"' :: rest) = '"' :: dropSpace white .outside rest := by
    simp [dropSpace, ScanState.after]
  have hcontent (chars : List Char) :
      dropSpace white .quoted (chars.flatMap escapeChar ++ '"' :: rest) =
        chars.flatMap escapeChar ++ '"' :: dropSpace white .outside rest := by
    -- The scan is inside the text before and after each character, and leaves it at the end.
    induction chars with
    | nil => exact hclosing
    | cons c chars ih =>
      rw [List.flatMap_cons, List.append_assoc, dropSpace_escapeChar, ih, List.append_assoc]
  simp only [quotedChars, List.cons_append, List.append_assoc, List.nil_append]
  rw [hopening, hcontent]

/-! ## Numbers -/

/-- Decimal digits are marks. -/
private theorem mem_marks_of_isDigit {c : Char} (h : c.isDigit = true) : c ∈ marks := by
  have hdigits : ∀ n ≤ 57, 48 ≤ n → Char.ofNat n ∈ marks := by decide
  simp only [Char.isDigit, Bool.and_eq_true, decide_eq_true_eq] at h
  rw [← Char.ofNat_toNat c]
  exact hdigits c.toNat h.2 h.1

/-- A natural number is made of marks. -/
private theorem digitChars_subset (n : Nat) : Decimal.digitChars n ⊆ marks := fun _ hc =>
  mem_marks_of_isDigit (Nat.isDigit_of_mem_toDigits (by decide) (by decide) hc)

/-- An integer is made of marks. -/
private theorem integerChars_subset (n : Int) : Decimal.integerChars n ⊆ marks := by
  cases n with
  | ofNat n => exact digitChars_subset n
  | negSucc n => exact List.cons_subset.mpr ⟨by decide, digitChars_subset (n + 1)⟩

/-- An exponent is made of marks. -/
private theorem exponentChars_subset (layout : Decimal.Layout) (exponent : Int) :
    layout.exponentChars exponent ⊆ marks := by
  have hdigits := integerChars_subset exponent
  have hmark : 'e' ∈ marks := by decide
  have hplus : '+' ∈ marks := by decide
  unfold Decimal.Layout.exponentChars
  split
  · exact List.cons_subset.mpr ⟨hmark, List.cons_subset.mpr ⟨hplus, hdigits⟩⟩
  · exact List.cons_subset.mpr ⟨hmark, hdigits⟩

/-- A decimal is made of marks under every layout. -/
private theorem layoutChars_subset (layout : Decimal.Layout) (d : Decimal) :
    layout.chars d ⊆ marks := by
  have hdigits := digitChars_subset d.digits
  have hpoint : '.' ∈ marks := by decide
  have hzero : '0' ∈ marks := by decide
  have hzeros (count : Nat) : List.replicate count '0' ⊆ marks := fun _ hc =>
    List.eq_of_mem_replicate hc ▸ hzero
  unfold Decimal.Layout.chars
  simp only
  split_ifs
  · simp only [List.append_subset, List.cons_subset, List.nil_subset, and_true]
    exact ⟨⟨hdigits, hzeros _⟩, hpoint, hzero⟩
  · simp only [List.append_subset, List.cons_subset]
    exact ⟨List.Subset.trans (List.take_subset _ _) hdigits, hpoint,
      List.Subset.trans (List.drop_subset _ _) hdigits⟩
  · simp only [List.append_subset, List.cons_subset]
    exact ⟨⟨hzero, hpoint, hzeros _⟩, hdigits⟩
  · split
    · rename_i heq
      rw [heq] at hdigits
      simp only [List.append_subset, List.cons_subset] at hdigits ⊢
      exact ⟨⟨hdigits.1, hpoint, hdigits.2⟩, exponentChars_subset layout _⟩
    · exact List.append_subset.mpr ⟨hdigits, exponentChars_subset layout _⟩

/-- A number is made of marks. -/
private theorem numberChars_subset (n : Number) : n.chars ⊆ marks := by
  cases n with
  | integer n => exact integerChars_subset n
  | float x =>
    have hmagnitude := layoutChars_subset floatLayout (Decimal.shortest x)
    simp only [Number.chars]
    split_ifs
    · exact List.cons_subset.mpr ⟨by decide, hmagnitude⟩
    · exact hmagnitude
    · decide

/-! ## Values -/

mutual

/-- A scan makes the compact form of the indented one, at any level and whatever follows. -/
theorem SetsApart.dropSpace_indentedChars (h : SetsApart white) (level : Nat) (value : Json)
    (rest : List Char) :
    dropSpace white .outside (indentedChars level value ++ rest) =
      compactChars value ++ dropSpace white .outside rest :=
  match value with
  | .null => h.dropSpace_token ['n', 'u', 'l', 'l'] (by decide) rest
  | .bool true => h.dropSpace_token ['t', 'r', 'u', 'e'] (by decide) rest
  | .bool false => h.dropSpace_token ['f', 'a', 'l', 's', 'e'] (by decide) rest
  | .number n => h.dropSpace_token _ (numberChars_subset n) rest
  | .string s => h.dropSpace_quotedChars s rest
  | .array [] => h.dropSpace_token ['[', ']'] (by decide) rest
  | .array (item :: items) => by
    simp only [indentedChars, compactChars, List.cons_append, List.append_assoc, List.nil_append]
    rw [h.dropSpace_mark (by decide), h.dropSpace_indentedItems (level + 1) (item :: items),
      h.dropSpace_lineBreak, h.dropSpace_mark (by decide)]
  | .object [] => h.dropSpace_token ['{', '}'] (by decide) rest
  | .object (field :: fields) => by
    simp only [indentedChars, compactChars, List.cons_append, List.append_assoc, List.nil_append]
    rw [h.dropSpace_mark (by decide), h.dropSpace_indentedFields (level + 1) (field :: fields),
      h.dropSpace_lineBreak, h.dropSpace_mark (by decide)]

/-- A scan joins the lines of the items of an array. -/
theorem SetsApart.dropSpace_indentedItems (h : SetsApart white) (level : Nat) (items : List Json)
    (rest : List Char) :
    dropSpace white .outside (indentedItems level items ++ rest) =
      compactItems items ++ dropSpace white .outside rest :=
  match items with
  | [] => rfl
  | [item] => by
    simp only [indentedItems, compactItems, List.append_assoc]
    rw [h.dropSpace_lineBreak, h.dropSpace_indentedChars level item]
  | item :: next :: items => by
    rw [indentedItems, compactItems]
    simp only [List.cons_append, List.append_assoc]
    rw [h.dropSpace_lineBreak, h.dropSpace_indentedChars level item, h.dropSpace_mark (by decide),
      h.dropSpace_indentedItems level (next :: items)]

/-- A scan joins the lines of the fields of an object. -/
theorem SetsApart.dropSpace_indentedFields (h : SetsApart white) (level : Nat)
    (fields : List (String × Json)) (rest : List Char) :
    dropSpace white .outside (indentedFields level fields ++ rest) =
      compactFields fields ++ dropSpace white .outside rest :=
  match fields with
  | [] => rfl
  | [(name, value)] => by
    simp only [indentedFields, compactFields, List.append_assoc, List.cons_append]
    rw [h.dropSpace_lineBreak, h.dropSpace_quotedChars, h.dropSpace_mark (by decide),
      h.dropSpace_blank, h.dropSpace_indentedChars level value]
  | (name, value) :: next :: fields => by
    rw [indentedFields, compactFields]
    simp only [List.append_assoc, List.cons_append]
    rw [h.dropSpace_lineBreak, h.dropSpace_quotedChars, h.dropSpace_mark (by decide),
      h.dropSpace_blank, h.dropSpace_indentedChars level value, h.dropSpace_mark (by decide),
      h.dropSpace_indentedFields level (next :: fields)]

end

end SymbolTree.Json

namespace SymbolTree.Document

open Json

/-- For every document, deleting the white space outside quoted texts from the indented text gives
the compact text, whether white space is what a reader skips between tokens or what the Unicode
standard calls so. -/
theorem dropSpace_indented_text (document : Document) :
    dropSpace Reader.isGap .outside (document.text true).toList = (document.text false).toList ∧
      dropSpace Text.whiteSpace.contains .outside (document.text true).toList =
        (document.text false).toList := by
  have hforms {white : Char → Bool} (h : SetsApart white) :
      dropSpace white .outside (document.text true).toList = (document.text false).toList := by
    have hscan := h.dropSpace_indentedChars 0 document.toJson []
    simpa [text, indented, compact, dropSpace] using hscan
  exact ⟨hforms setsApart_isGap, hforms setsApart_whiteSpace⟩

/-- One document in both forms. The blank in its title is no indentation. -/
example :
    let document : Document := { title := "My API", date := "", globals := ["Array"], tree := [] }
    document.text false =
      "\x7b\"title\":\"My API\",\"date\":\"\",\"globals\":[\"Array\"],\"tree\":[]\x7d" ∧
    document.text true =
      "\x7b\n    \"title\": \"My API\",\n    \"date\": \"\",\n" ++
        "    \"globals\": [\n        \"Array\"\n    ],\n    \"tree\": []\n\x7d" := by
  decide +kernel

end SymbolTree.Document
