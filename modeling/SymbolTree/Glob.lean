/-!
# Path patterns

A pattern is matched against a whole text: `?` stands for one character, `*` for any characters, a
bracket for one character of a class, and `**` as a whole component for any number of components.
-/

namespace SymbolTree

/-- One part of a pattern. -/
inductive GlobToken where
  /-- This character. -/
  | char (c : Char)
  /-- Any character. -/
  | anyChar
  /-- Any characters. -/
  | anyText
  /-- Any number of components. -/
  | anyComponents
  /-- A character in one of the ranges. -/
  | within (ranges : List (Char × Char))
  /-- A character outside all of the ranges. -/
  | except (ranges : List (Char × Char))
deriving DecidableEq, Repr

/-- A pattern. -/
structure Glob where
  /-- Its parts, in order. -/
  tokens : List GlobToken
deriving DecidableEq, Repr

namespace Glob

/-- The ranges that a class lists. A single character is a range of its own. -/
def ranges : List Char → List (Char × Char)
  | low :: '-' :: high :: rest => (low, high) :: ranges rest
  | c :: rest => (c, c) :: ranges rest
  | [] => []

/-- Whether a character lies in one of the ranges. -/
def inRanges (ranges : List (Char × Char)) (c : Char) : Bool :=
  ranges.any fun range => range.1 ≤ c && c ≤ range.2

/-- Cut a class off after its opening bracket: the class and what follows it. A closing bracket in
first place belongs to the class. -/
def cutClass? (cs : List Char) : Option (GlobToken × List Char) :=
  let close (first : Char) (rest : List Char) : Option (List (Char × Char) × List Char) :=
    match rest.dropWhile (· ≠ ']') with
    | _ :: after => some (ranges (first :: rest.takeWhile (· ≠ ']')), after)
    | [] => none
  match cs with
  | '!' :: first :: rest => (close first rest).map fun (range, after) => (.except range, after)
  | ['!'] | [] => none
  | first :: rest => (close first rest).map fun (range, after) => (.within range, after)

/-- Read the parts of a pattern. `atStart` says whether a component starts here; `fuel` bounds the
number of parts. -/
def tokens? : (fuel : Nat) → (atStart : Bool) → List Char → Option (List GlobToken)
  | 0, _, _ => none
  | _ + 1, _, [] => some []
  | fuel + 1, atStart, c :: rest =>
    if c = '?' then (tokens? fuel false rest).map (.anyChar :: ·)
    else if c = '*' then
      match rest.takeWhile (· == '*'), rest.dropWhile (· == '*') with
      | [], after => (tokens? fuel false after).map (.anyText :: ·)
      | [_], [] => if atStart then some [.anyComponents] else none
      | [_], next :: after =>
        if atStart ∧ next = '/' then (tokens? fuel true after).map (.anyComponents :: ·) else none
      | _, _ => none
    else if c = '[' then do
      let (token, after) ← cutClass? rest
      return token :: (← tokens? fuel false after)
    else (tokens? fuel (c = '/') rest).map (.char c :: ·)

/-- Read a pattern; `none` if it is malformed. -/
def parse? (pattern : String) : Option Glob :=
  (tokens? (pattern.toList.length + 1) true pattern.toList).map (⟨·⟩)

/-- Whether a part that stands for one character accepts it. -/
def accepts : GlobToken → Char → Bool
  | .char expected, c => expected == c
  | .anyChar, _ => true
  | .within ranges, c => inRanges ranges c
  | .except ranges, c => !inRanges ranges c
  | .anyText, _ | .anyComponents, _ => false

/-!
## Matching

The rests of a text are the text itself, the text without its first character, and so on down to the
empty text. A pattern is matched from its last part to its first, and each part turns the answers
for the rests of the text into new ones, so the time is the product of the two lengths.
-/

/-- The answers for the empty pattern, which matches the empty rest only. -/
def emptyAnswers : List Char → List Bool
  | [] => [true]
  | _ :: rest => false :: emptyAnswers rest

/-- The first of the answers. -/
def firstAnswer (answers : List Bool) : Bool := answers.head?.getD false

/-- One character that `token` accepts, and then what `answers` says. -/
def afterChar (token : GlobToken) : List Char → List Bool → List Bool
  | c :: rest, _ :: later => (accepts token c && firstAnswer later) :: afterChar token rest later
  | _, _ => [false]

/-- Any characters, and then what `answers` says. -/
def afterText : List Bool → List Bool
  | [] => []
  | answer :: later =>
    let further := afterText later
    (answer || firstAnswer further) :: further

/-- What `answers` says at the end or after some slash. -/
def afterSlash : List Char → List Bool → List Bool
  | c :: rest, _ :: later =>
    let further := afterSlash rest later
    ((c == '/' && firstAnswer later) || firstAnswer further) :: further
  | _, answers => answers

/-- For each rest of a text, whether the parts match all of it. Any number of components end where
they started, after a slash, or at the end. -/
def answers : List GlobToken → List Char → List Bool
  | [], cs => emptyAnswers cs
  | token :: tokens, cs =>
    let later := answers tokens cs
    match token with
    | .anyText => afterText later
    | .anyComponents => List.zipWith (· || ·) later (afterSlash cs later)
    | _ => afterChar token cs later

/-- Whether a pattern matches a whole text. -/
def matchesText (glob : Glob) (text : String) : Bool :=
  firstAnswer (answers glob.tokens text.toList)

/-- The text of a pattern without special parts. -/
def literal? (glob : Glob) : Option String :=
  (glob.tokens.mapM fun
    | GlobToken.char c => some c
    | _ => none).map String.ofList

/-- Whether the pattern stands for any number of components. -/
def isRecursive (glob : Glob) : Bool := glob.tokens.contains .anyComponents

/-- Whether the pattern starts with a dot of its own. -/
def startsWithDot (glob : Glob) : Bool := glob.tokens.head? == some (.char '.')

end Glob

end SymbolTree
