import SymbolTree.Toml

/-!
# Numbers and dates

Scalars without quotes are single words. Underscores may separate digits, and leading zeros are
refused in decimal integers.
-/

namespace SymbolTree.Toml.Scalar

/-- A value that is written without quotes. -/
inductive Word where
  | integer (value : Int)
  | float (value : Binary64)
  | boolean (value : Bool)
  | moment (value : String)

/-- Characters of unquoted scalars. -/
def isWordChar (c : Char) : Bool :=
  c.isAlphanum || c == '_' || c == '+' || c == '-' || c == '.' || c == ':'

/-- Digits with single underscores between them; the underscores are dropped. -/
def digits? (isDigit : Char → Bool) : List Char → Option (List Char)
  | [] => none
  | [c] => if isDigit c then some [c] else none
  | c :: '_' :: rest => if isDigit c then (digits? isDigit rest).map (c :: ·) else none
  | c :: rest => if isDigit c then (digits? isDigit rest).map (c :: ·) else none

/-- The value of a digit in a base up to sixteen. -/
def digitValue (c : Char) : Nat :=
  if c.isDigit then c.toNat - '0'.toNat
  else if c.isLower then c.toNat - 'a'.toNat + 10
  else c.toNat - 'A'.toNat + 10

/-- The value of digits in a base. -/
def natOf (base : Nat) (digits : List Char) : Nat :=
  digits.foldl (fun n c => n * base + digitValue c) 0

/-- Digits of a base below or equal to sixteen. -/
def isDigitOf (base : Nat) (c : Char) : Bool :=
  (c.isDigit || ('a' ≤ c ∧ c ≤ 'f') || ('A' ≤ c ∧ c ≤ 'F')) && digitValue c < base

/-- An integer of sixty-four bits with a sign. -/
def bounded? (n : Int) : Option Int :=
  if -0x8000000000000000 ≤ n ∧ n < 0x8000000000000000 then some n else none

/-- Cut a sign off: whether it is a minus, and the rest. -/
def cutSign : List Char → Bool × List Char
  | '+' :: rest => (false, rest)
  | '-' :: rest => (true, rest)
  | cs => (false, cs)

/-- Whole digits without a leading zero. -/
def whole? (cs : List Char) : Option (List Char) := do
  let ds ← digits? Char.isDigit cs
  if ds.head? = some '0' && ds.length ≠ 1 then none else some ds

/-- An exponent after its letter. -/
def exponent? (cs : List Char) : Option Int := do
  let (negative, rest) := cutSign cs
  let ds ← digits? Char.isDigit rest
  let n : Int := natOf 10 ds
  return if negative then -n else n

/-- Digits and underscores at the front. -/
def cutDigits (cs : List Char) : List Char × List Char :=
  (cs.takeWhile fun c => c.isDigit || c == '_', cs.dropWhile fun c => c.isDigit || c == '_')

/-- A double from its digits. Beyond the range there is only the negative infinity. -/
def double? (negative : Bool) (whole fraction : List Char) (exponent : Int) : Option Word :=
  let value := Binary64.ofDecimal negative (natOf 10 (whole ++ fraction))
    (exponent - fraction.length)
  if value == Binary64.infinity false then none else some (.float value)

/-- A decimal integer or a double. -/
def decimal? (cs : List Char) : Option Word := do
  let (negative, rest) := cutSign cs
  let (front, tail) := cutDigits rest
  let whole ← whole? front
  match tail with
  | [] =>
    let n : Int := natOf 10 whole
    let n ← bounded? (if negative then -n else n)
    return .integer n
  | '.' :: afterPoint =>
    let (front, tail) := cutDigits afterPoint
    let fraction ← digits? Char.isDigit front
    match tail with
    | [] => double? negative whole fraction 0
    | c :: rest =>
      if c == 'e' || c == 'E' then double? negative whole fraction (← exponent? rest) else none
  | c :: rest =>
    if c == 'e' || c == 'E' then double? negative whole [] (← exponent? rest) else none

/-- An integer in another base, after its mark. -/
def based? (base : Nat) (cs : List Char) : Option Word := do
  let ds ← digits? (isDigitOf base) cs
  let n ← bounded? (natOf base ds)
  return .integer n

/-! ## Dates -/

/-- The number that two digits write, within bounds. -/
def twoDigits? (low high : Nat) : List Char → Option Nat
  | [a, b] =>
    let n := natOf 10 [a, b]
    if a.isDigit && b.isDigit && low ≤ n && n ≤ high then some n else none
  | _ => none

/-- The number of days of a month. -/
def daysIn (year month : Nat) : Nat :=
  if month == 2 then
    if (year % 4 == 0 && year % 100 != 0) || year % 400 == 0 then 29 else 28
  else if month == 4 || month == 6 || month == 9 || month == 11 then 30
  else 31

/-- The ten characters of a date. -/
def isDate (cs : List Char) : Bool :=
  match cs with
  | [y₁, y₂, y₃, y₄, '-', m₁, m₂, '-', d₁, d₂] =>
    [y₁, y₂, y₃, y₄].all Char.isDigit &&
      match twoDigits? 1 12 [m₁, m₂] with
      | some month => (twoDigits? 1 (daysIn (natOf 10 [y₁, y₂, y₃, y₄]) month) [d₁, d₂]).isSome
      | none => false
  | _ => false

/-- The eight characters of a time without a fraction. A leap second may be the sixtieth. -/
def isClock (cs : List Char) : Bool :=
  match cs with
  | [h₁, h₂, ':', m₁, m₂, ':', s₁, s₂] =>
    (twoDigits? 0 23 [h₁, h₂]).isSome && (twoDigits? 0 59 [m₁, m₂]).isSome
      && (twoDigits? 0 60 [s₁, s₂]).isSome
  | _ => false

/-- The fraction of a second, to nine places and without trailing zeros. -/
def fractionText (digits : List Char) : List Char :=
  match ((digits.take 9).reverse.dropWhile (· == '0')).reverse with
  | [] => []
  | kept => '.' :: kept

/-- A time with an optional fraction, and what follows it. -/
def cutTime? (cs : List Char) : Option (List Char × List Char) :=
  let clock := cs.take 8
  if isClock clock then
    match cs.drop 8 with
    | '.' :: rest =>
      let digits := rest.takeWhile Char.isDigit
      if digits.isEmpty then none
      else some (clock ++ fractionText digits, rest.dropWhile Char.isDigit)
    | rest => some (clock, rest)
  else none

/-- The normal form of an offset from universal time. -/
def offset? : List Char → Option (List Char)
  | [] => some []
  | ['Z'] | ['z'] => some ['Z']
  | [sign, h₁, h₂, ':', m₁, m₂] =>
    if (sign == '+' || sign == '-') && (twoDigits? 0 23 [h₁, h₂]).isSome
        && (twoDigits? 0 59 [m₁, m₂]).isSome then
      if [h₁, h₂, m₁, m₂].all (· == '0') then some "+00:00".toList
      else some [sign, h₁, h₂, ':', m₁, m₂]
    else none
  | _ => none

/-- A date, a time, or a date with a time. -/
def moment? (cs : List Char) : Option Word :=
  let date := cs.take 10
  if isDate date then
    match cs.drop 10 with
    | [] => some (.moment (String.ofList date))
    | mark :: rest => do
      if mark == 'T' || mark == 't' || mark == ' ' then
        let (time, tail) ← cutTime? rest
        let offset ← offset? tail
        return .moment (String.ofList (date ++ 'T' :: time ++ offset))
      else none
  else do
    let (time, tail) ← cutTime? cs
    if tail.isEmpty then return .moment (String.ofList time) else none

/-- The value of a word. -/
def word? (cs : List Char) : Option Word :=
  match cs with
  | ['t', 'r', 'u', 'e'] => some (.boolean true)
  | ['f', 'a', 'l', 's', 'e'] => some (.boolean false)
  | '0' :: 'x' :: rest => based? 16 rest
  | '0' :: 'o' :: rest => based? 8 rest
  | '0' :: 'b' :: rest => based? 2 rest
  | _ =>
    match cutSign cs with
    | (negative, ['i', 'n', 'f']) => some (.float (.infinity negative))
    | (negative, ['n', 'a', 'n']) => some (.float (.notANumber negative))
    | _ => (moment? cs).orElse fun _ => decimal? cs

end SymbolTree.Toml.Scalar
