import SymbolTree.Decimal.Shortest

/-!
# The text of a decimal

A layout decides which decimals are written positionally. All others are written with one digit
before the point and an exponent.
-/

namespace SymbolTree.Decimal

/-- Where positional notation ends, and how the exponent beyond it is written. -/
structure Layout where
  /-- The most digits before the point. -/
  mostWhole : Int
  /-- The most zeros between the point and the first digit. -/
  mostZeros : Int
  /-- Whether an exponent that is not negative carries a plus sign. -/
  plusSign : Bool

/-- The digits of a natural number. -/
def digitChars (n : Nat) : List Char := Nat.toDigits 10 n

/-- The text of an integer. -/
def integerChars : Int → List Char
  | .ofNat n => digitChars n
  | .negSucc n => '-' :: digitChars (n + 1)

/-- The exponent mark and the exponent. -/
def Layout.exponentChars (layout : Layout) (exponent : Int) : List Char :=
  if layout.plusSign && 0 ≤ exponent then 'e' :: '+' :: integerChars exponent
  else 'e' :: integerChars exponent

/-- A decimal under a layout. Whole numbers keep one zero after the point. -/
def Layout.chars (layout : Layout) (d : Decimal) : List Char :=
  let digits := digitChars d.digits
  let point : Int := digits.length + d.power
  if 0 ≤ d.power ∧ point ≤ layout.mostWhole then
    digits ++ List.replicate d.power.toNat '0' ++ ['.', '0']
  else if 0 < point ∧ point ≤ layout.mostWhole then
    digits.take point.toNat ++ '.' :: digits.drop point.toNat
  else if -layout.mostZeros ≤ point ∧ point ≤ 0 then
    '0' :: '.' :: List.replicate (-point).toNat '0' ++ digits
  else
    let exponent := layout.exponentChars (point - 1)
    match digits with
    | first :: second :: rest => first :: '.' :: second :: rest ++ exponent
    | _ => digits ++ exponent

end SymbolTree.Decimal
