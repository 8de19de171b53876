import SymbolTree.Decimal.Binary64

/-!
# Shortest decimals

The fewest significant digits that read back as a given double-precision number. For one digit, two
digits and so on, the two neighbours of the number on the decimal grid are tested against the
interval of reals that round to it; of two hits the nearer one is taken, the even one on a tie.
-/

namespace SymbolTree

/-- The decimal number `digits * 10 ^ power`. -/
structure Decimal where
  /-- The significant digits, read as one integer. -/
  digits : Nat
  /-- The power of ten that scales them. -/
  power : Int
deriving DecidableEq, Repr

namespace Decimal

/-- The number of digits of a positive integer. -/
def digitCount (n : Nat) : Nat := (Nat.toDigits 10 n).length

/-- The exponent of the leading digit of a positive fraction. -/
def leadingPower (num den : Nat) : Int :=
  if den ≤ num then (digitCount (num / den) : Int) - 1
  else -(digitCount ((den + num - 1) / num - 1) : Int)

/-- Drop trailing zeros, at most `count` of them. -/
def trimZeros : (count : Nat) → Decimal → Decimal
  | 0, d => d
  | count + 1, d =>
    if d.digits % 10 = 0 then trimZeros count ⟨d.digits / 10, d.power + 1⟩ else d

/-- The interval of reals that round to one magnitude, in quarters of its last binary place. -/
structure RoundingInterval where
  /-- Lower end. -/
  low : Nat
  /-- The magnitude itself. -/
  centre : Nat
  /-- Upper end. -/
  high : Nat
  /-- Whether the ends round to the magnitude as well. -/
  closed : Bool
  /-- Value of one quarter, as a fraction. -/
  quarter : Nat × Nat

/-- The rounding interval of a finite number. The gap below a power of two is half as wide. -/
def roundingInterval (x : Binary64) : RoundingInterval :=
  let m := x.mantissa
  let below := if x.fractionBits = 0 && 1 < x.exponentBits then 1 else 2
  let power := x.exponent - 2
  ⟨4 * m - below, 4 * m, 4 * m + 2, m % 2 == 0, (1 <<< power.toNat, 1 <<< (-power).toNat)⟩

/-- The neighbour on the grid of `count` digits that reads back, if one does. -/
def onGrid? (interval : RoundingInterval) (leading : Int) (count : Nat) : Option Decimal :=
  let power := leading - count + 1
  -- one unit of the grid and one quarter of the interval, over a common denominator
  let unit := tenPow power.toNat * interval.quarter.2
  let quarter := interval.quarter.1 * tenPow (-power).toNat
  let inside (n : Nat) : Bool :=
    let value := n * unit
    if interval.closed then interval.low * quarter ≤ value && value ≤ interval.high * quarter
    else interval.low * quarter < value && value < interval.high * quarter
  let centre := interval.centre * quarter
  let down := centre / unit
  let up := down + 1
  match inside down, inside up with
  | false, false => none
  | true, false => some ⟨down, power⟩
  | false, true => some ⟨up, power⟩
  | true, true =>
    let below := centre - down * unit
    let above := up * unit - centre
    if below < above || (below == above && down % 2 == 0) then some ⟨down, power⟩
    else some ⟨up, power⟩

/-- The shortest decimal that reads back as the magnitude of a finite number. -/
def shortest (x : Binary64) : Decimal :=
  if x.mantissa = 0 then ⟨0, 0⟩
  else
    let interval := roundingInterval x
    let leading := leadingPower x.fraction.1 x.fraction.2
    match (List.range 17).findSome? fun n => onGrid? interval leading (n + 1) with
    | some d => trimZeros 20 d
    | none => ⟨0, 0⟩

end Decimal

end SymbolTree
