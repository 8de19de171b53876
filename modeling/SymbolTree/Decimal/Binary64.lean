/-!
# Double-precision numbers

A `Binary64` is kept as its 64-bit pattern. Its magnitude is `mantissa * 2 ^ exponent`, and all
arithmetic goes through exact fractions of natural numbers, rounded once.
-/

namespace SymbolTree

/-- A double-precision number, given by its bit pattern. -/
structure Binary64 where
  /-- Sign bit, eleven exponent bits and fifty-two fraction bits. -/
  bits : UInt64
deriving DecidableEq, Repr

/-- A power of ten. -/
def tenPow (n : Nat) : Nat := Nat.pow 10 n

namespace Binary64

/-- The number of patterns of the sixty-three bits below the sign. -/
def signWeight : Nat := 1 <<< 63

/-- The number of patterns of the fifty-two fraction bits. -/
def fractionWeight : Nat := 1 <<< 52

/-- Whether the sign bit is set. -/
def isNegative (x : Binary64) : Bool := signWeight ≤ x.bits.toNat

/-- The exponent bits. -/
def exponentBits (x : Binary64) : Nat := x.bits.toNat / fractionWeight % 2048

/-- The fraction bits. -/
def fractionBits (x : Binary64) : Nat := x.bits.toNat % fractionWeight

/-- Neither an infinity nor a NaN. -/
def isFinite (x : Binary64) : Bool := x.exponentBits != 2047

/-- The integer that the power of two scales. -/
def mantissa (x : Binary64) : Nat :=
  if x.exponentBits = 0 then x.fractionBits else fractionWeight + x.fractionBits

/-- The power of two that scales the mantissa. -/
def exponent (x : Binary64) : Int := (max x.exponentBits 1 : Nat) - 1075

/-- The magnitude as a fraction. -/
def fraction (x : Binary64) : Nat × Nat :=
  (x.mantissa <<< x.exponent.toNat, 1 <<< (-x.exponent).toNat)

/-- The number with a given sign and the magnitude of the pattern `code`. -/
def ofCode (negative : Bool) (code : Nat) : Binary64 :=
  ⟨UInt64.ofNat (if negative then signWeight + code else code)⟩

/-- Positive zero. -/
def zero : Binary64 := ofCode false 0

/-- The pattern of infinity, which is above that of every finite magnitude. -/
def infinityCode : Nat := 2047 * fractionWeight

/-- An infinity. -/
def infinity (negative : Bool) : Binary64 := ofCode negative infinityCode

/-- The quiet NaN. -/
def notANumber (negative : Bool) : Binary64 := ofCode negative (infinityCode + fractionWeight / 2)

/-- The same magnitude under another sign. -/
def withSign (x : Binary64) (negative : Bool) : Binary64 := ofCode negative (x.bits.toNat % signWeight)

/-- Round a quotient to the nearest integer, a half to the even neighbour. -/
def roundQuotient (num den : Nat) : Nat :=
  let whole := num / den
  let twice := 2 * (num % den)
  if den < twice || (twice == den && whole % 2 == 1) then whole + 1 else whole

/-- The quotient `num / (den * 2 ^ power)` as a fraction. -/
def scaled (num den : Nat) (power : Int) : Nat × Nat :=
  (num <<< (-power).toNat, den <<< power.toNat)

/-- The pattern of the magnitude nearest to `num / den`, a half going to the even neighbour. From
`infinityCode` on the magnitude is out of range. -/
def nearestCode (num den : Nat) : Nat :=
  if num = 0 then 0
  else
    let low : Int := max ((num.log2 : Int) - den.log2 - 53) (-1074)
    let first := scaled num den low
    let power := if 2 * fractionWeight ≤ first.1 / first.2 then low + 1 else low
    let final := scaled num den power
    (power + 1074).toNat * fractionWeight + roundQuotient final.1 final.2

/-- The non-negative number nearest to `num / den`; `none` when it is out of range. -/
def nearest? (num den : Nat) : Option Binary64 :=
  let code := nearestCode num den
  if code < infinityCode then some (ofCode false code) else none

/-- The number nearest to `significand * 10 ^ power`; an infinity when it is out of range. Far beyond
the range on either side the size of the power decides, and nothing is computed with it. -/
def ofDecimal (negative : Bool) (significand : Nat) (power : Int) : Binary64 :=
  if significand = 0 ∨ power + significand.log2 < -340 then zero.withSign negative
  else if 310 < power then infinity negative
  else
    match nearest? (significand * tenPow power.toNat) (tenPow (-power).toNat) with
    | some x => x.withSign negative
    | none => infinity negative

/-- The product of two magnitudes. -/
def mul? (x y : Binary64) : Option Binary64 :=
  nearest? (x.fraction.1 * y.fraction.1) (x.fraction.2 * y.fraction.2)

/-- The quotient of two magnitudes. -/
def div? (x y : Binary64) : Option Binary64 :=
  nearest? (x.fraction.1 * y.fraction.2) (x.fraction.2 * y.fraction.1)

end Binary64

end SymbolTree
