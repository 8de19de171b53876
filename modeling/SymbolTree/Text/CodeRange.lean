/-!
# Ranges of code points

Character classes of the Unicode standard are given as lists of inclusive ranges.
-/

namespace SymbolTree.Text

/-- Inclusive ranges of code points. -/
abbrev CodeRanges := Array (Nat × Nat)

/-- Whether a character lies in one of the ranges. -/
def CodeRanges.contains (ranges : CodeRanges) (c : Char) : Bool :=
  ranges.any fun range => range.1 ≤ c.toNat && c.toNat ≤ range.2

end SymbolTree.Text
