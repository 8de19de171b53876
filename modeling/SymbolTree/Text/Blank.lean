import SymbolTree.Text.CodeRange

/-!
# Blank text

White space as the Unicode standard defines it.
-/

namespace SymbolTree.Text

/-- The characters with the White_Space property. -/
def whiteSpace : CodeRanges := #[
  (0x9, 0xd), (0x20, 0x20), (0x85, 0x85), (0xa0, 0xa0), (0x1680, 0x1680), (0x2000, 0x200a),
  (0x2028, 0x2029), (0x202f, 0x202f), (0x205f, 0x205f), (0x3000, 0x3000)
]

/-- Whether a text holds white space only. -/
def isBlank (s : String) : Bool := s.toList.all whiteSpace.contains

end SymbolTree.Text
