import Abacus.Text.CharSet

/-!
The characters with the Unicode property `White_Space`, and texts without them at their ends.
-/
namespace Abacus.WhiteSpace

/-- The characters with the property. -/
def all : CharSet :=
  ⟨[(0x0009, 0x000d), (0x0020, 0x0020), (0x0085, 0x0085), (0x00a0, 0x00a0), (0x1680, 0x1680),
    (0x2000, 0x200a), (0x2028, 0x2029), (0x202f, 0x202f), (0x205f, 0x205f), (0x3000, 0x3000)]⟩

def isWhiteSpace (c : Char) : Bool :=
  all.contains c

/-- A text without white space at its ends. -/
def trim (text : List Char) : List Char :=
  ((text.dropWhile isWhiteSpace).reverse.dropWhile isWhiteSpace).reverse

end Abacus.WhiteSpace
