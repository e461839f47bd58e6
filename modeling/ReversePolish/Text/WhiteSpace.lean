import ReversePolish.Text.Ranges

/-! # White space
The characters with the Unicode property `White_Space`, and texts without it at their ends. -/
namespace ReversePolish.Text

/-- All code points that are white space. -/
def whiteSpaceRanges : List (Nat × Nat) :=
  [(0x9, 0xD), (0x20, 0x20), (0x85, 0x85), (0xA0, 0xA0), (0x1680, 0x1680), (0x2000, 0x200A),
    (0x2028, 0x2029), (0x202F, 0x202F), (0x205F, 0x205F), (0x3000, 0x3000)]

def isWhiteSpace (c : Char) : Bool := inRanges c.toNat whiteSpaceRanges

/-- A list of characters without white space at either end. -/
def trimmed (cs : List Char) : List Char :=
  ((cs.dropWhile isWhiteSpace).reverse.dropWhile isWhiteSpace).reverse

def trim (s : String) : String := .ofList (trimmed s.toList)

end ReversePolish.Text
