import MonkeyFrontEnd.Text.Ranges

/-!
# White space around a line

The Unicode property White_Space, which is wider than the blanks that separate tokens, and
`trim`, which takes such characters off both ends of a text.
-/

set_option autoImplicit false

namespace MonkeyFrontEnd.Text

/-- The code points with the property White_Space. -/
def whiteSpaceRanges : List (Nat × Nat) :=
  [(0x9, 0xD), (0x20, 0x20), (0x85, 0x85), (0xA0, 0xA0), (0x1680, 0x1680), (0x2000, 0x200A),
    (0x2028, 0x2029), (0x202F, 0x202F), (0x205F, 0x205F), (0x3000, 0x3000)]

/-- `c` is white space in any script. -/
def isWhiteSpace (c : Char) : Bool :=
  inRanges whiteSpaceRanges c

/-- `cs` without the white space at its end. -/
def trimEnd (cs : List Char) : List Char :=
  (cs.reverse.dropWhile isWhiteSpace).reverse

/-- `s` without the white space at both ends. -/
def trim (s : String) : String :=
  String.ofList (trimEnd (s.toList.dropWhile isWhiteSpace))

end MonkeyFrontEnd.Text
