import MonkeyFrontEnd.Text.Ranges

/-!
# Characters that stand by themselves

Controls, line and paragraph separators and format characters: nothing is drawn onto them and they
are drawn onto nothing.
-/

set_option autoImplicit false

namespace MonkeyFrontEnd.Text

/-- The code points above the space with Grapheme_Cluster_Break=Control. -/
def controlRanges : List (Nat × Nat) :=
  [(0x7F, 0x9F), (0xAD, 0xAD), (0x61C, 0x61C), (0x180E, 0x180E), (0x200B, 0x200B),
    (0x200E, 0x200F), (0x2028, 0x202E), (0x2060, 0x206F), (0xFEFF, 0xFEFF), (0xFFF0, 0xFFFB),
    (0x13430, 0x1343F), (0x1BCA0, 0x1BCA3), (0x1D173, 0x1D17A), (0xE0000, 0xE001F),
    (0xE0080, 0xE00FF), (0xE01F0, 0xE0FFF)]

/-- `c` stands by itself. -/
def isControl (c : Char) : Bool :=
  c < ' ' || inRanges controlRanges c

end MonkeyFrontEnd.Text
