import MonkeyFrontEnd.Text.Combining
import MonkeyFrontEnd.Text.Unprintable

/-!
# Text in quotation marks

The form in which messages and listings show a piece of text: in double quotes, with the usual
short escapes, and with the code point in braces for a character that would not be seen or would
change its neighbour.
-/

set_option autoImplicit false

namespace MonkeyFrontEnd.Text

/-- The code point of `c` in lower-case hexadecimal digits, without leading zeros. -/
def hexDigits (c : Char) : List Char :=
  Nat.toDigits 16 c.toNat

/-- `c` is shown by its code point. -/
def isShownByNumber (c : Char) : Bool :=
  isUnprintable c || (isCombining c && !isHalfwidthMark c)

/-- How `c` is written between quotation marks. -/
def escape (c : Char) : List Char :=
  if c = '\x00' then ['\\', '0']
  else if c = '\t' then ['\\', 't']
  else if c = '\r' then ['\\', 'r']
  else if c = '\n' then ['\\', 'n']
  else if c = '"' then ['\\', '"']
  else if c = '\\' then ['\\', '\\']
  else if ' ' ≤ c && c ≤ '~' then [c]
  else if isShownByNumber c then ['\\', 'u', '\x7b'] ++ hexDigits c ++ ['\x7d']
  else [c]

/-- The text in double quotes. -/
def quoted (s : String) : String :=
  String.ofList ('"' :: s.toList.flatMap escape ++ ['"'])

end MonkeyFrontEnd.Text
