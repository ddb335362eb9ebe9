/-!
# JSON values

A JSON value as its text spells it, except for blanks. Two choices keep what a reader has to tell
apart. A number is an integer (`int`) only if it is written without fraction and exponent and is
not `-0`; any other number keeps its spelling. A string is a list of `Piece`s, since the numbers
behind `\u` are UTF-16 units, which need not pair up to characters; `chars?` says when they do.
-/

set_option autoImplicit false

namespace MonkeyFrontEnd

namespace Json

/-- A part of a JSON string: a character, or a UTF-16 unit given by number. -/
inductive Piece
  | char (c : Char)
  | unit (n : Nat)
  deriving DecidableEq

/-- The first half of a character beyond U+FFFF. -/
def isHighSurrogate (n : Nat) : Bool :=
  decide (0xD800 ≤ n) && decide (n ≤ 0xDBFF)

/-- The second half of a character beyond U+FFFF. -/
def isLowSurrogate (n : Nat) : Bool :=
  decide (0xDC00 ≤ n) && decide (n ≤ 0xDFFF)

/-- The characters of a string, unless half of one stands alone. -/
def chars? : List Piece → Option (List Char)
  | [] => some []
  | .char c :: ps => (chars? ps).map (c :: ·)
  | .unit high :: .unit low :: ps =>
    if isHighSurrogate high then
      if isLowSurrogate low then
        (chars? ps).map (Char.ofNat (0x10000 + (high - 0xD800) * 0x400 + (low - 0xDC00)) :: ·)
      else none
    else if isLowSurrogate high then none
    else (chars? (.unit low :: ps)).map (Char.ofNat high :: ·)
  | .unit n :: ps =>
    if isHighSurrogate n || isLowSurrogate n then none
    else (chars? ps).map (Char.ofNat n :: ·)

/-- The control characters that have an escape of one letter, and quotation mark and backslash. -/
def letterOf? : Char → Option Char
  | '"' => some '"'
  | '\\' => some '\\'
  | '\x08' => some 'b'
  | '\t' => some 't'
  | '\n' => some 'n'
  | '\x0c' => some 'f'
  | '\r' => some 'r'
  | _ => none

/-- The piece that stands for `c` in written text: control characters without a short escape are
given by number. -/
def Piece.ofChar (c : Char) : Piece :=
  if c < ' ' && (letterOf? c).isNone then .unit c.toNat else .char c

/-- The pieces of a text. -/
def pieces (s : String) : List Piece :=
  s.toList.map Piece.ofChar

/-- The text that the pieces stand for, if they stand for one. -/
def text? (ps : List Piece) : Option String :=
  (chars? ps).map String.ofList

end Json

/-- A JSON value. -/
inductive Json
  | null
  | bool (b : Bool)
  | int (value : Int)
  | real (spelling : List Char)
  | string (pieces : List Json.Piece)
  | array (items : List Json)
  | object (members : List (List Json.Piece × Json))

namespace Json

/-- The string value with the given text. -/
def ofString (s : String) : Json :=
  .string (pieces s)

/-- An object whose keys are given as texts. -/
def ofFields (fields : List (String × Json)) : Json :=
  .object (fields.map fun f => (pieces f.1, f.2))

mutual

/-- How many arrays and objects stand one inside the other in a value. -/
def nesting : Json → Nat
  | .array items => nestingOfItems items + 1
  | .object members => nestingOfMembers members + 1
  | _ => 0
termination_by structural j => j

/-- The deepest nesting among values. -/
def nestingOfItems : List Json → Nat
  | [] => 0
  | j :: items => max (nesting j) (nestingOfItems items)
termination_by structural items => items

/-- The deepest nesting among the values of an object. -/
def nestingOfMembers : List (List Piece × Json) → Nat
  | [] => 0
  | (_, j) :: members => max (nesting j) (nestingOfMembers members)
termination_by structural members => members

end

end Json

end MonkeyFrontEnd
