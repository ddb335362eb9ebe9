import MonkeyFrontEnd.Json

/-!
# Writing JSON

One writer for every layout: a `Layout` says what stands between the parts of an array or object,
by depth, and what stands behind a colon. `Layout.compact` puts nothing there; `Layout.indented`
begins a new line, two spaces further in for each level. An array or object without members is
written without a gap in either. Texts are written before a rest that is given, so that the text
of a value is built once and never copied.
-/

set_option autoImplicit false

namespace MonkeyFrontEnd.Json

/-- What is put between the parts of a written value. -/
structure Layout where
  gap : Nat → List Char
  afterColon : List Char

/-- Nothing between the parts. -/
def Layout.compact : Layout :=
  ⟨fun _ => [], []⟩

/-- Every part on a line of its own, two spaces further in for each level. -/
def Layout.indented : Layout :=
  ⟨fun depth => '\n' :: List.replicate (2 * depth) ' ', [' ']⟩

/-- A UTF-16 unit as four hexadecimal digits. -/
def hex4 (n : Nat) : List Char :=
  [n / 0x1000 % 16, n / 0x100 % 16, n / 0x10 % 16, n % 16].map Nat.digitChar

/-- A piece of a string as it is written. -/
def Piece.write : Piece → List Char
  | .char c =>
    match letterOf? c with
    | some letter => ['\\', letter]
    | none => [c]
  | .unit n => '\\' :: 'u' :: hex4 n

/-- A string in quotation marks, before `rest`. -/
def writeString (ps : List Piece) (rest : List Char) : List Char :=
  '"' :: ps.flatMap Piece.write ++ '"' :: rest

/-- An integer in decimal digits. -/
def writeInt (i : Int) : List Char :=
  if i < 0 then '-' :: Nat.toDigits 10 i.natAbs else Nat.toDigits 10 i.natAbs

mutual

/-- A value as text before `rest`, where `depth` arrays and objects are open around it. -/
def write (l : Layout) (depth : Nat) : Json → List Char → List Char
  | .null, rest => ['n', 'u', 'l', 'l'] ++ rest
  | .bool true, rest => ['t', 'r', 'u', 'e'] ++ rest
  | .bool false, rest => ['f', 'a', 'l', 's', 'e'] ++ rest
  | .int i, rest => writeInt i ++ rest
  | .real spelling, rest => spelling ++ rest
  | .string ps, rest => writeString ps rest
  | .array [], rest => '[' :: ']' :: rest
  | .array (j :: js), rest =>
    '[' :: l.gap (depth + 1) ++
      write l (depth + 1) j (writeItems l (depth + 1) js (l.gap depth ++ ']' :: rest))
  | .object [], rest => '\x7b' :: '\x7d' :: rest
  | .object ((key, j) :: ms), rest =>
    '\x7b' :: l.gap (depth + 1) ++ writeString key (':' :: l.afterColon ++
      write l (depth + 1) j (writeMembers l (depth + 1) ms (l.gap depth ++ '\x7d' :: rest)))
termination_by structural j => j

/-- The items of an array after its first one, before `rest`. -/
def writeItems (l : Layout) (depth : Nat) : List Json → List Char → List Char
  | [], rest => rest
  | j :: js, rest => ',' :: l.gap depth ++ write l depth j (writeItems l depth js rest)
termination_by structural js => js

/-- The members of an object after its first one, before `rest`. -/
def writeMembers (l : Layout) (depth : Nat) :
    List (List Piece × Json) → List Char → List Char
  | [], rest => rest
  | (key, j) :: ms, rest =>
    ',' :: l.gap depth ++ writeString key (':' :: l.afterColon ++
      write l depth j (writeMembers l depth ms rest))
termination_by structural ms => ms

end

/-- The text of a value without a blank between its parts. -/
def compact (j : Json) : String :=
  String.ofList (write .compact 0 j [])

/-- The text of a value, one part a line. -/
def indented (j : Json) : String :=
  String.ofList (write .indented 0 j [])

end MonkeyFrontEnd.Json
