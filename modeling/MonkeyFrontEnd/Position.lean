/-!
# Lines and columns

A byte offset as a person would name it: line and column, both counted from one, the column in
characters. Only a line feed ends a line here; for showing a line (`lineText?`) the carriage return
directly before the line feed is left out, and nothing is shown behind the last line feed.
-/

set_option autoImplicit false

namespace MonkeyFrontEnd

/-- A line and a column, counted from one. -/
structure Position where
  line : Nat
  column : Nat
  deriving DecidableEq

namespace Position

/-- Where a text begins. -/
def first : Position :=
  ⟨1, 1⟩

/-- The position after the character `c`. -/
def after (p : Position) (c : Char) : Position :=
  if c = '\n' then ⟨p.line + 1, 1⟩ else ⟨p.line, p.column + 1⟩

/-- The position `offset` bytes further on in `cs`, which begins at `p`. An offset inside a
character counts as the end of that character, one past the text as the end of the text. -/
def advance (p : Position) : Nat → List Char → Position
  | 0, _ => p
  | _ + 1, [] => p
  | offset + 1, c :: cs => advance (p.after c) (offset + 1 - c.utf8Size) cs

/-- The position of a byte offset in a source text. -/
def ofOffset (source : String) (offset : Nat) : Position :=
  first.advance offset source.toList

end Position

namespace Text

/-- The stretches of `cs` between line feeds: one more than there are line feeds. -/
def pieces : List Char → List (List Char)
  | [] => [[]]
  | c :: cs =>
    if c = '\n' then [] :: pieces cs
    else match pieces cs with
      | [] => [[c]]
      | p :: ps => (c :: p) :: ps

/-- A piece without the carriage return at its end. -/
def dropReturn (cs : List Char) : List Char :=
  if cs.getLast? = some '\r' then cs.dropLast else cs

/-- The lines of a text as they are shown. What follows the last line feed is a line only if it is
not empty, and keeps its carriage return. -/
def shownLines (cs : List Char) : List (List Char) :=
  let ps := pieces cs
  ps.dropLast.map dropReturn ++ ps.getLast?.toList.filter fun p => !p.isEmpty

/-- The text of the `n`-th line, counted from one. -/
def lineText? (source : String) (n : Nat) : Option String :=
  ((shownLines source.toList)[n - 1]?).map String.ofList

end Text

end MonkeyFrontEnd
