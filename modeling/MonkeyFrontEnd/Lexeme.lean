import MonkeyFrontEnd.Text.Bytes
import MonkeyFrontEnd.Token.Kind

/-!
# Lexemes

A text is a row of lexemes: words, numbers, signs, single blanks and single characters that belong
to no token. Every non-empty beginning of a word, a number or a sign is one itself, so the longest
lexeme is found by adding characters for as long as the shape allows it (`Shape.extend?`), and
two neighbours are separate exactly when the second one's first character does not extend the
first. `split` reads a text once from left to right, and `flatMap_text_split` says that nothing
is lost.
-/

set_option autoImplicit false

namespace MonkeyFrontEnd

/-- The characters that only separate: space, tab, carriage return, line feed and form feed. -/
def isBlank (c : Char) : Bool :=
  c = ' ' || c = '\t' || c = '\r' || c = '\n' || c = '\x0c'

/-- The characters that a word may begin with: ASCII letters and the underscore. -/
def isWordStart (c : Char) : Bool :=
  c.isAlpha || c = '_'

/-- The characters that a word may go on with: ASCII letters, digits and the underscore. -/
def isWordPart (c : Char) : Bool :=
  isWordStart c || c.isDigit

namespace Lexeme

/-- What a lexeme is made of. -/
inductive Shape
  | blank
  | word
  | number
  | sign (kind : Token.Kind)
  | illegal
  deriving DecidableEq

namespace Shape

/-- The shape of a lexeme that begins with `c`. -/
def ofChar (c : Char) : Shape :=
  if isBlank c then .blank
  else if isWordStart c then .word
  else if c.isDigit then .number
  else match Token.Kind.ofSign? c with
    | some k => .sign k
    | none => .illegal

/-- The shape after `c` is added at the end, if a lexeme of this shape can take it. -/
def extend? : Shape → Char → Option Shape
  | .word, c => if isWordPart c then some .word else none
  | .number, c => if c.isDigit then some .number else none
  | .sign .assign, c => if c = '=' then some (.sign .eq) else none
  | .sign .bang, c => if c = '=' then some (.sign .notEq) else none
  | _, _ => none

end Shape

end Lexeme

/-- A stretch of text of one shape. -/
structure Lexeme where
  shape : Lexeme.Shape
  text : List Char
  deriving DecidableEq

namespace Lexeme

/-- The kind of the token that the lexeme is, if it is one. -/
def kind? (l : Lexeme) : Option Token.Kind :=
  match l.shape with
  | .word => some ((Token.Kind.keyword? (String.ofList l.text)).getD .ident)
  | .number => some .int
  | .sign k => some k
  | .blank | .illegal => none

/-- The lexemes of a text, where the one under way has the shape `shape` and the characters
`read`, the last one first. -/
def splitFrom (shape : Shape) (read : List Char) : List Char → List Lexeme
  | [] => [⟨shape, read.reverse⟩]
  | c :: cs =>
    match shape.extend? c with
    | some longer => splitFrom longer (c :: read) cs
    | none => ⟨shape, read.reverse⟩ :: splitFrom (.ofChar c) [c] cs

/-- The lexemes of a text, each as long as it can be. -/
def split : List Char → List Lexeme
  | [] => []
  | c :: cs => splitFrom (.ofChar c) [c] cs

theorem flatMap_text_splitFrom (shape : Shape) (read cs : List Char) :
    (splitFrom shape read cs).flatMap text = read.reverse ++ cs := by
  induction cs generalizing shape read with
  | nil => simp [splitFrom]
  | cons c cs ih =>
    simp only [splitFrom]
    split <;> simp [ih]

/-- The lexemes of a text, put together, are the text. -/
theorem flatMap_text_split (cs : List Char) : (split cs).flatMap text = cs := by
  cases cs with
  | nil => rfl
  | cons c cs => simp [split, flatMap_text_splitFrom]

end Lexeme

end MonkeyFrontEnd
