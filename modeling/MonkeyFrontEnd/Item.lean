import MonkeyFrontEnd.Lexeme
import MonkeyFrontEnd.Text.Quoted
import MonkeyFrontEnd.Token

/-!
# What a source text consists of

Lexemes that are not blank, each with its place: tokens, and characters that begin no token.
`Item.ofSource` lists them in order; the end of the text is one more token, `Token.ofEnd`.
-/

set_option autoImplicit false

namespace MonkeyFrontEnd

/-- A character that begins no token. -/
structure IllegalChar where
  text : String
  span : Span
  deriving DecidableEq

namespace IllegalChar

/-- What is said of an illegal character. -/
def message (e : IllegalChar) : String :=
  "illegal character " ++ Text.quoted e.text

/-- The same character, `n` bytes further on. -/
def shift (n : Nat) (e : IllegalChar) : IllegalChar :=
  { e with span := e.span.shift n }

end IllegalChar

/-- A piece of source text that is not blank. -/
inductive Item
  | token (t : Token)
  | illegal (e : IllegalChar)
  deriving DecidableEq

/-- What the lexeme is at the byte offset `start`; nothing if it is blank. -/
def Lexeme.item? (start : Nat) (l : Lexeme) : Option Item :=
  let span : Span := ⟨start, start + Text.byteCount l.text⟩
  match l.shape, l.kind? with
  | .illegal, _ => some (.illegal ⟨String.ofList l.text, span⟩)
  | _, some kind => some (.token ⟨kind, String.ofList l.text, span⟩)
  | _, none => none

namespace Item

/-- The token that the item is, if it is one. -/
def token? : Item → Option Token
  | .token t => some t
  | .illegal _ => none

/-- The illegal character that the item is, if it is one. -/
def illegal? : Item → Option IllegalChar
  | .token _ => none
  | .illegal e => some e

/-- Where the item stands. -/
def span : Item → Span
  | .token t => t.span
  | .illegal e => e.span

/-- The item, moved `n` bytes towards the end. -/
def shift (n : Nat) : Item → Item
  | .token t => .token (t.shift n)
  | .illegal e => .illegal (e.shift n)

/-- The items of a row of lexemes that begins at the byte offset `start`. -/
def ofLexemes (start : Nat) : List Lexeme → List Item
  | [] => []
  | l :: ls => (l.item? start).toList ++ ofLexemes (start + Text.byteCount l.text) ls

/-- The items of a source text, in order. -/
def ofSource (source : String) : List Item :=
  ofLexemes 0 (Lexeme.split source.toList)

end Item

namespace Token

/-- The tokens of a source text, without the end of input. -/
def ofSource (source : String) : List Token :=
  (Item.ofSource source).filterMap Item.token?

/-- The token that marks the end of a source text. -/
def ofEnd (source : String) : Token :=
  endAt source.utf8ByteSize

end Token

/-- The illegal characters of a source text, in order. -/
def IllegalChar.ofSource (source : String) : List IllegalChar :=
  (Item.ofSource source).filterMap Item.illegal?

/-- The items of a source text, and the token at its end. -/
def Item.stream (source : String) : List Item :=
  Item.ofSource source ++ [.token (.ofEnd source)]

end MonkeyFrontEnd
