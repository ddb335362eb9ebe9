import MonkeyFrontEnd.Json.Scanner
import MonkeyFrontEnd.Json.Writer

/-!
# The grammar of JSON texts

The texts that spell a JSON value. A value has its tokens (`Json.tokens`), each token has its
spellings (`Token.Spelled`), and blanks may stand before, between and behind them (`Spells`). A
string can be spelled in many ways, an integer in one; every other number spells itself. No two
tokens of a value stand side by side that are both scalars, so that none of them runs into the next
one.
-/

set_option autoImplicit false

namespace MonkeyFrontEnd.Json

/-! ### Tokens and their spellings -/

/-- Characters that may stand between tokens. -/
def Blanks (cs : List Char) : Prop :=
  ∀ c ∈ cs, isSpace c

/-- The spellings of a piece of a string: a character as it is, unless that is a control character,
a quotation mark or a backslash; a letter behind a backslash; four hexadecimal digits. -/
inductive Piece.Spelled : Piece → List Char → Prop
  | plain {c : Char} (printed : ¬ c < ' ') (quote : c ≠ '"') (backslash : c ≠ '\\') :
      Spelled (.char c) [c]
  | letter {c l : Char} (escape : ofLetter? l = some c) : Spelled (.char c) ['\\', l]
  | unit {c₁ c₂ c₃ c₄ : Char} {n₁ n₂ n₃ n₄ : Nat} (h₁ : hexValue? c₁ = some n₁)
      (h₂ : hexValue? c₂ = some n₂) (h₃ : hexValue? c₃ = some n₃) (h₄ : hexValue? c₄ = some n₄) :
      Spelled (.unit (((n₁ * 16 + n₂) * 16 + n₃) * 16 + n₄)) ['\\', 'u', c₁, c₂, c₃, c₄]

/-- The spellings of the pieces of a string, without its quotation marks. -/
inductive SpelledPieces : List Piece → List Char → Prop
  | nil : SpelledPieces [] []
  | cons {p : Piece} {ps : List Piece} {cs ds : List Char} (first : p.Spelled cs)
      (others : SpelledPieces ps ds) : SpelledPieces (p :: ps) (cs ++ ds)

/-- One decimal digit or more. -/
def Digits (ds : List Char) : Prop :=
  ds ≠ [] ∧ ∀ d ∈ ds, d.isDigit

/-- A point and digits, or nothing. -/
inductive Fraction : List Char → Prop
  | none : Fraction []
  | some {ds : List Char} (digits : Digits ds) : Fraction ('.' :: ds)

/-- A letter, perhaps a sign, and digits; or nothing. -/
inductive Exponent : List Char → Prop
  | none : Exponent []
  | some {e : Char} {sign ds : List Char} (letter : e = 'e' ∨ e = 'E')
      (signed : sign = [] ∨ sign = ['+'] ∨ sign = ['-']) (digits : Digits ds) :
      Exponent (e :: (sign ++ ds))

/-- The texts of numbers: digits that begin with a zero only if it is the only one, perhaps with a
minus sign before them and a fraction and an exponent behind. -/
inductive Number : List Char → Prop
  | intro {minus whole fraction exponent : List Char} (sign : minus = [] ∨ minus = ['-'])
      (digits : Digits whole) (zero : whole.head? = some '0' → whole = ['0'])
      (hf : Fraction fraction) (he : Exponent exponent) :
      Number (minus ++ whole ++ fraction ++ exponent)

/-- The spellings of a token. A number that is not an integer in its one spelling stands for
itself. -/
inductive Token.Spelled : Token → List Char → Prop
  | punctuation {c : Char} {t : Token} (sign : punctuation? c = some t) : Spelled t [c]
  | nullWord : Spelled (.scalar .null) ['n', 'u', 'l', 'l']
  | trueWord : Spelled (.scalar (.bool true)) ['t', 'r', 'u', 'e']
  | falseWord : Spelled (.scalar (.bool false)) ['f', 'a', 'l', 's', 'e']
  | int (i : Int) : Spelled (.scalar (.int i)) (writeInt i)
  | real {cs : List Char} (number : Number cs) (other : ∀ i, cs ≠ writeInt i) :
      Spelled (.scalar (.real cs)) cs
  | string {ps : List Piece} {cs : List Char} (pieces : SpelledPieces ps cs) :
      Spelled (.scalar (.string ps)) ('"' :: (cs ++ ['"']))

/-- The texts that consist of the tokens, with blanks around them. -/
inductive Spells : List Token → List Char → Prop
  | nil {gap : List Char} (blank : Blanks gap) : Spells [] gap
  | cons {gap cs ds : List Char} {t : Token} {ts : List Token} (blank : Blanks gap)
      (first : t.Spelled cs) (others : Spells ts ds) : Spells (t :: ts) (gap ++ (cs ++ ds))

/-! ### Values -/

mutual

/-- The tokens of a value. -/
def tokens : Json → List Token
  | .array [] => [.openArray, .closeArray]
  | .array (j :: js) => .openArray :: (tokens j ++ (tokensOfItems js ++ [.closeArray]))
  | .object [] => [.openObject, .closeObject]
  | .object ((key, j) :: ms) =>
    .openObject :: .scalar (.string key) :: .colon ::
      (tokens j ++ (tokensOfMembers ms ++ [.closeObject]))
  | j => [.scalar j]
termination_by structural j => j

/-- The tokens of the items of an array after its first one. -/
def tokensOfItems : List Json → List Token
  | [] => []
  | j :: js => .comma :: (tokens j ++ tokensOfItems js)
termination_by structural js => js

/-- The tokens of the members of an object after its first one. -/
def tokensOfMembers : List (List Piece × Json) → List Token
  | [] => []
  | (key, j) :: ms => .comma :: .scalar (.string key) :: .colon :: (tokens j ++ tokensOfMembers ms)
termination_by structural ms => ms

end

/-- The text spells the value. -/
def SpelledBy (j : Json) (text : String) : Prop :=
  Spells j.tokens text.toList

/-- What holds of a value if it holds of all values in it holds of every value. -/
theorem induct {P : Json → Prop} (null : P .null) (bool : ∀ b, P (.bool b)) (int : ∀ i, P (.int i))
    (real : ∀ cs, P (.real cs)) (string : ∀ ps, P (.string ps))
    (array : ∀ js : List Json, (∀ j ∈ js, P j) → P (.array js))
    (object : ∀ ms : List (List Piece × Json), (∀ m ∈ ms, P m.2) → P (.object ms)) (j : Json) :
    P j :=
  @Json.rec P (fun js => ∀ j ∈ js, P j) (fun ms => ∀ m ∈ ms, P m.2) (fun m => P m.2) null bool int
    real string array object
    (by simp) (fun _ _ first others => List.forall_mem_cons.2 ⟨first, others⟩)
    (by simp) (fun _ _ first others => List.forall_mem_cons.2 ⟨first, others⟩) (fun _ _ h => h) j

end MonkeyFrontEnd.Json
