import MonkeyFrontEnd.Json

/-!
# The tokens of a JSON text

A JSON text is cut into brackets, separators and scalars by a machine that reads one character at
a time (`Scan.step`). A scalar without quotation marks is read as far as characters go that can
occur in one, and must then be `null`, `true`, `false` or a number as a whole.
-/

set_option autoImplicit false

namespace MonkeyFrontEnd.Json

/-- A token of a JSON text; scalars are values already. -/
inductive Token
  | openArray | closeArray | openObject | closeObject | colon | comma
  | scalar (j : Json)

/-- The characters that may stand between tokens. -/
def isSpace (c : Char) : Bool :=
  c = ' ' || c = '\t' || c = '\n' || c = '\r'

/-- The token that a single character makes. -/
def punctuation? : Char → Option Token
  | '[' => some .openArray
  | ']' => some .closeArray
  | '\x7b' => some .openObject
  | '\x7d' => some .closeObject
  | ':' => some .colon
  | ',' => some .comma
  | _ => none

/-- The characters of scalars that have no quotation marks. -/
def isBare (c : Char) : Bool :=
  c.isAlphanum || c = '-' || c = '+' || c = '.'

/-- The character behind a backslash, read as an escape of one letter. -/
def ofLetter? : Char → Option Char
  | '"' => some '"'
  | '\\' => some '\\'
  | '/' => some '/'
  | 'b' => some '\x08'
  | 't' => some '\t'
  | 'n' => some '\n'
  | 'f' => some '\x0c'
  | 'r' => some '\r'
  | _ => none

/-- The value of a hexadecimal digit. -/
def hexValue? (c : Char) : Option Nat :=
  if c.isDigit then some (c.toNat - '0'.toNat)
  else if 'a' ≤ c && c ≤ 'f' then some (c.toNat - 'a'.toNat + 10)
  else if 'A' ≤ c && c ≤ 'F' then some (c.toNat - 'A'.toNat + 10)
  else none

/-- Digits of which the first is zero only if it is the only one. -/
def isWhole (ds : List Char) : Bool :=
  match ds with
  | [] => false
  | ['0'] => true
  | d :: _ => d ≠ '0'

/-- The rest of a number may be an exponent, or nothing. -/
def isExponent : List Char → Bool
  | [] => true
  | e :: cs =>
    let digits := match cs with
      | [] => []
      | sign :: ds => if sign = '+' || sign = '-' then ds else cs
    (e = 'e' || e = 'E') && !digits.isEmpty && digits.all Char.isDigit

/-- The rest of a number may be a fraction, an exponent, both or nothing. -/
def isFraction : List Char → Bool
  | '.' :: cs => !(cs.takeWhile Char.isDigit).isEmpty && isExponent (cs.dropWhile Char.isDigit)
  | cs => isExponent cs

/-- The value of a number; an integer only if nothing follows its digits and it is not `-0`. -/
def number? (cs : List Char) : Option Json :=
  let (negative, unsigned) := match cs with
    | '-' :: ds => (true, ds)
    | ds => (false, ds)
  let digits := unsigned.takeWhile Char.isDigit
  let rest := unsigned.dropWhile Char.isDigit
  let n := Nat.ofDigitChars 10 digits 0
  if isWhole digits && isFraction rest then
    if rest.isEmpty && !(negative && n == 0) then some (.int (if negative then -n else n))
    else some (.real cs)
  else none

/-- The value of a scalar without quotation marks. -/
def bare? (cs : List Char) : Option Json :=
  if cs = ['n', 'u', 'l', 'l'] then some .null
  else if cs = ['t', 'r', 'u', 'e'] then some (.bool true)
  else if cs = ['f', 'a', 'l', 's', 'e'] then some (.bool false)
  else number? cs

/-- Where the scanning of a JSON text stands; what has been read of a scalar is kept with its last
part first. -/
inductive Scan
  | between
  | bare (read : List Char)
  | string (read : List Piece)
  | escape (read : List Piece)
  | unit (read : List Piece) (left value : Nat)

namespace Scan

/-- Reads a character where a token may begin. -/
def enter (c : Char) : Option (Scan × List Token) :=
  if isSpace c then some (.between, [])
  else if c = '"' then some (.string [], [])
  else if isBare c then some (.bare [c], [])
  else (punctuation? c).map fun t => (.between, [t])

/-- Reads a character. -/
def step : Scan → Char → Option (Scan × List Token)
  | .between, c => enter c
  | .bare read, c =>
    if isBare c then some (.bare (c :: read), [])
    else match bare? read.reverse, enter c with
      | some j, some (s, ts) => some (s, .scalar j :: ts)
      | _, _ => none
  | .string read, c =>
    if c = '"' then some (.between, [.scalar (.string read.reverse)])
    else if c = '\\' then some (.escape read, [])
    else if c < ' ' then none
    else some (.string (.char c :: read), [])
  | .escape read, c =>
    if c = 'u' then some (.unit read 3 0, [])
    else (ofLetter? c).map fun d => (.string (.char d :: read), [])
  | .unit read left value, c =>
    (hexValue? c).map fun d =>
      match left with
      | 0 => (.string (.unit (value * 16 + d) :: read), [])
      | left + 1 => (.unit read left (value * 16 + d), [])

/-- What is left at the end of the text. -/
def finish : Scan → Option (List Token)
  | .between => some []
  | .bare read => (bare? read.reverse).map fun j => [.scalar j]
  | .string _ | .escape _ | .unit .. => none

/-- The tokens of the rest of a text. -/
def run : Scan → List Char → Option (List Token)
  | s, [] => s.finish
  | s, c :: cs =>
    match s.step c with
    | some (s, ts) => (run s cs).map (ts ++ ·)
    | none => none

end Scan

/-- The tokens of a JSON text. -/
def tokens? (cs : List Char) : Option (List Token) :=
  Scan.run .between cs

end MonkeyFrontEnd.Json
