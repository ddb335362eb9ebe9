import MonkeyFrontEnd.Parse.Statement

/-!
# From source text to program

`Parse.ofSource` reads a source text into a program and the list of its errors. Characters that
belong to no token never influence the program: it is read from the tokens alone. They come in
only where the errors are put in order, which is the order in which a reader who is one token
ahead comes upon them (`Notice.readTo`).

A `Parser` is the same in two steps: the first two tokens are read when it is made, the rest when
the program is asked for.
-/

set_option autoImplicit false

namespace MonkeyFrontEnd

/-- An error, and the byte offset up to which the text has been read when it is noticed. -/
structure Parse.Notice where
  readTo : Nat
  error : ParseError
  deriving DecidableEq

namespace Parse

/-- An illegal character is noticed as soon as it is read. -/
def Notice.ofIllegal (e : IllegalChar) : Notice :=
  ⟨e.span.stop, .illegalChar e⟩

/-- A token that should have been another one is noticed before it is taken, any other fault when
the token after it has been reached. -/
def Event.notice? : Event → Option Notice
  | .stmt _ => none
  | .fault f found next =>
    match f with
    | .unexpected _ => some ⟨found.span.start, f.error found⟩
    | .noOperand | .integerTooLarge => some ⟨next.span.start, f.error found⟩

/-- The notice `x` is made no later than `y`. -/
def Notice.notAfter (y x : Notice) : Bool :=
  decide (x.readTo ≤ y.readTo)

/-- The notices of two lists in the order in which they are made, each list being in order. -/
def Notice.inOrder (xs : List Notice) : List Notice → List Notice
  | [] => xs
  | y :: ys => xs.takeWhile y.notAfter ++ y :: inOrder (xs.dropWhile y.notAfter) ys

/-- What reading the statements of a source text brings about. -/
def events (source : String) : List Event :=
  State.run (.ofEnd source) .start (Token.ofSource source)

end Parse

/-- A program and the errors met while it was read. -/
structure Parse where
  program : Program
  errors : List ParseError
  deriving DecidableEq

namespace Parse

/-- Reads a source text. -/
def ofSource (source : String) : Parse where
  program := ⟨(events source).filterMap Event.stmt?⟩
  errors :=
    (Notice.inOrder ((IllegalChar.ofSource source).map .ofIllegal)
      ((events source).filterMap Event.notice?)).map Notice.error

/-- The illegal characters met while the first `n` tokens are read. -/
def illegalBefore : Nat → List Item → List IllegalChar
  | 0, _ => []
  | _, [] => []
  | n + 1, .token _ :: items => illegalBefore n items
  | n + 1, .illegal e :: items => e :: illegalBefore (n + 1) items

end Parse

/-- A parse of which only the first two tokens are read until its program is asked for. -/
structure Parser where
  source : String
  finished : Bool

namespace Parser

/-- A parser before its first statement. -/
def ofSource (source : String) : Parser :=
  ⟨source, false⟩

/-- The errors met so far. -/
def errors (p : Parser) : List ParseError :=
  if p.finished then (Parse.ofSource p.source).errors
  else (Parse.illegalBefore 2 (Item.ofSource p.source)).map .illegalChar

/-- Reads the statements that are left. -/
def program (p : Parser) : Program × Parser :=
  (if p.finished then ⟨[]⟩ else (Parse.ofSource p.source).program, { p with finished := true })

end Parser

end MonkeyFrontEnd
