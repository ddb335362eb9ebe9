import MonkeyFrontEnd.Draft
import MonkeyFrontEnd.Item

/-!
# What can be wrong with a program

The causes, where each one stands in the text, and their wording: `message` states the fault,
`label` is the short note that goes beside the marked stretch.
-/

set_option autoImplicit false

namespace MonkeyFrontEnd

/-- Something wrong with a program. -/
inductive ParseError
  | unexpectedToken (expected found : Token.Kind) (span : Span)
  | noOperand (found : Token.Kind) (span : Span)
  | integerTooLarge (literal : String) (span : Span)
  | illegalChar (e : IllegalChar)
  | incomplete (e : Incomplete)
  deriving DecidableEq

namespace ParseError

/-- The stretch of text that the error is about. -/
def span : ParseError → Span
  | .unexpectedToken _ _ span => span
  | .noOperand _ span => span
  | .integerTooLarge _ span => span
  | .illegalChar e => e.span
  | .incomplete e => e.span

/-- What is said of the error. -/
def message : ParseError → String
  | .unexpectedToken expected found _ =>
    "expected next token to be " ++ expected.describe ++ ", got " ++ found.describe ++ " instead"
  | .noOperand found _ => "no prefix parse rule for " ++ found.describe
  | .integerTooLarge literal _ => "could not parse " ++ Text.quoted literal ++ " as integer"
  | .illegalChar e => e.message
  | .incomplete e => e.message

/-- The note beside the marked stretch. -/
def label : ParseError → String
  | .unexpectedToken expected _ _ => "expected " ++ expected.describe ++ " here"
  | .noOperand found _ => found.describe ++ " cannot start an expression"
  | .integerTooLarge .. => "does not fit in a 64-bit integer"
  | .illegalChar _ => "illegal character"
  | .incomplete _ => "unfinished node"

/-- The illegal character that the error reports, if it reports one. -/
def illegal? : ParseError → Option IllegalChar
  | .illegalChar e => some e
  | _ => none

end ParseError

end MonkeyFrontEnd
