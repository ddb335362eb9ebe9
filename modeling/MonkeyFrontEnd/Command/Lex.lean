import MonkeyFrontEnd.Command.Report
import MonkeyFrontEnd.Item

/-!
# Listing the tokens of a file

One line for each token and each illegal character, in the order of the text, and their numbers.
Long literals are cut behind a fixed number of bytes; a literal with a character there would break
the listing off in the middle.
-/

set_option autoImplicit false

namespace MonkeyFrontEnd.Command

/-- The number of bytes of the longest literal that is listed whole. -/
def listedWidth : Nat := 40

/-- A literal as it is listed: its first bytes, if it is long; nothing if they end within a
character. -/
def shorten? (literal : String) : Option String :=
  if listedWidth < literal.utf8ByteSize then
    (Text.takeBytes? listedWidth literal.toList).map fun cs => String.ofList cs ++ "..."
  else some literal

/-- Where a token stands and what it is, in columns. -/
def tokenColumns (t : Token) : String :=
  Text.alignRight 4 (toString t.span.start) ++ ".." ++ Text.alignRight 4 (toString t.span.stop) ++
    "  " ++ Text.alignLeft 12 t.kind.name ++ "  "

/-- The line of a token, if its literal can be listed. -/
def tokenLine? (t : Token) : Option String :=
  (shorten? t.literal).map fun shown => tokenColumns t ++ Text.quoted shown

/-- The line of an illegal character. -/
def illegalLine (e : IllegalChar) : String :=
  "ERROR at " ++ toString e.span.start ++ ".." ++ toString e.span.stop ++ ": " ++ e.message

/-- The closing lines, for so many tokens and illegal characters. -/
def lexClosing (tokens illegal : Nat) : Report where
  lines := ["", toString tokens ++ " tokens, " ++ toString illegal ++ " errors"]
  failure := failIfPositive illegal "lexer errors"

/-- Lists the items that are left, after so many tokens and illegal characters. -/
def listFrom (tokens illegal : Nat) : List Item → Report
  | [] => lexClosing tokens illegal
  | .token t :: items =>
    match tokenLine? t with
    | some line => (listFrom (tokens + 1) illegal items).after [line]
    | none => ⟨[], some .brokenOff⟩
  | .illegal e :: items => (listFrom tokens (illegal + 1) items).after [illegalLine e]

/-- The listing of a source text. -/
def lexSource (name source : String) : Report :=
  (listFrom 0 0 (Item.stream source)).after ["Tokenizing: " ++ name, ""]

/-- The listing of a file. -/
def lexReport (files : Files) (name : String) : Report :=
  match files name with
  | .ok source => lexSource name source
  | .error e => ⟨[], some (.reported ("Failed to read file: " ++ e.message))⟩

end MonkeyFrontEnd.Command
