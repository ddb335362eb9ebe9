import MonkeyFrontEnd.Command.Report
import MonkeyFrontEnd.Parse
import MonkeyFrontEnd.Position
import MonkeyFrontEnd.Text.Backspace
import MonkeyFrontEnd.Text.WhiteSpace

/-!
# The interactive session

A line is taken as a `LineEditor` hands it over, without the white space at its ends; the session
breaks off at a line that cannot be edited. A line is a request if it is one of a few words that
begin with a colon, and a program otherwise. A program without errors is answered with its text. The
only thing that a session remembers is whether it echoes tokens.

What a line editor does to a line with backspaces is its own affair: `LineEditor.backspaces` is the
one that the program has, and no other line is changed by any.
-/

set_option autoImplicit false

namespace MonkeyFrontEnd.Command

/-- What the lines of a session go through before they are answered. -/
structure LineEditor where
  /-- The line once it was edited; nothing if it cannot be edited. -/
  edit? : String → Option String
  /-- A line stays as it is where nothing is taken back. -/
  edit?_eq : ∀ {line : String}, '\x08' ∉ line.toList → edit? line = some line

/-- The editor that lets backspaces take effect. -/
def LineEditor.backspaces : LineEditor :=
  ⟨Text.applyBackspaces?, Text.applyBackspaces?_eq⟩

/-- What a session remembers between lines. -/
structure Session where
  echo : Bool
  deriving DecidableEq

namespace Session

/-- A session before its first line. -/
def initial : Session :=
  ⟨false⟩

/-- The lines with which a session begins. -/
def greeting (user : String) : List String :=
  ["Hello, " ++ user ++ "! This is the Monkey programming language",
    "Type in commands to get started. Use :help for help, :quit or Ctrl+D to exit."]

/-- The answer to a request for help. -/
def help : List String :=
  ["Commands:",
    "  :tokens  - Toggle echoing the token stream",
    "  :help    - Show this help",
    "  :quit    - Exit REPL"]

/-- A token as it is echoed. -/
def tokenEcho (t : Token) : String :=
  t.kind.name ++ "(" ++ t.literal ++ ")"

/-- The tokens of a line as they are echoed, the end of the line included. -/
def tokensEcho (line : String) : String :=
  " ".intercalate ((Token.ofSource line ++ [Token.ofEnd line]).map tokenEcho)

/-- The answer to a line that is a program. -/
def programEcho (line : String) : List String :=
  let p := Parse.ofSource line
  if p.errors.isEmpty then [p.program.text] else []

/-- What a line brings about. -/
inductive Reply
  | next (s : Session) (out : List String)
  | quit
  | brokenOff
  deriving DecidableEq

/-- The reply to a line that was already trimmed. -/
def answer (s : Session) (line : String) : Reply :=
  if line = "" then .next s []
  else if line = ":quit" || line = ":q" then .quit
  else if line = ":help" || line = ":h" then .next s help
  else if line = ":tokens" then
    .next ⟨!s.echo⟩ ["token echo " ++ if s.echo then "off" else "on"]
  else .next s ((if s.echo then [tokensEcho line] else []) ++ programEcho line)

/-- The reply to a line. -/
def reply (editor : LineEditor) (s : Session) (line : String) : Reply :=
  match editor.edit? line with
  | some edited => s.answer (Text.trim edited)
  | none => .brokenOff

/-- The answers to the lines of a session, up to its end. -/
def run (editor : LineEditor) : Session → List String → Report
  | _, [] => ⟨[], none⟩
  | s, line :: lines =>
    match s.reply editor line with
    | .next s out => (run editor s lines).after out
    | .quit => ⟨[], none⟩
    | .brokenOff => ⟨[], some .brokenOff⟩

end Session

/-- The lines of an input. -/
def inputLines (input : String) : List String :=
  (Text.pieces input.toList).map String.ofList

/-- A session over the given lines. -/
def sessionReport (editor : LineEditor) (user : String) (lines : List String) : Report :=
  (Session.initial.run editor lines).after (Session.greeting user)

end MonkeyFrontEnd.Command
