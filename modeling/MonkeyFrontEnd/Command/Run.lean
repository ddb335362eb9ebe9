import MonkeyFrontEnd.Command.Check
import MonkeyFrontEnd.Command.Help
import MonkeyFrontEnd.Command.Lex
import MonkeyFrontEnd.Command.Parse
import MonkeyFrontEnd.Command.Session

/-!
# The program as a function

From the arguments and the surroundings to the outcome: requests are answered, arguments that make
no request end the program with status 2 and print nothing.

The outcome is what a caller can rely on: standard output, the status and the message of a failure.
What else a run shows on standard error, such as excerpts of the text around an error and log lines,
is not part of it, nor are the prompt and the history of a session, which belong to its terminal.
-/

set_option autoImplicit false

namespace MonkeyFrontEnd.Command

/-- What a run of the program can see besides its arguments. -/
structure Surroundings where
  files : Files
  input : String
  environment : String → Option String

/-- The name by which the user is greeted. -/
def Surroundings.user (s : Surroundings) : String :=
  ((s.environment "USER").or (s.environment "USERNAME")).getD "there"

/-- The report of a command. -/
def report (s : Surroundings) : Command → Report
  | .repl => sessionReport .backspaces s.user (inputLines s.input)
  | .parse file json => parseReport s.files json file
  | .check files => checkReport s.files files
  | .lex file => lexReport s.files file

/-- The report of a request. -/
def Request.report (s : Surroundings) : Request → Report
  | .run c => c.report s
  | .help topic => ⟨topic.page, none⟩
  | .version => ⟨[versionLine], none⟩

/-- The outcome of the program. -/
def outcome (s : Surroundings) (arguments : List String) : Outcome :=
  match Request.ofArguments arguments with
  | .ok r => (r.report s).outcome
  | .error _ => ⟨2, "", none⟩

end MonkeyFrontEnd.Command
