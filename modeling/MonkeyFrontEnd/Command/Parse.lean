import MonkeyFrontEnd.Command.Report
import MonkeyFrontEnd.Json.Writer
import MonkeyFrontEnd.Parse
import MonkeyFrontEnd.Tree.Encoded

/-!
# Showing the statements of a file

Each statement as its text, or the whole program as indented JSON, and the numbers of statements
and errors.
-/

set_option autoImplicit false

namespace MonkeyFrontEnd.Command

/-- What a statement is listed under: its first word, or `expr`. -/
def statementLabel (s : Stmt) : String :=
  if s.isExpr then "expr" else s.token.literal

/-- The line of a statement. -/
def statementLine (s : Stmt) : String :=
  "  " ++ Text.alignLeft 10 (statementLabel s) ++ " " ++ s.text

/-- The lines that show a program. -/
def programLines (json : Bool) (p : Program) : List String :=
  if json then [Json.indented p.toJson] else "AST:" :: p.statements.map statementLine

/-- The statements of a source text. -/
def parseSource (json : Bool) (name source : String) : Report :=
  let p := Parse.ofSource source
  { lines := ["Parsing: " ++ name, ""] ++ programLines json p.program ++
      ["", toString p.program.statements.length ++ " statements, " ++
        toString p.errors.length ++ " errors"]
    failure := failIfPositive p.errors.length "parse errors" }

/-- The statements of a file. -/
def parseReport (files : Files) (json : Bool) (name : String) : Report :=
  match files name with
  | .ok source => parseSource json name source
  | .error e => ⟨[], some (.reported ("Failed to read file: " ++ e.message))⟩

end MonkeyFrontEnd.Command
