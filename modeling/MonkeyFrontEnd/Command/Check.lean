import MonkeyFrontEnd.Command.Report
import MonkeyFrontEnd.Parse
import MonkeyFrontEnd.Position

/-!
# Checking files

One block of lines for each file, which shows every error with the line it stands in, and a
closing line with the total. The first file that cannot be read ends the check, without the
closing line.
-/

set_option autoImplicit false

namespace MonkeyFrontEnd.Command

/-- The text of a line with its number, if the source has that line. -/
def sourceLine (source : String) (line : Nat) : List String :=
  ((Text.lineText? source line).map fun text =>
    Text.alignRight 4 (toString line) ++ " | " ++ text).toList

/-- The lines that show an error. -/
def errorLines (name source : String) (e : ParseError) : List String :=
  let p := Position.ofOffset source e.span.start
  ["  error: " ++ e.message,
    "   --> " ++ name ++ ":" ++ toString p.line ++ ":" ++ toString p.column,
    "    |"] ++ sourceLine source p.line ++ ["    |"]

/-- The block of a file. -/
def checkBlock (name source : String) : List String :=
  let p := Parse.ofSource source
  ("Checking: " ++ name) :: p.errors.flatMap (errorLines name source) ++
    if p.errors.isEmpty then ["  ok (" ++ toString p.program.statements.length ++ " statements)"]
    else []

/-- The closing lines, for `total` errors in all. -/
def checkClosing (total : Nat) : Report :=
  if 0 < total then
    ⟨["", "Check complete: " ++ toString total ++ " error(s)"],
      some (.reported (toString total ++ " errors found"))⟩
  else ⟨["", "Check complete: no issues found"], none⟩

/-- Checks the files that are left, after `total` errors in those before. -/
def checkFrom (files : Files) (total : Nat) : List String → Report
  | [] => checkClosing total
  | name :: names =>
    match files name with
    | .ok source =>
      (checkFrom files (total + (Parse.ofSource source).errors.length) names).after
        (checkBlock name source)
    | .error e => ⟨[], some (.reported ("Failed to read " ++ name ++ ": " ++ e.message))⟩

/-- Checks files in the given order. -/
def checkReport (files : Files) (names : List String) : Report :=
  if names.isEmpty then ⟨[], some (.reported "No files specified")⟩ else checkFrom files 0 names

end MonkeyFrontEnd.Command
