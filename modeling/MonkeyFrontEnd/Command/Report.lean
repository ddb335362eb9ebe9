import MonkeyFrontEnd.Text.Align

/-!
# What a command leaves behind

A command answers with a `Report`: the lines it prints and, if it fails, the `Failure`. An `Outcome`
is what the caller of the program sees of that. Commands reach files only through a `Files`
function, so that they are functions of the files' contents.
-/

set_option autoImplicit false

namespace MonkeyFrontEnd.Command

/-- Why a file cannot be read as text. -/
inductive ReadError
  | notFound
  | isDirectory
  | notUtf8
  | other (reason : String)
  deriving DecidableEq

/-- What is said of a file that cannot be read. -/
def ReadError.message : ReadError → String
  | .notFound => "No such file or directory (os error 2)"
  | .isDirectory => "Is a directory (os error 21)"
  | .notUtf8 => "stream did not contain valid UTF-8"
  | .other reason => reason

/-- The texts of files by name. -/
abbrev Files := String → Except ReadError String

/-- The bytes of a file as text. -/
def decodeText (bytes : ByteArray) : Except ReadError String :=
  match String.fromUTF8? bytes with
  | some s => .ok s
  | none => .error .notUtf8

/-- How a command fails: with a reason that it reports, or in the middle of its work. -/
inductive Failure
  | reported (reason : String)
  | brokenOff
  deriving DecidableEq

namespace Failure

/-- The exit status of the program. -/
def exit : Failure → Nat
  | .reported _ => 1
  | .brokenOff => 101

/-- The reason, if it is reported. -/
def reason? : Failure → Option String
  | .reported reason => some reason
  | .brokenOff => none

end Failure

/-- The lines that a command prints, and how it fails if it does. -/
structure Report where
  lines : List String
  failure : Option Failure
  deriving DecidableEq

/-- The report with further lines in front. -/
def Report.after (lines : List String) (r : Report) : Report :=
  { r with lines := lines ++ r.lines }

theorem Report.after_after (as bs : List String) (r : Report) :
    (r.after bs).after as = r.after (as ++ bs) := by
  simp only [after, List.append_assoc]

/-- The exit status of the program, what it prints, and the failure that it reports. -/
structure Outcome where
  exit : Nat
  stdout : String
  failure : Option String
  deriving DecidableEq

/-- A report as the outcome of the program. -/
def Report.outcome (r : Report) : Outcome where
  exit := (r.failure.map Failure.exit).getD 0
  stdout := Text.unlines r.lines
  failure := r.failure.bind Failure.reason?

/-- Fails with the given reason if `n` is positive. -/
def failIfPositive (n : Nat) (reason : String) : Option Failure :=
  if 0 < n then some (.reported (toString n ++ " " ++ reason)) else none

end MonkeyFrontEnd.Command
