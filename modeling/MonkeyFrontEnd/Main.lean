import MonkeyFrontEnd.Command.Run

/-!
# The command line

Reads files, standard input and the environment for the commands, and prints their reports. Lines
of a session are answered one at a time.
-/

set_option autoImplicit false

namespace MonkeyFrontEnd.Main

open Command

/-- Why reading a file failed. -/
def readErrorOf : IO.Error → ReadError
  | .noFileOrDirectory .. => .notFound
  | .inappropriateType .. => .isDirectory
  | e => .other (toString e)

/-- Reads the named files as texts. -/
def readFiles (names : List String) : IO (List (String × Except ReadError String)) :=
  names.mapM fun (name : String) => do
    try
      let bytes ← IO.FS.readBinFile name
      return (name, decodeText bytes)
    catch e => return (name, .error (readErrorOf e))

/-- Answers the lines of standard input until it or the session ends, and returns the exit status of
the program. -/
partial def converse (input output : IO.FS.Stream) (s : Session) : IO UInt32 := do
  let line ← input.getLine
  if line = "" then return 0
  match s.reply .backspaces line with
  | .quit => return 0
  | .brokenOff => return UInt32.ofNat Failure.brokenOff.exit
  | .next s out =>
    output.putStr (Text.unlines out)
    output.flush
    converse input output s

/-- Prints a report, and returns the exit status of the program. -/
def conclude (r : Report) : IO UInt32 := do
  (← IO.getStdout).putStr r.outcome.stdout
  match r.outcome.failure with
  | some reason => IO.eprintln ("Error: " ++ reason)
  | none => pure ()
  return UInt32.ofNat r.outcome.exit

end MonkeyFrontEnd.Main

open MonkeyFrontEnd Command in
/-- The program. -/
def main (arguments : List String) : IO UInt32 := do
  let user ← IO.getEnv "USER"
  let username ← IO.getEnv "USERNAME"
  let environment := fun name =>
    if name = "USER" then user else if name = "USERNAME" then username else none
  match Request.ofArguments arguments with
  | .error _ =>
    IO.eprintln "error: the arguments make no request; try --help"
    return 2
  | .ok (.run .repl) =>
    let s : Surroundings := ⟨fun _ => .error .notFound, "", environment⟩
    let output ← IO.getStdout
    output.putStr (Text.unlines (Session.greeting s.user))
    output.flush
    Main.converse (← IO.getStdin) output Session.initial
  | .ok r =>
    let names := match r with
      | .run c => c.fileNames
      | _ => []
    let texts ← Main.readFiles names
    let files := fun name => (texts.lookup name).getD (.error .notFound)
    Main.conclude (r.report ⟨files, "", environment⟩)
