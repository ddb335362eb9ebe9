/-!
# What the caller asks for

The arguments of the program, looked at from left to right. An argument that begins with a hyphen
is one or more flags, unless it is a single hyphen or stands behind `--`. Flags that ask for help
or the version are answered at once; every other one may be given once at each level, the
program's own and that of a command. The first argument that is wrong decides, whatever follows.
-/

set_option autoImplicit false

namespace MonkeyFrontEnd

/-- A thing that the program can do. -/
inductive Command
  | repl
  | parse (file : String) (json : Bool)
  | check (files : List String)
  | lex (file : String)
  deriving DecidableEq

namespace Command

/-- What there is a page of help about. -/
inductive Topic
  | program | repl | parse | check | lex | help
  deriving DecidableEq

/-- A request that can be answered. -/
inductive Request
  | run (c : Command)
  | help (topic : Topic)
  | version
  deriving DecidableEq

/-- Why arguments make no request. -/
inductive UsageError
  | unknownArgument (argument : String)
  | repeatedFlag (argument : String)
  | emptyFileName
  | missingFileName
  | unknownCommand (name : String)
  deriving DecidableEq

/-- The flags of all levels. -/
inductive Flag
  | verbose | help | version | json
  deriving DecidableEq

namespace Flag

/-- The flag that two hyphens and a word stand for. -/
def ofWord? : String → Option Flag
  | "verbose" => some verbose
  | "help" => some help
  | "version" => some version
  | "json" => some json
  | _ => none

/-- The flag that a letter behind one hyphen stands for. -/
def ofLetter? : Char → Option Flag
  | 'v' => some verbose
  | 'h' => some help
  | 'V' => some version
  | _ => none

end Flag

/-- The flags that a level knows. -/
def Topic.knows : Topic → Flag → Bool
  | .program, .version => true
  | .parse, .json => true
  | _, .version => false
  | _, .json => false
  | _, _ => true

/-- The command that a word names. -/
def Topic.ofWord? : String → Option Topic
  | "repl" => some .repl
  | "parse" => some .parse
  | "check" => some .check
  | "lex" => some .lex
  | "help" => some .help
  | _ => none

/-- What an argument is by its form: flags, of which unknown ones are `none`, the end of the
flags, or anything else. -/
inductive ArgumentForm
  | flags (fs : List (Option Flag))
  | endOfFlags
  | plain
  deriving DecidableEq

/-- The form of an argument. -/
def ArgumentForm.of (argument : String) : ArgumentForm :=
  match argument.toList with
  | ['-', '-'] => .endOfFlags
  | '-' :: '-' :: word => .flags [Flag.ofWord? (String.ofList word)]
  | '-' :: c :: cs => .flags ((c :: cs).map Flag.ofLetter?)
  | _ => .plain

/-- The arguments up to here settle the matter. -/
inductive Settled
  | answer (r : Request)
  | refuse (e : UsageError)
  deriving DecidableEq

/-- Reads the flags of one argument at a level where the flags `seen` have been given. -/
def readFlags (topic : Topic) (argument : String) (seen : List Flag) :
    List (Option Flag) → Except Settled (List Flag)
  | [] => .ok seen
  | none :: _ => .error (.refuse (.unknownArgument argument))
  | some f :: fs =>
    if !topic.knows f then .error (.refuse (.unknownArgument argument))
    else match f with
      | .help => .error (.answer (.help topic))
      | .version => .error (.answer .version)
      | .verbose | .json =>
        if seen.contains f then .error (.refuse (.repeatedFlag argument))
        else readFlags topic argument (f :: seen) fs

/-- How many file names a command takes at most. -/
def Topic.capacity? : Topic → Option Nat
  | .check => none
  | .parse | .lex => some 1
  | .program | .repl | .help => some 0

/-- Adds a file name to those of a command. -/
def addFile (topic : Topic) (files : List String) (name : String) :
    Except Settled (List String) :=
  if topic.capacity? = some files.length then .error (.refuse (.unknownArgument name))
  else if name = "" then .error (.refuse .emptyFileName)
  else .ok (files ++ [name])

/-- Reads the arguments behind a command: the flags given and the names of files. -/
def readArguments (topic : Topic) (onlyFiles : Bool) (seen : List Flag) (files : List String) :
    List String → Except Settled (List Flag × List String)
  | [] => .ok (seen, files)
  | argument :: arguments =>
    match if onlyFiles then .plain else ArgumentForm.of argument with
    | .flags fs => do
      readArguments topic onlyFiles (← readFlags topic argument seen fs) files arguments
    | .endOfFlags => readArguments topic true seen files arguments
    | .plain => do
      readArguments topic onlyFiles seen (← addFile topic files argument) arguments

/-- Reads what follows the word `help`. -/
def readHelp : List String → Settled
  | [] => .answer (.help .program)
  | word :: words =>
    match Topic.ofWord? word, words with
    | some topic, [] => .answer (.help topic)
    | some _, next :: _ => .refuse (.unknownCommand next)
    | none, _ => .refuse (.unknownCommand word)

/-- The request that a command makes with its flags and files. -/
def assemble : Topic → List Flag → List String → Settled
  | .repl, _, _ => .answer (.run .repl)
  | .check, _, files => .answer (.run (.check files))
  | .parse, seen, [file] => .answer (.run (.parse file (seen.contains .json)))
  | .lex, _, [file] => .answer (.run (.lex file))
  | _, _, _ => .refuse .missingFileName

/-- Reads a command with the arguments behind it. -/
def readCommand (topic : Topic) (arguments : List String) : Settled :=
  match topic with
  | .help => readHelp arguments
  | _ =>
    match readArguments topic false [] [] arguments with
    | .ok (seen, files) => assemble topic seen files
    | .error settled => settled

/-- Reads the arguments of the program, where the flags `seen` have been given. -/
def readProgram (seen : List Flag) : List String → Settled
  | [] => .answer (.run .repl)
  | argument :: arguments =>
    match ArgumentForm.of argument with
    | .flags fs =>
      match readFlags .program argument seen fs with
      | .ok seen => readProgram seen arguments
      | .error settled => settled
    | .endOfFlags =>
      match arguments with
      | [] => .answer (.run .repl)
      | next :: _ => .refuse (.unknownArgument next)
    | .plain =>
      match Topic.ofWord? argument with
      | some topic => readCommand topic arguments
      | none => .refuse (.unknownCommand argument)

/-- The request that the arguments of the program make. -/
def Request.ofArguments (arguments : List String) : Except UsageError Request :=
  match readProgram [] arguments with
  | .answer r => .ok r
  | .refuse e => .error e

/-- The names of the files that a command reads. -/
def fileNames : Command → List String
  | .repl => []
  | .parse file _ => [file]
  | .check files => files
  | .lex file => [file]

end Command

end MonkeyFrontEnd
