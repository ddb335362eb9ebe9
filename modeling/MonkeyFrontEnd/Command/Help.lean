import MonkeyFrontEnd.Command.Request

/-!
# Help

The pages that the program prints about itself and its commands.
-/

set_option autoImplicit false

namespace MonkeyFrontEnd.Command

/-- The line about the flag that every page but one has. -/
def verboseLine : String := "  -v, --verbose  Enable verbose output"

/-- The line about help itself. -/
def helpLine : String := "  -h, --help     Print help"

/-- The lines of a page of help. -/
def Topic.page : Topic → List String
  | .program =>
    ["Command-line interface and REPL for the Monkey programming language", "",
      "Usage: monkey [OPTIONS] [COMMAND]", "",
      "Commands:",
      "  repl   Start the interactive REPL (default)",
      "  parse  Parse a Monkey file and show the reconstructed AST",
      "  check  Check Monkey files for parse errors",
      "  lex    Tokenize a Monkey file and show tokens",
      "  help   Print this message or the help of the given subcommand(s)", "",
      "Options:", verboseLine, helpLine,
      "  -V, --version  Print version"]
  | .repl =>
    ["Start the interactive REPL (default)", "",
      "Usage: monkey repl [OPTIONS]", "",
      "Options:", verboseLine, helpLine]
  | .parse =>
    ["Parse a Monkey file and show the reconstructed AST", "",
      "Usage: monkey parse [OPTIONS] <FILE>", "",
      "Arguments:", "  <FILE>  Input file", "",
      "Options:",
      "      --json     Output as JSON", verboseLine, helpLine]
  | .check =>
    ["Check Monkey files for parse errors", "",
      "Usage: monkey check [OPTIONS] [FILES]...", "",
      "Arguments:", "  [FILES]...  Input file(s)", "",
      "Options:", verboseLine, helpLine]
  | .lex =>
    ["Tokenize a Monkey file and show tokens", "",
      "Usage: monkey lex [OPTIONS] <FILE>", "",
      "Arguments:", "  <FILE>  Input file", "",
      "Options:", verboseLine, helpLine]
  | .help =>
    ["Print this message or the help of the given subcommand(s)", "",
      "Usage: monkey help [COMMAND]...", "",
      "Arguments:", "  [COMMAND]...  Print help for the subcommand(s)"]

/-- The line that names the program and its version. -/
def versionLine : String := "monkey 0.1.0"

end MonkeyFrontEnd.Command
