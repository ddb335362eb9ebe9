/-!
# Kinds of tokens

The seven keywords, the ten operators, the six delimiters, identifiers, integers and the end of
input. Words and signs are tied to their kinds by one table, `Kind.spelling?`, from which both
`Kind.keyword?` and the wording of messages are read off.
-/

set_option autoImplicit false

namespace MonkeyFrontEnd.Token

/-- The kind of a token. -/
inductive Kind
  | kwFn | kwLet | kwTrue | kwFalse | kwIf | kwElse | kwReturn
  | assign | plus | minus | bang | asterisk | slash | lt | gt | eq | notEq
  | comma | semicolon | lparen | rparen | lbrace | rbrace
  | ident | int | eof
  deriving DecidableEq

namespace Kind

/-- Every kind. -/
def all : List Kind :=
  [kwFn, kwLet, kwTrue, kwFalse, kwIf, kwElse, kwReturn,
    assign, plus, minus, bang, asterisk, slash, lt, gt, eq, notEq,
    comma, semicolon, lparen, rparen, lbrace, rbrace, ident, int, eof]

theorem mem_all (k : Kind) : k ∈ all := by
  cases k <;> decide

/-- The text of a token of this kind, where the kind leaves no choice. -/
def spelling? : Kind → Option String
  | kwFn => some "fn"
  | kwLet => some "let"
  | kwTrue => some "true"
  | kwFalse => some "false"
  | kwIf => some "if"
  | kwElse => some "else"
  | kwReturn => some "return"
  | assign => some "="
  | plus => some "+"
  | minus => some "-"
  | bang => some "!"
  | asterisk => some "*"
  | slash => some "/"
  | lt => some "<"
  | gt => some ">"
  | eq => some "=="
  | notEq => some "!="
  | comma => some ","
  | semicolon => some ";"
  | lparen => some "("
  | rparen => some ")"
  | lbrace => some "\x7b"
  | rbrace => some "\x7d"
  | ident => none
  | int => none
  | eof => none

/-- How messages speak of the kind: by its spelling where it has one. -/
def describe : Kind → String
  | ident => "identifier"
  | int => "integer"
  | eof => "end of file"
  | k => k.spelling?.getD ""

/-- The kind's own name, as listings and encoded programs write it. -/
def name : Kind → String
  | kwFn => "Function"
  | kwLet => "Let"
  | kwTrue => "True"
  | kwFalse => "False"
  | kwIf => "If"
  | kwElse => "Else"
  | kwReturn => "Return"
  | assign => "Assign"
  | plus => "Plus"
  | minus => "Minus"
  | bang => "Bang"
  | asterisk => "Asterisk"
  | slash => "Slash"
  | lt => "Lt"
  | gt => "Gt"
  | eq => "Eq"
  | notEq => "NotEq"
  | comma => "Comma"
  | semicolon => "Semicolon"
  | lparen => "LParen"
  | rparen => "RParen"
  | lbrace => "LBrace"
  | rbrace => "RBrace"
  | ident => "Ident"
  | int => "Int"
  | eof => "Eof"

/-- The kind of a given name. -/
def ofName? (s : String) : Option Kind :=
  all.find? fun k => k.name = s

@[simp] theorem ofName?_name (k : Kind) : ofName? k.name = some k := by
  cases k <;> decide

theorem eq_name_of_ofName? {s : String} {k : Kind} (h : ofName? s = some k) : s = k.name := by
  exact (by simpa using List.find?_some h : k.name = s).symm

/-- The kinds of reserved words. -/
def isKeyword : Kind → Bool
  | kwFn | kwLet | kwTrue | kwFalse | kwIf | kwElse | kwReturn => true
  | _ => false

/-- The reserved word that `word` is, if it is one. -/
def keyword? (word : String) : Option Kind :=
  all.find? fun k => k.isKeyword && k.spelling? == some word

@[simp] theorem keyword?_describe {k : Kind} (h : k.isKeyword) : keyword? k.describe = some k := by
  cases k <;> first | decide | cases h

/-- The token that the single character `c` makes, if it is one of the signs. -/
def ofSign? : Char → Option Kind
  | '=' => some assign
  | '+' => some plus
  | '-' => some minus
  | '!' => some bang
  | '*' => some asterisk
  | '/' => some slash
  | '<' => some lt
  | '>' => some gt
  | ',' => some comma
  | ';' => some semicolon
  | '(' => some lparen
  | ')' => some rparen
  | '\x7b' => some lbrace
  | '\x7d' => some rbrace
  | _ => none

end Kind

end MonkeyFrontEnd.Token
