import MonkeyFrontEnd.Tree

/-!
# Trees written as source text

The text of a tree has every operation in parentheses, so that reading it needs no rules about
which operator holds tighter. Numbers keep the spelling of their token. An expression statement
ends in no semicolon of its own; one is put between it and a statement that follows, or the two
might run together (`a; b` would become `ab`).
-/

set_option autoImplicit false

namespace MonkeyFrontEnd

/-- A unary operation around the text of its operand. -/
def UnaryOp.around (op : UnaryOp) (operand : String) : String :=
  "(" ++ op.sign ++ operand ++ ")"

/-- A binary operation around the texts of its operands. -/
def BinaryOp.around (op : BinaryOp) (left right : String) : String :=
  "(" ++ left ++ " " ++ op.sign ++ " " ++ right ++ ")"

/-- The text of an expression. -/
def Expr.text : Expr → String
  | .ident i => i.name
  | .int t _ => t.literal
  | .unary _ op e => op.around e.text
  | .binary _ l op r => op.around l.text r.text

namespace Stmt

/-- A let statement around the text of its value. -/
def letText (name : Identifier) (value : String) : String :=
  "let " ++ name.name ++ " = " ++ value ++ ";"

/-- A return statement around the text of its value. -/
def returnText (value : String) : String :=
  "return " ++ value ++ ";"

/-- The text of a statement. -/
def text : Stmt → String
  | .letStmt _ name value => letText name value.text
  | .returnStmt _ value => returnText value.text
  | .exprStmt _ e => e.text

end Stmt

namespace Program

/-- The text of statements in a row. -/
def textOf : List Stmt → String
  | [] => ""
  | [s] => s.text
  | s :: next :: rest => s.text ++ (if s.isExpr then ";" else "") ++ textOf (next :: rest)

/-- The text of a program. -/
def text (p : Program) : String :=
  textOf p.statements

/-- The text of the token that introduces the program. -/
def literal (p : Program) : String :=
  match p.statements with
  | [] => ""
  | s :: _ => s.token.literal

end Program

/-- The text of a node. -/
def Node.text : Node → String
  | .expr e => e.text
  | .stmt s => s.text

/-- The token that introduced the node. -/
def Node.token : Node → Token
  | .expr e => e.token
  | .stmt s => s.token

end MonkeyFrontEnd
