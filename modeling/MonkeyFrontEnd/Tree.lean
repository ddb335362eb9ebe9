import MonkeyFrontEnd.Operator
import MonkeyFrontEnd.Token

/-!
# Programs as trees

Expressions, statements and programs. Every node keeps the token that introduced it, and nothing
ties that token to the rest of the node: hand-made trees may hold any token anywhere. Parentheses
leave no node, because the tree itself says what belongs together.
-/

set_option autoImplicit false

namespace MonkeyFrontEnd

/-- A name and the token it was read from. -/
structure Identifier where
  token : Token
  name : String
  deriving DecidableEq

/-- An expression. -/
inductive Expr
  | ident (i : Identifier)
  | int (token : Token) (value : Int64)
  | unary (token : Token) (op : UnaryOp) (operand : Expr)
  | binary (token : Token) (left : Expr) (op : BinaryOp) (right : Expr)
  deriving DecidableEq

/-- A statement. -/
inductive Stmt
  | letStmt (token : Token) (name : Identifier) (value : Expr)
  | returnStmt (token : Token) (value : Expr)
  | exprStmt (token : Token) (expr : Expr)
  deriving DecidableEq

/-- A program: statements one after the other. -/
structure Program where
  statements : List Stmt
  deriving DecidableEq

/-- An identifier whose name is its token's text. -/
def Identifier.ofToken (t : Token) : Identifier :=
  ⟨t, t.literal⟩

namespace Expr

/-- The token that introduced the expression: its operator's, where it has one. -/
def token : Expr → Token
  | .ident i => i.token
  | .int t _ => t
  | .unary t _ _ => t
  | .binary t _ _ _ => t

end Expr

namespace Stmt

/-- The token that introduced the statement. -/
def token : Stmt → Token
  | .letStmt t _ _ => t
  | .returnStmt t _ => t
  | .exprStmt t _ => t

/-- The statement consists of an expression alone. -/
def isExpr : Stmt → Bool
  | .exprStmt _ _ => true
  | _ => false

end Stmt

/-- An expression or a statement. -/
inductive Node
  | expr (e : Expr)
  | stmt (s : Stmt)
  deriving DecidableEq

end MonkeyFrontEnd
