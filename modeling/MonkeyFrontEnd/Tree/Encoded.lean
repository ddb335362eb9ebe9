import MonkeyFrontEnd.Json
import MonkeyFrontEnd.Tree

/-!
# Programs as JSON values

Every node is an object of its parts, in a fixed order. Where a place admits several kinds of node
or operator, the value says which: a node is wrapped in an object whose one key is its kind, a
token kind or an operator is its name.
-/

set_option autoImplicit false

namespace MonkeyFrontEnd

/-- A span as a JSON value. -/
def Span.toJson (s : Span) : Json :=
  .ofFields [("start", .int s.start), ("end", .int s.stop)]

/-- A token as a JSON value. -/
def Token.toJson (t : Token) : Json :=
  .ofFields [("kind", .ofString t.kind.name), ("literal", .ofString t.literal),
    ("span", t.span.toJson)]

/-- An identifier as a JSON value. -/
def Identifier.toJson (i : Identifier) : Json :=
  .ofFields [("token", i.token.toJson), ("value", .ofString i.name)]

/-- An expression as a JSON value. -/
def Expr.toJson : Expr → Json
  | .ident i => .ofFields [("Identifier", i.toJson)]
  | .int t value =>
    .ofFields [("IntegerLiteral", .ofFields [("token", t.toJson), ("value", .int value.toInt)])]
  | .unary t op right =>
    .ofFields [("Prefix", .ofFields [("token", t.toJson), ("operator", .ofString op.name),
      ("right", right.toJson)])]
  | .binary t left op right =>
    .ofFields [("Infix", .ofFields [("token", t.toJson), ("left", left.toJson),
      ("operator", .ofString op.name), ("right", right.toJson)])]

/-- A statement as a JSON value. -/
def Stmt.toJson : Stmt → Json
  | .letStmt t name value =>
    .ofFields [("Let", .ofFields [("token", t.toJson), ("name", name.toJson),
      ("value", value.toJson)])]
  | .returnStmt t value =>
    .ofFields [("Return", .ofFields [("token", t.toJson), ("value", value.toJson)])]
  | .exprStmt t e =>
    .ofFields [("Expression", .ofFields [("token", t.toJson), ("expression", e.toJson)])]

/-- A program as a JSON value. -/
def Program.toJson (p : Program) : Json :=
  .ofFields [("statements", .array (p.statements.map Stmt.toJson))]

end MonkeyFrontEnd
