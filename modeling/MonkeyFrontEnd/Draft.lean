import MonkeyFrontEnd.Tree.Text

/-!
# Nodes under construction

A `Draft` is a node whose children are still to come. Children are attached one by one, each to a
slot of its own and at most once; `finish` turns a draft into the node when no slot is empty. A
draft is written like the node, with nothing in the place of an absent child.
-/

set_option autoImplicit false

namespace MonkeyFrontEnd

namespace Draft

/-- The constructions that can be drafted. -/
inductive Construct
  | letStmt | returnStmt | exprStmt | unary | binary
  deriving DecidableEq

/-- The places for children. -/
inductive Slot
  | value | expression | left | right
  deriving DecidableEq

/-- What messages call the construction. -/
def Construct.describe : Construct → String
  | .letStmt => "let statement"
  | .returnStmt => "return statement"
  | .exprStmt => "expression statement"
  | .unary => "prefix expression"
  | .binary => "infix expression"

/-- What messages call the slot. -/
def Slot.describe : Slot → String
  | .value => "value"
  | .expression => "expression"
  | .left => "left operand"
  | .right => "right operand"

end Draft

/-- A node of which children may be absent. -/
inductive Draft
  | letStmt (token : Token) (name : Identifier) (value : Option Expr)
  | returnStmt (token : Token) (value : Option Expr)
  | exprStmt (token : Token) (expression : Option Expr)
  | unary (token : Token) (op : UnaryOp) (right : Option Expr)
  | binary (token : Token) (op : BinaryOp) (left right : Option Expr)
  deriving DecidableEq

/-- A draft was to be finished while a slot was empty. -/
structure Incomplete where
  construct : Draft.Construct
  slot : Draft.Slot
  span : Span
  deriving DecidableEq

namespace Incomplete

/-- What the message calls the empty slot: the only operand is just that. -/
def slotName (e : Incomplete) : String :=
  match e.construct, e.slot with
  | .unary, .right => "operand"
  | _, slot => slot.describe

/-- What is said of an incomplete node. -/
def message (e : Incomplete) : String :=
  e.construct.describe ++ " is missing its " ++ e.slotName

end Incomplete

namespace Draft

/-- A child cannot be attached. -/
inductive AttachError
  | occupied (slot : Slot)
  | noSuchSlot (slot : Slot)
  deriving DecidableEq

/-- What is said of a child that cannot be attached. -/
def AttachError.message : AttachError → String
  | .occupied slot => slot.describe ++ " attached twice"
  | .noSuchSlot slot => "no " ++ slot.describe ++ " here"

/-- The token that introduces the node. -/
def token : Draft → Token
  | .letStmt t _ _ => t
  | .returnStmt t _ => t
  | .exprStmt t _ => t
  | .unary t _ _ => t
  | .binary t _ _ _ => t

/-- Which construction is drafted. -/
def construct : Draft → Construct
  | .letStmt .. => .letStmt
  | .returnStmt .. => .returnStmt
  | .exprStmt .. => .exprStmt
  | .unary .. => .unary
  | .binary .. => .binary

/-- What a slot holds; `none` if the construction has no such slot. -/
def slot? : Draft → Slot → Option (Option Expr)
  | .letStmt _ _ value, .value => some value
  | .returnStmt _ value, .value => some value
  | .exprStmt _ expression, .expression => some expression
  | .unary _ _ right, .right => some right
  | .binary _ _ left _, .left => some left
  | .binary _ _ _ right, .right => some right
  | _, _ => none

/-- Puts a child into a slot, whatever it held before. -/
def fill : Draft → Slot → Expr → Draft
  | .letStmt t name _, .value, e => .letStmt t name (some e)
  | .returnStmt t _, .value, e => .returnStmt t (some e)
  | .exprStmt t _, .expression, e => .exprStmt t (some e)
  | .unary t op _, .right, e => .unary t op (some e)
  | .binary t op _ right, .left, e => .binary t op (some e) right
  | .binary t op left _, .right, e => .binary t op left (some e)
  | d, _, _ => d

/-- Attaches a child to an empty slot. -/
def attach (d : Draft) (slot : Slot) (e : Expr) : Except AttachError Draft :=
  match d.slot? slot with
  | some none => .ok (d.fill slot e)
  | some (some _) => .error (.occupied slot)
  | none => .error (.noSuchSlot slot)

/-- The node, once every slot is full; otherwise the first slot that is empty. -/
def finish : Draft → Except Incomplete Node
  | .letStmt t name (some value) => .ok (.stmt (.letStmt t name value))
  | .returnStmt t (some value) => .ok (.stmt (.returnStmt t value))
  | .exprStmt t (some e) => .ok (.stmt (.exprStmt t e))
  | .unary t op (some right) => .ok (.expr (.unary t op right))
  | .binary t op (some left) (some right) => .ok (.expr (.binary t left op right))
  | .letStmt t _ none => .error ⟨.letStmt, .value, t.span⟩
  | .returnStmt t none => .error ⟨.returnStmt, .value, t.span⟩
  | .exprStmt t none => .error ⟨.exprStmt, .expression, t.span⟩
  | .unary t _ none => .error ⟨.unary, .right, t.span⟩
  | .binary t _ none _ => .error ⟨.binary, .left, t.span⟩
  | .binary t _ (some _) none => .error ⟨.binary, .right, t.span⟩

/-- The text of a child, which is empty where there is none. -/
def childText (child : Option Expr) : String :=
  (child.map Expr.text).getD ""

/-- The text of a draft. -/
def text : Draft → String
  | .letStmt _ name value => "let " ++ name.name ++ " = " ++ childText value ++ ";"
  | .returnStmt _ value => "return " ++ childText value ++ ";"
  | .exprStmt _ e => childText e
  | .unary _ op right => "(" ++ op.sign ++ childText right ++ ")"
  | .binary _ op left right =>
    "(" ++ childText left ++ " " ++ op.sign ++ " " ++ childText right ++ ")"

end Draft

end MonkeyFrontEnd
