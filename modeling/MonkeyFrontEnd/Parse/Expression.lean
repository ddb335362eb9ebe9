import MonkeyFrontEnd.Tree

/-!
# Reading expressions

An expression is read token by token, with what is still unfinished around the current place kept
as a stack of `Frame`s, the innermost first. An operand is due or has just been read (`Reading`);
`operandStep` and `operatorStep` say what the next token does in the two cases. `close` finishes
the frames that hold their operand at least as tightly as the operator that follows, which makes
operators of one level group to the left.

`expression` runs the steps over a list of tokens, down to a floor: operators at or below that
level end the expression instead of joining it.
-/

set_option autoImplicit false

namespace MonkeyFrontEnd.Parse

/-- A part of an expression that waits for the operand to its right. -/
inductive Frame
  | unary (token : Token) (op : UnaryOp)
  | binary (left : Expr) (token : Token) (op : BinaryOp)
  | paren
  deriving DecidableEq

/-- Where the reading of an expression stands. -/
inductive Reading
  | operandDue (outer : List Frame)
  | operandRead (e : Expr) (outer : List Frame)
  deriving DecidableEq

/-- Why reading cannot go on with a token. -/
inductive Fault
  | unexpected (expected : Token.Kind)
  | noOperand
  | integerTooLarge
  deriving DecidableEq

/-- What a token does to an expression of which an operand has been read. -/
inductive Step
  | more (r : Reading)
  | complete (e : Expr)
  | fault (f : Fault)
  deriving DecidableEq

/-- The value of a row of digits, unless it exceeds the largest 64-bit integer. -/
def intValue? (digits : String) : Option Int64 :=
  let n := Nat.ofDigitChars 10 digits.toList 0
  if n ≤ Int64.maxValue.toInt then some (Int64.ofNat n) else none

/-- Hands `e` to the frames that hold their operand at the level `least` or tighter, from the
innermost outwards; parentheses stop it. -/
def close (least : Level) (e : Expr) : List Frame → Expr × List Frame
  | [] => (e, [])
  | .unary t op :: outer => close least (.unary t op e) outer
  | .binary l t op :: outer =>
    if least ≤ op.level then close least (.binary t l op e) outer
    else (e, .binary l t op :: outer)
  | .paren :: outer => (e, .paren :: outer)

/-- Reads a token where an operand is due. -/
def operandStep (outer : List Frame) (t : Token) : Except Fault Reading :=
  match t.kind with
  | .ident => .ok (.operandRead (.ident (.ofToken t)) outer)
  | .int =>
    match intValue? t.literal with
    | some value => .ok (.operandRead (.int t value) outer)
    | none => .error .integerTooLarge
  | .lparen => .ok (.operandDue (.paren :: outer))
  | kind =>
    match UnaryOp.ofKind? kind with
    | some op => .ok (.operandDue (.unary t op :: outer))
    | none => .error .noOperand

/-- Reads a token after an operand, in an expression whose outermost operators bind tighter than
`floor`. -/
def operatorStep (floor : Level) (e : Expr) (outer : List Frame) (t : Token) : Step :=
  match BinaryOp.ofKind? t.kind with
  | some op =>
    match close op.level e outer with
    | (e, []) => if floor < op.level then .more (.operandDue [.binary e t op]) else .complete e
    | (e, outer) => .more (.operandDue (.binary e t op :: outer))
  | none =>
    match close .lowest e outer with
    | (e, []) => .complete e
    | (e, _ :: outer) =>
      if t.kind = .rparen then .more (.operandRead e outer) else .fault (.unexpected .rparen)

theorem operandStep_semicolon {outer : List Frame} {t : Token} (h : t.kind = .semicolon) :
    operandStep outer t = .error .noOperand := by
  simp [operandStep, h, UnaryOp.ofKind?]

theorem operatorStep_semicolon {floor : Level} {e : Expr} {outer : List Frame} {t : Token}
    (h : t.kind = .semicolon) (r : Reading) : operatorStep floor e outer t ≠ .more r := by
  simp only [operatorStep, h, BinaryOp.ofKind?]
  split <;> simp

/-- What the end of the input makes of an expression. -/
def Reading.finish : Reading → Except Fault Expr
  | .operandDue _ => .error .noOperand
  | .operandRead e outer =>
    match close .lowest e outer with
    | (e, []) => .ok e
    | (_, _ :: _) => .error (.unexpected .rparen)

/-- Goes on reading an expression, and returns it with the tokens behind it; if that fails, the
fault with the tokens from the offending one on. -/
def Reading.run (floor : Level) : Reading → List Token →
    Except (Fault × List Token) (Expr × List Token)
  | .operandDue outer, t :: ts =>
    match operandStep outer t with
    | .ok r => run floor r ts
    | .error f => .error (f, t :: ts)
  | .operandRead e outer, t :: ts =>
    match operatorStep floor e outer t with
    | .more r => run floor r ts
    | .complete e => .ok (e, t :: ts)
    | .fault f => .error (f, t :: ts)
  | r, [] =>
    match r.finish with
    | .ok e => .ok (e, [])
    | .error f => .error (f, [])

/-- Reads the longest expression at the head of `tokens` whose outermost operators bind tighter
than `floor`. -/
def expression (floor : Level) (tokens : List Token) :
    Except (Fault × List Token) (Expr × List Token) :=
  Reading.run floor (.operandDue []) tokens

end MonkeyFrontEnd.Parse
