import MonkeyFrontEnd.Parse

/-!
# Reading by descent

The language once more, read by functions that call each other, one for each part of the grammar.
Here every node is built as a `Draft`: it is opened with the node's first token, its children are
attached once they have been read, and it is finished at the end. Of the tokens that are left the
first one is the current token, the next one is looked at ahead (`peek`); where none are left, the
token that marks the end stands for both.

A function that fails records an error, and the statement is given up (`Halt.failed`). A draft that
is misused breaks everything off (`Halt.misused`), and so does a finished draft of the wrong sort.
-/

set_option autoImplicit false

namespace MonkeyFrontEnd.Parse.Descent

/-- Why a part of a program was not read. -/
inductive Halt
  | misused (e : Draft.AttachError)
  | wrongSort (n : Node)
  | failed (notice : Notice) (ts : List Token)

/-- What was read from the head of `ts`, and the tokens from the last one on that belongs to it. -/
structure Result (α : Type) (ts : List Token) where
  value : α
  left : List Token
  le : left.length ≤ ts.length

/-- The result, as one of more tokens. -/
def Result.within {α : Type} {ts us : List Token} (r : Result α us) (h : us.length ≤ ts.length) :
    Result α ts :=
  ⟨r.value, r.left, Nat.le_trans r.le h⟩

/-- The token behind the current one. -/
def peek (last : Token) (ts : List Token) : Token :=
  ts.tail.headD last

/-- Records an error, for which the text has been read up to the token ahead. -/
def fail {α : Type} (last : Token) (e : ParseError) (ts : List Token) : Except Halt α :=
  .error (.failed ⟨(peek last ts).span.start, e⟩ ts)

/-- Attaches a child. -/
def attach (d : Draft) (slot : Draft.Slot) (e : Expr) : Except Halt Draft :=
  (d.attach slot e).mapError .misused

/-- Finishes a draft. -/
def complete (last : Token) (d : Draft) (ts : List Token) : Except Halt Node :=
  match d.finish with
  | .ok n => .ok n
  | .error e => fail last (.incomplete e) ts

/-- Finishes the draft of an expression. -/
def completeExpr (last : Token) (d : Draft) (ts : List Token) : Except Halt Expr := do
  match ← complete last d ts with
  | .expr e => .ok e
  | n => .error (.wrongSort n)

/-- Finishes the draft of a statement. -/
def completeStmt (last : Token) (d : Draft) (ts : List Token) : Except Halt Stmt := do
  match ← complete last d ts with
  | .stmt s => .ok s
  | n => .error (.wrongSort n)

/-- Goes on to the next token, which has to be of the given kind; returns it with those behind. -/
def expectPeek (last : Token) (kind : Token.Kind) (ts : List Token) :
    Except Halt (Result Token ts) :=
  match ts with
  | c :: t :: ts =>
    if t.kind = kind then .ok ⟨t, t :: ts, by simp⟩
    else fail last (.unexpectedToken kind t.kind t.span) (c :: t :: ts)
  | ts => fail last (.unexpectedToken kind last.kind last.span) ts

mutual

/-- Reads an expression whose outermost operators bind tighter than `floor`. -/
def expression (last : Token) (floor : Level) (ts : List Token) :
    Except Halt (Result Expr ts) := do
  let first ← operand last ts
  let whole ← operators last floor first.value first.left
  return whole.within first.le
termination_by (ts.length, 1)
decreasing_by
  · exact .right _ (by decide)
  · have := first.le
    simp only [Prod.lex_def]
    omega

/-- Reads what an expression begins with. -/
def operand (last : Token) (ts : List Token) : Except Halt (Result Expr ts) :=
  match ts with
  | [] => fail last (.noOperand last.kind last.span) []
  | t :: ts =>
    match UnaryOp.ofKind? t.kind with
    | some op => do
      let draft := Draft.unary t op none
      let right ← expression last .unary ts
      let e ← completeExpr last (← attach draft .right right.value) right.left
      return ⟨e, right.left, Nat.le_succ_of_le right.le⟩
    | none =>
      match t.kind with
      | .ident => .ok ⟨.ident (.ofToken t), t :: ts, Nat.le_refl _⟩
      | .int =>
        match intValue? t.literal with
        | some value => .ok ⟨.int t value, t :: ts, Nat.le_refl _⟩
        | none => fail last (.integerTooLarge t.literal t.span) (t :: ts)
      | .lparen => do
        let inner ← expression last .lowest ts
        let close ← expectPeek last .rparen inner.left
        return ⟨inner.value, close.left, Nat.le_succ_of_le (Nat.le_trans close.le inner.le)⟩
      | kind => fail last (.noOperand kind t.span) (t :: ts)
termination_by (ts.length, 0)

/-- Goes on behind an operand, the last token of which is the current one. -/
def operators (last : Token) (floor : Level) (left : Expr) (ts : List Token) :
    Except Halt (Result Expr ts) :=
  match ts with
  | c :: t :: ts =>
    match BinaryOp.ofKind? t.kind with
    | some op =>
      if floor < op.level then do
        let draft ← attach (.binary t op none none) .left left
        let right ← expression last op.level ts
        let e ← completeExpr last (← attach draft .right right.value) right.left
        have behind : right.left.length ≤ (c :: t :: ts).length :=
          Nat.le_succ_of_le (Nat.le_succ_of_le right.le)
        let whole ← operators last floor e right.left
        return whole.within behind
      else .ok ⟨left, c :: t :: ts, Nat.le_refl _⟩
    | none => .ok ⟨left, c :: t :: ts, Nat.le_refl _⟩
  | ts => .ok ⟨left, ts, Nat.le_refl _⟩
termination_by (ts.length, 0)
decreasing_by
  · simp only [Prod.lex_def, List.length_cons]
    omega
  · have := right.le
    simp only [Prod.lex_def, List.length_cons]
    omega

end

/-- Takes a semicolon that follows. -/
def takeSemicolon : List Token → List Token
  | c :: t :: ts => if t.kind = .semicolon then t :: ts else c :: t :: ts
  | ts => ts

/-- Reads the expression of a statement, of which all that stands before it has been read, and
finishes the statement. -/
def body (last : Token) (draft : Draft) (slot : Draft.Slot) (ts : List Token) :
    Except Halt (Stmt × List Token) := do
  let e ← expression last .lowest ts
  let left := takeSemicolon e.left
  let s ← completeStmt last (← attach draft slot e.value) left
  return (s, left)

/-- Reads a statement that begins with `t`, and returns it with the tokens from its last one on. -/
def statement (last t : Token) (ts : List Token) : Except Halt (Stmt × List Token) :=
  match t.kind with
  | .kwLet => do
    let name ← expectPeek last .ident (t :: ts)
    let draft := Draft.letStmt t (.ofToken name.value) none
    let assign ← expectPeek last .assign name.left
    body last draft .value assign.left.tail
  | .kwReturn => body last (.returnStmt t none) .value ts
  | _ => body last (.exprStmt t none) .expression (t :: ts)

end MonkeyFrontEnd.Parse.Descent
