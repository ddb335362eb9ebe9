import MonkeyFrontEnd.Parse
import MonkeyFrontEnd.Reader

/-!
# Reading by descent, a token ahead

A `Walker` reads a source text with a current token and the one ahead of it, and records errors as
it comes upon them: the illegal characters that its reader meets, and the faults of the program. It
goes on to the next token with `advance`; whatever else it does is made of that and of recording.
What its functions come to is an `Outcome`: a value, or nothing, if an error was recorded and the
statement has to be given up.

A walker can always be asked for another token, and at the end of the text it is given the end
again. What gets less is its `bound`, as long as one of its two tokens is not the end.
-/

set_option autoImplicit false

namespace MonkeyFrontEnd

/-- One for a token of a text, and nothing for its end. -/
def Token.count (t : Token) : Nat :=
  if t.kind = .eof then 0 else 1

theorem Token.count_eq_one {t : Token} (h : t.kind ≠ .eof) : t.count = 1 :=
  if_neg h

theorem Token.count_le_one (t : Token) : t.count ≤ 1 := by
  unfold count
  split <;> decide

namespace Reader

/-- A token that has been taken, what the next one is taken from, and the illegal characters that
were passed on the way. -/
structure Taken where
  token : Token
  after : Reader
  illegal : List IllegalChar

/-- Takes the next token; behind the last one, the end of the text. -/
def takeToken (r : Reader) : Taken :=
  match _taken : r.next with
  | (some (.token t), after) => ⟨t, after, []⟩
  | (some (.illegal e), after) =>
    let behind := after.takeToken
    { behind with illegal := e :: behind.illegal }
  | (none, after) => ⟨.ofEnd after.source, after, []⟩
termination_by r.bound
decreasing_by exact bound_of_next _taken

theorem eq_of_next_none {r after : Reader} (h : r.next = (none, after)) : after = r := by
  simp only [next] at h
  split at h
  · cases h
  · simp only [read] at h
    split at h
    · cases h
    · split at h <;> cases h
      rfl

/-- Taking a token takes items, unless there is none left. -/
theorem bound_takeToken (r : Reader) :
    r.takeToken.after.bound + r.takeToken.token.count ≤ r.bound := by
  fun_induction takeToken r with
  | case1 r t after taken =>
    have less := bound_of_next taken
    have le := t.count_le_one
    simp only
    omega
  | case2 r e after taken behind ih =>
    have less := bound_of_next taken
    have le : behind.after.bound + behind.token.count ≤ after.bound := ih
    simp only
    omega
  | case3 r after taken =>
    rw [eq_of_next_none taken]
    exact Nat.le_refl _

end Reader

/-- How strongly the operator holds its operands that a token of the kind stands for, if it stands
for one. -/
def Level.ofKind : Token.Kind → Level
  | .eq | .notEq => .equality
  | .lt | .gt => .comparison
  | .plus | .minus => .sum
  | .asterisk | .slash => .product
  | _ => .lowest

/-- A source text that is read token by token. -/
structure Walker where
  reader : Reader
  current : Token
  ahead : Token
  errors : List ParseError

namespace Walker

/-- Goes on to the next token. -/
def advance (w : Walker) : Walker where
  reader := w.reader.takeToken.after
  current := w.ahead
  ahead := w.reader.takeToken.token
  errors := w.errors ++ w.reader.takeToken.illegal.map .illegalChar

/-- Records an error. -/
def record (w : Walker) (e : ParseError) : Walker :=
  { w with errors := w.errors ++ [e] }

/-- A walker that has read nothing of a source text. -/
def fresh (source : String) : Walker :=
  ⟨.ofSource source, .endAt 0, .endAt 0, []⟩

/-- A walker at the first token of a source text. -/
def ofSource (source : String) : Walker :=
  (fresh source).advance.advance

/-! ### What gets less -/

/-- Grows with the number of items that have not been taken, and counts the two tokens if they are
not the end. -/
def bound (w : Walker) : Nat :=
  w.current.count + 2 * w.ahead.count + 3 * w.reader.bound

variable {w : Walker}

theorem bound_advance_add_le (w : Walker) :
    w.advance.bound + w.current.count + w.ahead.count ≤ w.bound := by
  have less := w.reader.bound_takeToken
  simp only [bound, advance]
  omega

theorem bound_advance_le (w : Walker) : w.advance.bound ≤ w.bound := by
  have := w.bound_advance_add_le
  omega

theorem bound_advance_lt (h : w.current.kind ≠ .eof ∨ w.ahead.kind ≠ .eof) :
    w.advance.bound < w.bound := by
  have := w.bound_advance_add_le
  rcases h with h | h
  · rw [Token.count_eq_one h] at this
    omega
  · rw [Token.count_eq_one h] at this
    omega

theorem bound_record (w : Walker) (e : ParseError) : (w.record e).bound = w.bound := rfl

/-! ### Outcomes -/

/-- What a part of a program is read as, from the walker `w` on; the part that fails last has
recorded why. Misuse of drafts ends everything. -/
inductive Outcome (α : Type) (w : Walker)
  | read (value : α) (after : Walker) (le : after.bound ≤ w.bound)
  | failed (after : Walker) (le : after.bound ≤ w.bound)
  | misused (e : Draft.AttachError)
  | wrongSort (n : Node)

namespace Outcome

variable {α β : Type} {w v : Walker}

/-- The outcome, as one of a walker that was there before. -/
def within (le : v.bound ≤ w.bound) : Outcome α v → Outcome α w
  | .read value after less => .read value after (Nat.le_trans less le)
  | .failed after less => .failed after (Nat.le_trans less le)
  | .misused e => .misused e
  | .wrongSort n => .wrongSort n

theorem within_within {u : Walker} (le : v.bound ≤ w.bound) (le' : w.bound ≤ u.bound)
    (x : Outcome α v) : (x.within le).within le' = x.within (Nat.le_trans le le') := by
  cases x <;> rfl

/-- Goes on with what has been read; nothing more is done after a failure. -/
def andThen (x : Outcome α w)
    (next : α → (after : Walker) → after.bound ≤ w.bound → Outcome β after) : Outcome β w :=
  match x with
  | .read value after le => (next value after le).within le
  | .failed after le => .failed after le
  | .misused e => .misused e
  | .wrongSort n => .wrongSort n

theorem within_andThen (le : v.bound ≤ w.bound) (x : Outcome α v)
    (next : α → (after : Walker) → after.bound ≤ w.bound → Outcome β after) :
    (x.within le).andThen next =
      (x.andThen fun value after less => next value after (Nat.le_trans less le)).within le := by
  cases x with
  | read value after less => exact (within_within less le _).symm
  | failed | misused | wrongSort => rfl

theorem andThen_andThen {γ : Type} (x : Outcome α w)
    (next : α → (after : Walker) → after.bound ≤ w.bound → Outcome β after)
    (last : β → (after : Walker) → after.bound ≤ w.bound → Outcome γ after) :
    (x.andThen next).andThen last =
      x.andThen fun value after le => (next value after le).andThen fun value' after' le' =>
        last value' after' (Nat.le_trans le' le) := by
  cases x with
  | read value after le => exact within_andThen le _ _
  | failed | misused | wrongSort => rfl

end Outcome

/-- Nothing more has to be read. -/
def done {α : Type} (w : Walker) (value : α) : Outcome α w :=
  .read value w (Nat.le_refl _)

theorem done_andThen {α β : Type} (w : Walker) (value : α)
    (next : α → (after : Walker) → after.bound ≤ w.bound → Outcome β after) :
    (w.done value).andThen next = next value w (Nat.le_refl _) := by
  simp only [done, Outcome.andThen]
  cases next value w (Nat.le_refl _) <;> rfl

/-- Records an error and gives up. -/
def fail {α : Type} (w : Walker) (e : ParseError) : Outcome α w :=
  .failed (w.record e) (Nat.le_of_eq (w.bound_record e))

/-- Goes on with a draft to which a child has been attached. -/
def attached {α : Type} (w : Walker) (d : Draft) (slot : Draft.Slot) (e : Expr)
    (next : Draft → Outcome α w) : Outcome α w :=
  match d.attach slot e with
  | .ok d => next d
  | .error e => .misused e

/-- Finishes a draft. -/
def complete (w : Walker) (d : Draft) : Outcome Node w :=
  match d.finish with
  | .ok n => w.done n
  | .error e => w.fail (.incomplete e)

/-- Finishes the draft of an expression. -/
def completeExpr (w : Walker) (d : Draft) : Outcome Expr w :=
  (w.complete d).andThen fun n after _ =>
    match n with
    | .expr e => after.done e
    | n => .wrongSort n

/-- Finishes the draft of a statement. -/
def completeStmt (w : Walker) (d : Draft) : Outcome Stmt w :=
  (w.complete d).andThen fun n after _ =>
    match n with
    | .stmt s => after.done s
    | n => .wrongSort n

/-- Goes on to the next token, which has to be of the given kind. -/
def expectAhead (w : Walker) (kind : Token.Kind) : Outcome Token w :=
  if w.ahead.kind = kind then .read w.ahead w.advance w.bound_advance_le
  else w.fail (.unexpectedToken kind w.ahead.kind w.ahead.span)

/-! ### Expressions -/

theorem kind_ne_eof_of_unary {k : Token.Kind} {op : UnaryOp} (h : UnaryOp.ofKind? k = some op) :
    k ≠ .eof := by
  rintro rfl
  cases h

theorem kind_ne_eof_of_binary {k : Token.Kind} {op : BinaryOp} (h : BinaryOp.ofKind? k = some op) :
    k ≠ .eof := by
  rintro rfl
  cases h

theorem kind_ne_eof_of_lt {k : Token.Kind} {floor : Level} (h : floor < .ofKind k) :
    k ≠ .eof := by
  rintro rfl
  exact Nat.not_lt_zero _ h

mutual

/-- Reads an expression whose outermost operators bind tighter than `floor`. -/
def expression (floor : Level) (w : Walker) : Outcome Expr w :=
  (operand w).andThen fun first after _ => operators floor first after
termination_by (w.bound, 2)
decreasing_by
  · exact .right _ (by decide)
  · simp only [Prod.lex_def]
    omega

/-- Reads what an expression begins with. -/
def operand (w : Walker) : Outcome Expr w :=
  match _sign : UnaryOp.ofKind? w.current.kind with
  | some op =>
    ((expression .unary w.advance).andThen fun right after _ =>
      after.attached (.unary w.current op none) .right right after.completeExpr).within
        w.bound_advance_le
  | none =>
    match _kind : w.current.kind with
    | .ident => w.done (.ident (.ofToken w.current))
    | .int =>
      match Parse.intValue? w.current.literal with
      | some value => w.done (.int w.current value)
      | none => w.fail (.integerTooLarge w.current.literal w.current.span)
    | .lparen =>
      ((expression .lowest w.advance).andThen fun inner after _ =>
        (after.expectAhead .rparen).andThen fun _ after _ => after.done inner).within
          w.bound_advance_le
    | found => w.fail (.noOperand found w.current.span)
termination_by (w.bound, 0)
decreasing_by
  · exact .left _ _ (bound_advance_lt (.inl (kind_ne_eof_of_unary _sign)))
  · exact .left _ _ (bound_advance_lt (.inl (by simp [_kind])))

/-- Goes on behind an operand while operators follow that bind tighter than `floor`. -/
def operators (floor : Level) (left : Expr) (w : Walker) : Outcome Expr w :=
  if _tighter : w.ahead.kind ≠ .semicolon ∧ floor < .ofKind w.ahead.kind then
    ((joined left w.advance).andThen fun whole after _ => operators floor whole after).within
      w.bound_advance_le
  else w.done left
termination_by (w.bound, 1)
decreasing_by
  all_goals
    have less := bound_advance_lt (w := w) (.inr (kind_ne_eof_of_lt _tighter.2))
    simp only [Prod.lex_def]
    omega

/-- Reads the right operand of an operator, which is the current token. -/
def joined (left : Expr) (w : Walker) : Outcome Expr w :=
  match _sign : BinaryOp.ofKind? w.current.kind with
  | none => w.done left
  | some op =>
    w.attached (.binary w.current op none none) .left left fun draft =>
      ((expression (.ofKind w.current.kind) w.advance).andThen fun right after _ =>
        after.attached draft .right right after.completeExpr).within w.bound_advance_le
termination_by (w.bound, 0)
decreasing_by exact .left _ _ (bound_advance_lt (.inl (kind_ne_eof_of_binary _sign)))

end

/-! ### Statements -/

/-- Takes a semicolon that follows. -/
def takeSemicolon (w : Walker) : Walker :=
  if w.ahead.kind = .semicolon then w.advance else w

theorem bound_takeSemicolon_le (w : Walker) : w.takeSemicolon.bound ≤ w.bound := by
  unfold takeSemicolon
  split
  · exact w.bound_advance_le
  · exact Nat.le_refl _

/-- Reads the expression of a statement, and finishes the statement. -/
def body (draft : Draft) (slot : Draft.Slot) (w : Walker) : Outcome Stmt w :=
  (expression .lowest w).andThen fun e after _ =>
    (after.takeSemicolon.attached draft slot e after.takeSemicolon.completeStmt).within
      after.bound_takeSemicolon_le

/-- Reads a statement. -/
def statement (w : Walker) : Outcome Stmt w :=
  match w.current.kind with
  | .kwLet =>
    (w.expectAhead .ident).andThen fun name after _ =>
      (after.expectAhead .assign).andThen fun _ after _ =>
        (body (.letStmt w.current (.ofToken name) none) .value after.advance).within
          after.bound_advance_le
  | .kwReturn => (body (.returnStmt w.current none) .value w.advance).within w.bound_advance_le
  | _ => body (.exprStmt w.current none) .expression w

/-- Skips what is left of a statement. -/
def synchronize (w : Walker) : Walker :=
  if _inside : w.current.kind ≠ .semicolon ∧ w.current.kind ≠ .eof then w.advance.synchronize
  else w
termination_by w.bound
decreasing_by exact bound_advance_lt (.inl _inside.2)

theorem bound_synchronize_le (w : Walker) : w.synchronize.bound ≤ w.bound := by
  fun_induction synchronize w with
  | case1 w inside ih => exact Nat.le_trans ih w.bound_advance_le
  | case2 w => exact Nat.le_refl _

/-! ### Programs -/

/-- Going on from a place that was reached from a token of the text brings the end nearer. -/
theorem progress {w after : Walker} (inside : w.current.kind ≠ .eof)
    (le : after.bound ≤ w.bound) :
    Prod.Lex (· < ·) (· < ·) (after.advance.bound, after.advance.current.count)
      (w.bound, w.current.count) := by
  have less := after.bound_advance_add_le
  have here := Token.count_eq_one inside
  have next : after.advance.current = after.ahead := rfl
  rw [Prod.lex_def, next, here]
  simp only
  omega

/-- Reads statements to the end of the text. One that fails is given up. -/
def statements (w : Walker) : Outcome (List Stmt) w :=
  if _ended : w.current.kind = .eof then w.done []
  else
    match w.statement with
    | .read s after le =>
      (after.advance.statements.andThen fun ss last _ => last.done (s :: ss)).within
        (Nat.le_trans after.bound_advance_le le)
    | .failed after le =>
      after.synchronize.advance.statements.within
        (Nat.le_trans after.synchronize.bound_advance_le
          (Nat.le_trans after.bound_synchronize_le le))
    | .misused e => .misused e
    | .wrongSort n => .wrongSort n
termination_by (w.bound, w.current.count)
decreasing_by
  · exact progress _ended le
  · exact progress _ended (Nat.le_trans after.bound_synchronize_le le)

end Walker

end MonkeyFrontEnd
