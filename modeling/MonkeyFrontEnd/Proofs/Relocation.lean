import MonkeyFrontEnd.Parse
import MonkeyFrontEnd.Proofs.Erasure

/-!
# Reading takes no notice of places

`moved g` puts every token of a tree, of the state of a reading or of an event to the place that
`g` makes of its old one. Shifting a text and forgetting all places are two cases of it. No step
of the machine looks at a place, so moving the tokens before they are read comes to the same as
moving what is read from them (`State.run_moved`).
-/

set_option autoImplicit false

namespace MonkeyFrontEnd

variable {g h : Span → Span}

/-- The token at the place that `g` makes of its own. -/
def Token.moved (g : Span → Span) (t : Token) : Token :=
  { t with span := g t.span }

/-- The name, its token moved. -/
def Identifier.moved (g : Span → Span) (i : Identifier) : Identifier :=
  { i with token := i.token.moved g }

/-- The expression, its tokens moved. -/
def Expr.moved (g : Span → Span) : Expr → Expr
  | .ident i => .ident (i.moved g)
  | .int t v => .int (t.moved g) v
  | .unary t op e => .unary (t.moved g) op (e.moved g)
  | .binary t l op r => .binary (t.moved g) (l.moved g) op (r.moved g)

/-- The statement, its tokens moved. -/
def Stmt.moved (g : Span → Span) : Stmt → Stmt
  | .letStmt t name e => .letStmt (t.moved g) (name.moved g) (e.moved g)
  | .returnStmt t e => .returnStmt (t.moved g) (e.moved g)
  | .exprStmt t e => .exprStmt (t.moved g) (e.moved g)

/-- The illegal character, moved. -/
def IllegalChar.moved (g : Span → Span) (e : IllegalChar) : IllegalChar :=
  { e with span := g e.span }

/-- The error about the same things in another place. -/
def ParseError.moved (g : Span → Span) : ParseError → ParseError
  | .unexpectedToken expected found span => .unexpectedToken expected found (g span)
  | .noOperand found span => .noOperand found (g span)
  | .integerTooLarge literal span => .integerTooLarge literal (g span)
  | .illegalChar e => .illegalChar (e.moved g)
  | .incomplete e => .incomplete { e with span := g e.span }

@[simp] theorem Token.kind_moved (t : Token) : (t.moved g).kind = t.kind := rfl

@[simp] theorem Token.literal_moved (t : Token) : (t.moved g).literal = t.literal := rfl

@[simp] theorem Token.span_moved (t : Token) : (t.moved g).span = g t.span := rfl

@[simp] theorem Token.erase_moved (t : Token) : (t.moved g).erase = t.erase := rfl

@[simp] theorem Expr.erase_moved (e : Expr) : (e.moved g).erase = e.erase := by
  induction e with
  | ident i => rfl
  | int t v => rfl
  | unary t op e ih => rw [moved, erase, ih, erase, Token.erase_moved]
  | binary t l op r ihl ihr => rw [moved, erase, ihl, ihr, erase, Token.erase_moved]

@[simp] theorem Stmt.erase_moved (s : Stmt) : (s.moved g).erase = s.erase := by
  cases s with
  | letStmt t name e => rw [moved, erase, Expr.erase_moved]; rfl
  | returnStmt t e => rw [moved, erase, Expr.erase_moved]; rfl
  | exprStmt t e => rw [moved, erase, Expr.erase_moved]; rfl

@[simp] theorem ParseError.span_moved (e : ParseError) : (e.moved g).span = g e.span := by
  cases e <;> rfl

theorem ParseError.moved_moved (e : ParseError) : (e.moved g).moved h = e.moved (h ∘ g) := by
  cases e <;> rfl

namespace Parse

/-- The frame, its tokens moved. -/
def Frame.moved (g : Span → Span) : Frame → Frame
  | .unary t op => .unary (t.moved g) op
  | .binary l t op => .binary (l.moved g) (t.moved g) op
  | .paren => .paren

/-- The reading of an expression, its tokens moved. -/
def Reading.moved (g : Span → Span) : Reading → Reading
  | .operandDue outer => .operandDue (outer.map (Frame.moved g))
  | .operandRead e outer => .operandRead (e.moved g) (outer.map (Frame.moved g))

/-- What a token does, with the tokens moved. -/
def Step.moved (g : Span → Span) : Step → Step
  | .more r => .more (r.moved g)
  | .complete e => .complete (e.moved g)
  | .fault f => .fault f

/-- The beginning of a statement, its tokens moved. -/
def Goal.moved (g : Span → Span) : Goal → Goal
  | .letStmt t name => .letStmt (t.moved g) (name.moved g)
  | .returnStmt t => .returnStmt (t.moved g)
  | .exprStmt t => .exprStmt (t.moved g)

/-- The state, its tokens moved. -/
def State.moved (g : Span → Span) : State → State
  | .start => .start
  | .nameDue t => .nameDue (t.moved g)
  | .assignDue t name => .assignDue (t.moved g) (name.moved g)
  | .value goal r => .value (goal.moved g) (r.moved g)
  | .skipping => .skipping

/-- The event, its tokens moved. -/
def Event.moved (g : Span → Span) : Event → Event
  | .stmt s => .stmt (s.moved g)
  | .fault f found next => .fault f (found.moved g) (next.moved g)

theorem Event.stmt?_moved (e : Event) : (e.moved g).stmt? = e.stmt?.map (Stmt.moved g) := by
  cases e <;> rfl

theorem Fault.error_moved (f : Fault) (t : Token) : f.error (t.moved g) = (f.error t).moved g := by
  cases f <;> rfl

theorem Event.error?_moved (e : Event) :
    (e.moved g).error? = e.error?.map (ParseError.moved g) := by
  cases e with
  | stmt s => rfl
  | fault f found next => simp only [moved, error?, f.error_moved, Option.map_some]

theorem filterMap_stmt?_map_moved (evs : List Event) :
    (evs.map (Event.moved g)).filterMap Event.stmt? =
      (evs.filterMap Event.stmt?).map (Stmt.moved g) := by
  simp only [List.filterMap_map, Function.comp_def, Event.stmt?_moved, List.map_filterMap]

theorem filterMap_error?_map_moved (evs : List Event) :
    (evs.map (Event.moved g)).filterMap Event.error? =
      (evs.filterMap Event.error?).map (ParseError.moved g) := by
  simp only [List.filterMap_map, Function.comp_def, Event.error?_moved, List.map_filterMap]

theorem Goal.complete_moved (goal : Goal) (e : Expr) :
    (goal.moved g).complete (e.moved g) = (goal.complete e).moved g := by
  cases goal <;> rfl

/-! ### Expressions -/

theorem close_moved (least : Level) (e : Expr) (outer : List Frame) :
    close least (e.moved g) (outer.map (Frame.moved g)) =
      ((close least e outer).1.moved g, (close least e outer).2.map (Frame.moved g)) := by
  induction outer generalizing e with
  | nil => rfl
  | cons f outer ih =>
    cases f with
    | unary t op => exact ih (.unary t op e)
    | binary l t op =>
      by_cases joins : least ≤ op.level
      · simp only [List.map_cons, Frame.moved, close, joins, if_true]
        exact ih (.binary t l op e)
      · simp only [List.map_cons, Frame.moved, close, joins, if_false]
    | paren => rfl

theorem operandStep_moved (outer : List Frame) (t : Token) :
    operandStep (outer.map (Frame.moved g)) (t.moved g) =
      (operandStep outer t).map (Reading.moved g) := by
  simp only [operandStep, Token.kind_moved, Token.literal_moved]
  split
  · rfl
  · cases intValue? t.literal <;> rfl
  · rfl
  · cases UnaryOp.ofKind? t.kind <;> simp only <;> rfl

theorem operatorStep_moved (floor : Level) (e : Expr) (outer : List Frame) (t : Token) :
    operatorStep floor (e.moved g) (outer.map (Frame.moved g)) (t.moved g) =
      (operatorStep floor e outer t).moved g := by
  simp only [operatorStep, Token.kind_moved, close_moved]
  cases BinaryOp.ofKind? t.kind with
  | some op =>
    dsimp only
    generalize close op.level e outer = closed
    obtain ⟨e', _ | ⟨f, outer'⟩⟩ := closed
    · by_cases tighter : floor < op.level <;>
        simp [tighter, Step.moved, Reading.moved, Frame.moved]
    · rfl
  | none =>
    dsimp only
    generalize close .lowest e outer = closed
    obtain ⟨e', _ | ⟨f, outer'⟩⟩ := closed
    · rfl
    · by_cases closes : t.kind = .rparen <;> simp [closes, Step.moved, Reading.moved]

theorem Reading.finish_moved (r : Reading) :
    (r.moved g).finish = r.finish.map (Expr.moved g) := by
  cases r with
  | operandDue outer => rfl
  | operandRead e outer =>
    simp only [moved, finish, close_moved]
    generalize close .lowest e outer = closed
    obtain ⟨e', _ | ⟨f, outer'⟩⟩ := closed <;> rfl

/-! ### Statements -/

namespace State

/-- The outcome of a step, its tokens moved. -/
def resultMoved (g : Span → Span) (result : State × List Event) : State × List Event :=
  (result.1.moved g, result.2.map (Event.moved g))

theorem giveUp_moved (f : Fault) (t next : Token) :
    giveUp f (t.moved g) (next.moved g) = resultMoved g (giveUp f t next) := by
  by_cases semicolon : t.kind = .semicolon <;>
    simp [giveUp, semicolon, resultMoved, moved, Event.moved]

theorem enter_moved (t next : Token) :
    enter (t.moved g) (next.moved g) = resultMoved g (enter t next) := by
  simp only [enter, Token.kind_moved]
  split
  · rfl
  · rfl
  · have first := operandStep_moved (g := g) [] t
    rw [List.map_nil] at first
    rw [first]
    cases operandStep [] t with
    | ok r => rfl
    | error f => exact giveUp_moved f t next

theorem step_moved (s : State) (t next : Token) :
    (s.moved g).step (t.moved g) (next.moved g) = resultMoved g (s.step t next) := by
  cases s with
  | start => exact enter_moved t next
  | nameDue letToken =>
    by_cases named : t.kind = .ident
    · simp only [moved, step, Token.kind_moved, named, if_true]
      rfl
    · simp only [moved, step, Token.kind_moved, named, if_false]
      exact giveUp_moved _ t next
  | assignDue letToken name =>
    by_cases assigned : t.kind = .assign
    · simp only [moved, step, Token.kind_moved, assigned, if_true]
      rfl
    · simp only [moved, step, Token.kind_moved, assigned, if_false]
      exact giveUp_moved _ t next
  | skipping =>
    by_cases semicolon : t.kind = .semicolon <;> simp [step, semicolon, resultMoved, moved]
  | value goal r =>
    cases r with
    | operandDue outer =>
      simp only [moved, Reading.moved, step, operandStep_moved]
      cases operandStep outer t with
      | ok r => rfl
      | error f => exact giveUp_moved f t next
    | operandRead e outer =>
      simp only [moved, Reading.moved, step, operatorStep_moved]
      cases operatorStep .lowest e outer t with
      | more r => rfl
      | fault f => exact giveUp_moved f t next
      | complete e =>
        by_cases semicolon : t.kind = .semicolon
        · simp [Step.moved, semicolon, goal.complete_moved, resultMoved, moved, Event.moved]
        · simp [Step.moved, semicolon, goal.complete_moved, enter_moved, resultMoved, Event.moved]

theorem finish_moved (s : State) (last : Token) :
    (s.moved g).finish (last.moved g) = (s.finish last).map (Event.moved g) := by
  cases s with
  | value goal r =>
    simp only [moved, finish, r.finish_moved]
    cases r.finish with
    | ok e => simp only [Except.map, goal.complete_moved]; rfl
    | error f => rfl
  | _ => rfl

/-- Moved tokens bring about the moved events. -/
theorem run_moved (last : Token) (s : State) (ts : List Token) :
    run (last.moved g) (s.moved g) (ts.map (Token.moved g)) =
      (run last s ts).map (Event.moved g) := by
  induction ts generalizing s with
  | nil => exact s.finish_moved last
  | cons t ts ih =>
    have next : (ts.map (Token.moved g)).headD (last.moved g) = (ts.headD last).moved g := by
      cases ts <;> rfl
    rw [List.map_cons, run_cons, run_cons, next, step_moved, List.map_append]
    exact congrArg _ (ih _)

end State

end Parse

end MonkeyFrontEnd
