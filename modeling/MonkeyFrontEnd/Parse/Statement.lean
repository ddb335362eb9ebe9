import MonkeyFrontEnd.Parse.Expression
import MonkeyFrontEnd.ParseError

/-!
# Reading statements

The tokens of a program are read once, from left to right, by a machine whose `State` says which
part of a statement is due. A token can complete a statement, begin the next one, or be at fault;
these are its `Event`s. After a fault everything up to and including the next semicolon is
skipped, so that in every state a semicolon leads back to `State.start` (`State.step_semicolon`).
Inside a statement the machine does what `Reading.run` does (`State.run_value`).

Each step also sees the token that follows, because a fault is noticed only once that token has
been read; see `Event.notice?`.
-/

set_option autoImplicit false

namespace MonkeyFrontEnd.Parse

/-- The statement whose expression is being read. -/
inductive Goal
  | letStmt (token : Token) (name : Identifier)
  | returnStmt (token : Token)
  | exprStmt (token : Token)
  deriving DecidableEq

/-- The statement, with its expression. -/
def Goal.complete : Goal → Expr → Stmt
  | .letStmt t name, e => .letStmt t name e
  | .returnStmt t, e => .returnStmt t e
  | .exprStmt t, e => .exprStmt t e

/-- Where the reading of a program stands. -/
inductive State
  | start
  | nameDue (letToken : Token)
  | assignDue (letToken : Token) (name : Identifier)
  | value (goal : Goal) (r : Reading)
  | skipping
  deriving DecidableEq

/-- What reading a token brings about: a statement, or a fault at a token. -/
inductive Event
  | stmt (s : Stmt)
  | fault (f : Fault) (found next : Token)
  deriving DecidableEq

/-- The fault as an error at the token `found`. -/
def Fault.error (found : Token) : Fault → ParseError
  | .unexpected expected => .unexpectedToken expected found.kind found.span
  | .noOperand => .noOperand found.kind found.span
  | .integerTooLarge => .integerTooLarge found.literal found.span

namespace Event

/-- The statement that was read, if one was. -/
def stmt? : Event → Option Stmt
  | .stmt s => some s
  | .fault .. => none

/-- The error that was met, if one was. -/
def error? : Event → Option ParseError
  | .stmt _ => none
  | .fault f found _ => some (f.error found)

end Event

namespace State

/-- Gives up the statement at the token `t`. -/
def giveUp (f : Fault) (t next : Token) : State × List Event :=
  (if t.kind = .semicolon then .start else .skipping, [.fault f t next])

/-- Begins a statement with the token `t`. -/
def enter (t next : Token) : State × List Event :=
  match t.kind with
  | .kwLet => (.nameDue t, [])
  | .kwReturn => (.value (.returnStmt t) (.operandDue []), [])
  | _ =>
    match operandStep [] t with
    | .ok r => (.value (.exprStmt t) r, [])
    | .error f => giveUp f t next

/-- Reads the token `t`, which `next` follows. -/
def step (s : State) (t next : Token) : State × List Event :=
  match s with
  | .start => enter t next
  | .nameDue letToken =>
    if t.kind = .ident then (.assignDue letToken (.ofToken t), [])
    else giveUp (.unexpected .ident) t next
  | .assignDue letToken name =>
    if t.kind = .assign then (.value (.letStmt letToken name) (.operandDue []), [])
    else giveUp (.unexpected .assign) t next
  | .value goal (.operandDue outer) =>
    match operandStep outer t with
    | .ok r => (.value goal r, [])
    | .error f => giveUp f t next
  | .value goal (.operandRead e outer) =>
    match operatorStep .lowest e outer t with
    | .more r => (.value goal r, [])
    | .fault f => giveUp f t next
    | .complete e =>
      if t.kind = .semicolon then (.start, [.stmt (goal.complete e)])
      else
        let (s, events) := enter t next
        (s, .stmt (goal.complete e) :: events)
  | .skipping => (if t.kind = .semicolon then .start else .skipping, [])

/-- What the end of the input, marked by the token `last`, brings about. -/
def finish (last : Token) : State → List Event
  | .start | .skipping => []
  | .nameDue _ => [.fault (.unexpected .ident) last last]
  | .assignDue _ _ => [.fault (.unexpected .assign) last last]
  | .value goal r =>
    match r.finish with
    | .ok e => [.stmt (goal.complete e)]
    | .error f => [.fault f last last]

/-- Reads the tokens up to the end of the input, which `last` marks. -/
def run (last : Token) : State → List Token → List Event
  | s, [] => s.finish last
  | s, t :: ts =>
    let (s, events) := s.step t (ts.headD last)
    events ++ run last s ts

theorem run_nil (last : Token) (s : State) : run last s [] = s.finish last := rfl

theorem run_cons (last : Token) (s : State) (t : Token) (ts : List Token) :
    run last s (t :: ts) =
      (s.step t (ts.headD last)).2 ++ run last (s.step t (ts.headD last)).1 ts := rfl

theorem giveUp_semicolon {f : Fault} {t next : Token} (h : t.kind = .semicolon) :
    (giveUp f t next).1 = .start := by
  simp [giveUp, h]

/-- A semicolon ends the statement under way, whatever its state. -/
theorem step_semicolon (s : State) {t next : Token} (h : t.kind = .semicolon) :
    (s.step t next).1 = .start := by
  cases s with
  | start => simp [step, enter, h, operandStep_semicolon h, giveUp]
  | nameDue letToken => simp [step, h, giveUp]
  | assignDue letToken name => simp [step, h, giveUp]
  | skipping => simp [step, h]
  | value goal r =>
    cases r with
    | operandDue outer => simp [step, operandStep_semicolon h, giveUp, h]
    | operandRead e outer =>
      simp only [step]
      split
      · next r hr => exact absurd hr (operatorStep_semicolon h r)
      · exact giveUp_semicolon h
      · simp [h]

theorem run_giveUp (last : Token) (f : Fault) (t : Token) (ts : List Token) :
    (giveUp f t (ts.headD last)).2 ++ run last (giveUp f t (ts.headD last)).1 ts =
      .fault f t (ts.headD last) :: run last .skipping (t :: ts) := by
  simp [giveUp, run_cons, step]

/-- The tokens behind a statement whose expression has been read: a semicolon belongs to it. -/
def afterStatement : List Token → List Token
  | [] => []
  | t :: ts => if t.kind = .semicolon then ts else t :: ts

/-- Inside a statement the machine reads one expression, and then either completes the statement
or gives it up at the token at fault. -/
theorem run_value (last : Token) (goal : Goal) (r : Reading) (ts : List Token) :
    run last (.value goal r) ts =
      match r.run .lowest ts with
      | .ok (e, rest) => .stmt (goal.complete e) :: run last .start (afterStatement rest)
      | .error (f, []) => [.fault f last last]
      | .error (f, t :: rest) =>
        .fault f t (rest.headD last) :: run last .skipping (t :: rest) := by
  induction ts generalizing r with
  | nil =>
    cases h : r.finish <;> cases r <;>
      simp_all [run_nil, finish, Reading.run, afterStatement]
  | cons t ts ih =>
    cases r with
    | operandDue outer =>
      cases h : operandStep outer t with
      | ok r => rw [run_cons]; simpa only [step, Reading.run, h, List.nil_append] using ih r
      | error f => rw [run_cons]; simp only [step, Reading.run, h, run_giveUp]
    | operandRead e outer =>
      cases h : operatorStep .lowest e outer t with
      | more r => rw [run_cons]; simpa only [step, Reading.run, h, List.nil_append] using ih r
      | fault f => rw [run_cons]; simp only [step, Reading.run, h, run_giveUp]
      | complete e =>
        by_cases hs : t.kind = .semicolon <;>
          simp [run_cons, step, Reading.run, h, hs, afterStatement]

end State

end MonkeyFrontEnd.Parse
