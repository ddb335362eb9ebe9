import MonkeyFrontEnd.Proofs.Notices
import MonkeyFrontEnd.Proofs.Reading.Statement

/-!
# Attempts at statements

The machine of statements goes through a program one token at a time. Here the same program is gone
through one statement at a time: `statement` reads a head and an expression, and an attempt that
fails gives up everything through the next semicolon. `Attempt.ofTokens` lists the attempts with
the tokens that each has taken, and `events_eq_map_event` says that the machine does exactly this.
What an attempt takes, and what it may come to, is said once by `Attempt.Fits`; facts about programs
follow from it by going through the list.
-/

set_option autoImplicit false

namespace MonkeyFrontEnd.Parse

open Grammar

/-- The tokens up to and including the first semicolon. -/
def throughSemicolon (ts : List Token) : List Token :=
  ts.takeWhile (·.kind ≠ .semicolon) ++ (ts.dropWhile (·.kind ≠ .semicolon)).take 1

/-- The tokens behind the first semicolon. -/
def afterSemicolon (ts : List Token) : List Token :=
  (ts.dropWhile (·.kind ≠ .semicolon)).drop 1

@[simp] theorem throughSemicolon_append_afterSemicolon (ts : List Token) :
    throughSemicolon ts ++ afterSemicolon ts = ts := by
  rw [throughSemicolon, afterSemicolon, List.append_assoc, List.take_append_drop,
    List.takeWhile_append_dropWhile]

/-- What is read before the first semicolon belongs to the tokens up to it. -/
theorem throughSemicolon_append {read : List Token} (clean : Clean read) (ts : List Token) :
    throughSemicolon (read ++ ts) = read ++ throughSemicolon ts := by
  have all : ∀ t ∈ read, decide (t.kind ≠ .semicolon) = true := fun t ht => by simp [clean t ht]
  rw [throughSemicolon, List.takeWhile_append_of_pos all, List.dropWhile_append_of_pos all,
    List.append_assoc]
  rfl

theorem afterSemicolon_append {read : List Token} (clean : Clean read) (ts : List Token) :
    afterSemicolon (read ++ ts) = afterSemicolon ts := by
  have all : ∀ t ∈ read, decide (t.kind ≠ .semicolon) = true := fun t ht => by simp [clean t ht]
  rw [afterSemicolon, List.dropWhile_append_of_pos all]
  rfl

theorem throughSemicolon_ne_nil {ts : List Token} (h : ts ≠ []) : throughSemicolon ts ≠ [] := by
  cases ts with
  | nil => exact absurd rfl h
  | cons t ts => by_cases ht : t.kind = .semicolon <;> simp [throughSemicolon, ht]

/-- What an attempt at a statement that begins with `t` comes to, and the tokens behind it. -/
def attempt (last t : Token) (ts : List Token) : Event × List Token :=
  match statement t ts with
  | .ok (s, rest) => (.stmt s, rest)
  | .error (f, rest) => (.fault f (rest.headD last) (rest.tail.headD last), afterSemicolon rest)

/-! ### The machine makes the attempts -/

theorem run_skipping (last : Token) (ts : List Token) :
    State.run last .skipping ts = State.run last .start (afterSemicolon ts) := by
  induction ts with
  | nil => rfl
  | cons t ts ih =>
    by_cases h : t.kind = .semicolon
    · simp [State.run_cons, State.step, h, afterSemicolon]
    · simpa [State.run_cons, State.step, h, afterSemicolon] using ih

/-- The events of a run that meets the fault `f` with the tokens `rest` ahead, the offending one
first. -/
def failing (last : Token) (f : Fault) (rest : List Token) : List Event :=
  .fault f (rest.headD last) (rest.tail.headD last) :: State.run last .start (afterSemicolon rest)

theorem run_giveUp (last : Token) (f : Fault) (t : Token) (ts : List Token) :
    (State.giveUp f t (ts.headD last)).2 ++
      State.run last (State.giveUp f t (ts.headD last)).1 ts = failing last f (t :: ts) := by
  rw [State.run_giveUp, run_skipping]
  rfl

theorem run_nameDue (last t : Token) (ts : List Token) :
    State.run last (.nameDue t) ts =
      match demand .ident ts with
      | .ok (name, ts) => State.run last (.assignDue t (.ofToken name)) ts
      | .error (f, rest) => failing last f rest := by
  cases ts with
  | nil => rfl
  | cons name ts =>
    by_cases h : name.kind = .ident
    · simp [State.run_cons, State.step, demand, h]
    · simp only [State.run_cons, State.step, demand, h, if_false, run_giveUp]

theorem run_assignDue (last t : Token) (name : Identifier) (ts : List Token) :
    State.run last (.assignDue t name) ts =
      match demand .assign ts with
      | .ok (_, ts) => State.run last (.value (.letStmt t name) (.operandDue [])) ts
      | .error (f, rest) => failing last f rest := by
  cases ts with
  | nil => rfl
  | cons assign ts =>
    by_cases h : assign.kind = .assign
    · simp [State.run_cons, State.step, demand, h]
    · simp only [State.run_cons, State.step, demand, h, if_false, run_giveUp]

theorem run_value (last : Token) (goal : Goal) (ts : List Token) :
    State.run last (.value goal (.operandDue [])) ts =
      match expression .lowest ts with
      | .ok (e, rest) =>
        .stmt (goal.complete e) :: State.run last .start (State.afterStatement rest)
      | .error (f, rest) => failing last f rest := by
  rw [State.run_value, expression]
  rcases Reading.run .lowest (.operandDue []) ts with ⟨f, _ | ⟨t, rest⟩⟩ | ⟨e, rest⟩
  · rfl
  · simp only [run_skipping]
    rfl
  · rfl

/-- A token that is no head is read by the step that begins the statement. -/
theorem enter_expr {t : Token} (hl : t.kind ≠ .kwLet) (hr : t.kind ≠ .kwReturn) (next : Token) :
    State.enter t next = State.step (.value (.exprStmt t) (.operandDue [])) t next := by
  rw [State.enter]
  split
  · exact absurd ‹_› hl
  · exact absurd ‹_› hr
  · rfl

theorem run_start (last t : Token) (ts : List Token) :
    State.run last .start (t :: ts) =
      match heading t ts with
      | .ok (goal, ts) => State.run last (.value goal (.operandDue [])) ts
      | .error (f, rest) => failing last f rest := by
  rw [State.run_cons, State.step]
  by_cases hl : t.kind = .kwLet
  · simp only [State.enter, heading, hl, List.nil_append, run_nameDue]
    rcases demand .ident ts with ⟨f, rest⟩ | ⟨name, ts⟩
    · rfl
    · simp only [run_assignDue]
      rcases demand .assign ts with ⟨f, rest⟩ | ⟨_, ts⟩ <;> rfl
  · by_cases hr : t.kind = .kwReturn
    · simp only [State.enter, heading, hr, List.nil_append]
    · rw [heading_expr hl hr, enter_expr hl hr]
      rfl

/-- The machine at the beginning of a statement makes one attempt, and goes on behind it. -/
theorem run_eq_attempt (last t : Token) (ts : List Token) :
    State.run last .start (t :: ts) =
      (attempt last t ts).1 :: State.run last .start (attempt last t ts).2 := by
  rw [run_start, attempt, statement]
  rcases heading t ts with ⟨f, rest⟩ | ⟨goal, ts⟩
  · rfl
  · simp only [run_value]
    rcases expression .lowest ts with ⟨f, rest⟩ | ⟨e, rest⟩ <;> rfl

/-! ### The list of attempts -/

/-- An attempt at a statement: the tokens that it took, and what it came to. -/
structure Attempt where
  taken : List Token
  event : Event

/-- An attempt before the tokens `rest`. One that succeeds has taken what the grammar derives its
statement from. One that fails has found its fault before or at the first semicolon, or at the end
of the input, and has taken everything through that semicolon. -/
inductive Attempt.Fits (last : Token) (rest : List Token) : Attempt → Prop
  | stmt {run : List Token} {s : Stmt} (derived : DerivesStmt run s) (apart : Apart run rest) :
      Fits last rest ⟨run, .stmt s⟩
  | fault {taken read ahead : List Token} {f : Fault} (nonempty : taken ≠ [])
      (split : taken ++ rest = read ++ ahead) (clean : Clean read)
      (through : taken = throughSemicolon (taken ++ rest)) :
      Fits last rest ⟨taken, .fault f (ahead.headD last) (ahead.tail.headD last)⟩

variable {last t : Token} {ts rest : List Token}

theorem Attempt.Fits.taken_ne_nil {a : Attempt} (h : a.Fits last rest) : a.taken ≠ [] := by
  cases h with
  | stmt derived =>
    obtain ⟨t, run, rfl, -⟩ := derived.head_ne
    exact List.cons_ne_nil t run
  | fault nonempty => exact nonempty

theorem attempt_fits (last t : Token) (ts : List Token) :
    ∃ taken, t :: ts = taken ++ (attempt last t ts).2 ∧
      Attempt.Fits last (attempt last t ts).2 ⟨taken, (attempt last t ts).1⟩ := by
  rw [attempt]
  rcases h : statement t ts with ⟨f, ahead⟩ | ⟨s, rest⟩
  · obtain ⟨read, split, clean⟩ := statement_error h
    have behind : afterSemicolon ahead = afterSemicolon (t :: ts) := by
      rw [split, afterSemicolon_append clean]
    have whole : throughSemicolon (t :: ts) ++ afterSemicolon ahead = t :: ts := by
      rw [behind, throughSemicolon_append_afterSemicolon]
    refine ⟨throughSemicolon (t :: ts), whole.symm, .fault ?_ (whole.trans split) clean ?_⟩
    · exact throughSemicolon_ne_nil (List.cons_ne_nil t ts)
    · rw [whole]
  · obtain ⟨run, split, derived, apart⟩ := statement_ok h
    exact ⟨run, split, .stmt derived apart⟩

theorem length_attempt_le (last t : Token) (ts : List Token) :
    (attempt last t ts).2.length ≤ ts.length := by
  obtain ⟨taken, split, fits⟩ := attempt_fits last t ts
  have nonempty := List.length_pos_iff.2 fits.taken_ne_nil
  have total := congrArg List.length split
  simp only [List.length_cons, List.length_append] at nonempty total
  omega

/-- The attempts that reading the tokens makes, where `last` marks the end of the input. -/
def Attempt.ofTokens (last : Token) : List Token → List Attempt
  | [] => []
  | t :: ts =>
    have := length_attempt_le last t ts
    ⟨(t :: ts).take (ts.length + 1 - (attempt last t ts).2.length), (attempt last t ts).1⟩ ::
      ofTokens last (attempt last t ts).2
termination_by ts => ts.length

namespace Attempt

/-- The statements that the attempts have read. -/
def stmts (as : List Attempt) : List Stmt :=
  as.filterMap (·.event.stmt?)

/-- The errors that the attempts have met. -/
def errors (as : List Attempt) : List ParseError :=
  as.filterMap (·.event.error?)

@[simp] theorem stmts_nil : stmts [] = [] := rfl

@[simp] theorem errors_nil : errors [] = [] := rfl

@[simp] theorem stmts_stmt (taken : List Token) (s : Stmt) (as : List Attempt) :
    stmts (⟨taken, .stmt s⟩ :: as) = s :: stmts as := rfl

@[simp] theorem errors_stmt (taken : List Token) (s : Stmt) (as : List Attempt) :
    errors (⟨taken, .stmt s⟩ :: as) = errors as := rfl

@[simp] theorem stmts_fault (taken : List Token) (f : Fault) (found next : Token)
    (as : List Attempt) : stmts (⟨taken, .fault f found next⟩ :: as) = stmts as := rfl

@[simp] theorem errors_fault (taken : List Token) (f : Fault) (found next : Token)
    (as : List Attempt) :
    errors (⟨taken, .fault f found next⟩ :: as) = f.error found :: errors as := rfl

/-- The attempts that reading a source text makes. -/
def ofSource (source : String) : List Attempt :=
  ofTokens (.ofEnd source) (Token.ofSource source)

/-- The attempts `as` take the tokens `ts`, one behind the other. Each of them is all that the
machine does between the beginnings of two statements, and satisfies `P` before the tokens that the
later ones take. -/
inductive Row (last : Token) (P : List Token → Attempt → Prop) :
    List Token → List Attempt → Prop
  | nil : Row last P [] []
  | cons {rest : List Token} {a : Attempt} {as : List Attempt} (fits : P rest a)
      (run : State.run last .start (a.taken ++ rest) = a.event :: State.run last .start rest)
      (others : Row last P rest as) : Row last P (a.taken ++ rest) (a :: as)

variable {P Q : List Token → Attempt → Prop} {as : List Attempt}

theorem Row.imp (h : Row last P ts as) (hPQ : ∀ rest a, P rest a → Q rest a) :
    Row last Q ts as := by
  induction h with
  | nil => exact .nil
  | cons fits run _ ih => exact .cons (hPQ _ _ fits) run ih

theorem Row.flatMap_taken (h : Row last P ts as) : as.flatMap taken = ts := by
  induction h with
  | nil => rfl
  | cons _ _ _ ih => rw [List.flatMap_cons, ih]

/-- What a row of attempts comes to is what the machine brings about. -/
theorem Row.run_eq (h : Row last P ts as) : State.run last .start ts = as.map event := by
  induction h with
  | nil => rfl
  | cons _ run _ ih => rw [run, ih, List.map_cons]

/-- Each statement of the row is derived from some of its tokens. -/
theorem Row.exists_run (h : Row last (Fits last) ts as) :
    ∀ s ∈ stmts as, ∃ run, DerivesStmt run s ∧ run ⊆ ts := by
  induction h with
  | nil => exact fun s hs => absurd hs List.not_mem_nil
  | @cons rest a as fits _ _ ih =>
    have later : ∀ s ∈ stmts as, ∃ run, DerivesStmt run s ∧ run ⊆ a.taken ++ rest := by
      intro s hs
      obtain ⟨run, derived, sub⟩ := ih s hs
      exact ⟨run, derived, fun t ht => List.mem_append_right _ (sub ht)⟩
    cases fits with
    | @stmt run s derived =>
      have first : run ⊆ run ++ rest := List.subset_append_left run rest
      exact List.forall_mem_cons.2 ⟨⟨run, derived, first⟩, later⟩
    | fault => exact later

theorem row_ofTokens (last : Token) (ts : List Token) :
    Row last (Fits last) ts (ofTokens last ts) := by
  induction h : ts.length using Nat.strongRecOn generalizing ts with
  | ind n ih =>
    cases ts with
    | nil =>
      rw [ofTokens]
      exact .nil
    | cons t ts =>
      have shorter := length_attempt_le last t ts
      have others := ih _ (by rw [← h]; exact Nat.lt_succ_of_le shorter) _ rfl
      obtain ⟨taken, split, fits⟩ := attempt_fits last t ts
      have head : (t :: ts).take (ts.length + 1 - (attempt last t ts).2.length) = taken := by
        have total := congrArg List.length split
        simp only [List.length_cons, List.length_append] at total
        rw [split, List.take_append_of_le_length (by omega)]
        exact List.take_of_length_le (by omega)
      have run := run_eq_attempt last t ts
      rw [ofTokens, head]
      rw [split] at run ⊢
      exact .cons fits run others

theorem row_ofSource (source : String) :
    Row (.ofEnd source) (Fits (.ofEnd source)) (Token.ofSource source) (ofSource source) :=
  row_ofTokens _ _

end Attempt

theorem events_eq_map_event (source : String) :
    events source = (Attempt.ofSource source).map Attempt.event :=
  (Attempt.row_ofSource source).run_eq

theorem statements_ofSource (source : String) :
    (Parse.ofSource source).program.statements = Attempt.stmts (Attempt.ofSource source) := by
  rw [ofSource, events_eq_map_event, List.filterMap_map]
  rfl

/-- The errors of the attempts are the faults of the source text. -/
theorem faults_eq_errors (source : String) :
    (Parse.ofSource source).faults = Attempt.errors (Attempt.ofSource source) := by
  rw [faults_ofSource, events_eq_map_event, List.filterMap_map]
  rfl

end MonkeyFrontEnd.Parse
