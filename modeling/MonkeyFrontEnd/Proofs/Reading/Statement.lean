import MonkeyFrontEnd.Parse.Statement
import MonkeyFrontEnd.Proofs.Reading.Completeness

/-!
# Reading one statement

`statement` reads a head and then an expression, and takes the semicolon behind it. It returns a
statement exactly where the grammar derives one that ends there: `statement_ok` and
`statement_of_derives` are the two directions. Where it fails, no semicolon has been read yet.
-/

set_option autoImplicit false

namespace MonkeyFrontEnd.Parse

open Grammar

/-- The token at the head of `ts` if it is of the kind `kind`, and the tokens behind it. -/
def demand (kind : Token.Kind) : List Token → Except (Fault × List Token) (Token × List Token)
  | [] => .error (.unexpected kind, [])
  | t :: ts => if t.kind = kind then .ok (t, ts) else .error (.unexpected kind, t :: ts)

/-- Reads what stands before the expression of a statement that begins with `t`. -/
def heading (t : Token) (ts : List Token) : Except (Fault × List Token) (Goal × List Token) :=
  match t.kind with
  | .kwLet =>
    match demand .ident ts with
    | .error fault => .error fault
    | .ok (name, ts) =>
      match demand .assign ts with
      | .error fault => .error fault
      | .ok (_, ts) => .ok (.letStmt t (.ofToken name), ts)
  | .kwReturn => .ok (.returnStmt t, ts)
  | _ => .ok (.exprStmt t, t :: ts)

/-- Reads a statement that begins with `t`, and returns it with the tokens behind it; if that fails,
the fault with the tokens from the offending one on. -/
def statement (t : Token) (ts : List Token) : Except (Fault × List Token) (Stmt × List Token) :=
  match heading t ts with
  | .error fault => .error fault
  | .ok (goal, ts) =>
    match expression .lowest ts with
    | .error fault => .error fault
    | .ok (e, rest) => .ok (goal.complete e, State.afterStatement rest)

variable {last t u : Token} {ts us rest : List Token} {f : Fault} {s : Stmt}

theorem stops_lowest : Stops .lowest rest ↔ ∀ t ∈ rest.head?, BinaryOp.ofKind? t.kind = none := by
  constructor
  · intro stops t ht
    cases sign : BinaryOp.ofKind? t.kind with
    | none => rfl
    | some op => exact absurd op.lowest_lt_level (stops t ht op sign)
  · intro none t ht op sign
    rw [none t ht] at sign
    cases sign

theorem demand_ok {kind : Token.Kind} (h : demand kind ts = .ok (u, rest)) :
    ts = u :: rest ∧ u.kind = kind := by
  cases ts with
  | nil => cases h
  | cons t ts =>
    simp only [demand] at h
    split at h
    · cases h
      exact ⟨rfl, ‹_›⟩
    · cases h

theorem demand_error {kind : Token.Kind} (h : demand kind ts = .error (f, rest)) : ts = rest := by
  cases ts with
  | nil => cases h; rfl
  | cons t ts =>
    simp only [demand] at h
    split at h
    · cases h
    · cases h; rfl

theorem heading_expr (hl : t.kind ≠ .kwLet) (hr : t.kind ≠ .kwReturn)
    (ts : List Token) : heading t ts = .ok (.exprStmt t, t :: ts) := by
  rw [heading]
  split
  · exact absurd ‹_› hl
  · exact absurd ‹_› hr
  · rfl

/-- What a head is: tokens before an expression that make a statement together with it. -/
theorem heading_ok {goal : Goal} (h : heading t ts = .ok (goal, us)) :
    ∃ head, t :: ts = head ++ us ∧ Clean head ∧
      ∀ run rest e ending, us = run ++ rest → Derives .equality run e → Terminator ending →
        DerivesStmt (head ++ run ++ ending) (goal.complete e) := by
  by_cases hl : t.kind = .kwLet
  · simp only [heading, hl] at h
    split at h
    · cases h
    · rename_i name ts' hname
      obtain ⟨rfl, named⟩ := demand_ok hname
      split at h
      · cases h
      · rename_i assign ts'' hassign
        obtain ⟨rfl, assigned⟩ := demand_ok hassign
        cases h
        refine ⟨[t, name, assign], rfl, by simp [Clean, hl, named, assigned], ?_⟩
        intro run rest e ending _ value ended
        exact .letStmt hl named assigned value ended
  · by_cases hr : t.kind = .kwReturn
    · simp only [heading, hr] at h
      cases h
      refine ⟨[t], rfl, by simp [Clean, hr], ?_⟩
      intro run rest e ending _ value ended
      exact .returnStmt hr value ended
    · rw [heading_expr hl hr] at h
      cases h
      refine ⟨[], rfl, by simp [Clean], ?_⟩
      intro run rest e ending split value ended
      cases run with
      | nil => exact absurd rfl value.ne_nil
      | cons t' run =>
        cases split
        exact .exprStmt value ended

theorem heading_error (h : heading t ts = .error (f, rest)) :
    ∃ read, t :: ts = read ++ rest ∧ Clean read := by
  by_cases hl : t.kind = .kwLet
  · simp only [heading, hl] at h
    split at h
    · rename_i hname
      cases h
      obtain rfl := demand_error hname
      exact ⟨[t], rfl, by simp [Clean, hl]⟩
    · rename_i name ts' hname
      obtain ⟨rfl, named⟩ := demand_ok hname
      split at h
      · rename_i hassign
        cases h
        obtain rfl := demand_error hassign
        exact ⟨[t, name], rfl, by simp [Clean, hl, named]⟩
      · cases h
  · by_cases hr : t.kind = .kwReturn
    · simp only [heading, hr] at h
      cases h
    · rw [heading_expr hl hr] at h
      cases h

/-- The semicolon behind a statement goes to it, and then the statement is apart from the rest. -/
theorem afterStatement_spec (run : List Token) (stops : Stops .lowest rest) :
    ∃ ending, rest = ending ++ State.afterStatement rest ∧ Terminator ending ∧
      Apart (run ++ ending) (State.afterStatement rest) := by
  cases rest with
  | nil => exact ⟨[], rfl, .inl rfl, .inr (by simp [State.afterStatement])⟩
  | cons t rest =>
    by_cases h : t.kind = .semicolon
    · refine ⟨[t], by simp [State.afterStatement, h], .inr ⟨t, h, rfl⟩, .inl ?_⟩
      simp [h]
    · refine ⟨[], by simp [State.afterStatement, h], .inl rfl, .inr ?_⟩
      simpa [State.afterStatement, h] using stops_lowest.1 stops

theorem statement_ok (h : statement t ts = .ok (s, rest)) :
    ∃ run, t :: ts = run ++ rest ∧ DerivesStmt run s ∧ Apart run rest := by
  rw [statement] at h
  split at h
  · cases h
  · rename_i goal us hgoal
    obtain ⟨head, split, -, make⟩ := heading_ok hgoal
    have outcome := expression_outcome .lowest us
    split at h
    · cases h
    · rename_i e rest' he
      cases h
      rw [he] at outcome
      obtain ⟨run, split', derived, stops⟩ := outcome
      obtain ⟨ending, split'', ended, apart⟩ := afterStatement_spec (head ++ run) stops
      refine ⟨head ++ run ++ ending, ?_, make run rest' e ending split' derived ended, apart⟩
      rw [List.append_assoc, ← split'', List.append_assoc, ← split', split]

theorem statement_error (h : statement t ts = .error (f, rest)) :
    ∃ read, t :: ts = read ++ rest ∧ Clean read := by
  rw [statement] at h
  split at h
  · rename_i hgoal
    cases h
    exact heading_error hgoal
  · rename_i goal us hgoal
    obtain ⟨head, split, clean, -⟩ := heading_ok hgoal
    have outcome := expression_outcome .lowest us
    split at h
    · rename_i he
      cases h
      rw [he] at outcome
      obtain ⟨read, split', clean'⟩ := outcome
      exact ⟨head ++ read, by rw [split, split', List.append_assoc], clean.append clean'⟩
    · cases h

theorem demand_of_kind {kind : Token.Kind} (h : t.kind = kind) :
    demand kind (t :: ts) = .ok (t, ts) := by
  simp [demand, h]

theorem afterStatement_append {ending : List Token} (ended : Terminator ending)
    (ahead : ∀ t ∈ rest.head?, t.kind ≠ .semicolon) :
    State.afterStatement (ending ++ rest) = rest := by
  rcases ended with rfl | ⟨t, ht, rfl⟩
  · cases rest with
    | nil => rfl
    | cons u rest => simp [State.afterStatement, ahead u rfl]
  · simp [State.afterStatement, ht]

/-- An expression stops before the end of its statement. -/
theorem stops_of_apart {ending : List Token} (clean : Clean ts) (ended : Terminator ending)
    (apart : Apart (ts ++ ending) rest) : Stops .lowest (ending ++ rest) := by
  rw [stops_lowest]
  rcases ended with rfl | ⟨t, ht, rfl⟩
  · rcases apart with ⟨u, hu, semicolon⟩ | none
    · rw [List.append_nil] at hu
      exact absurd semicolon (clean u (List.mem_of_mem_getLast? hu))
    · exact none
  · intro u hu
    cases hu
    simp [ht, BinaryOp.ofKind?]

/-- What a statement reads behind its head, if the grammar derives it. -/
theorem statement_of_expression (head : List Token) (goal : Goal) {ending : List Token} {e : Expr}
    (headed : heading t us = .ok (goal, ts ++ (ending ++ rest))) (clean : Clean head)
    (value : Derives .equality ts e) (ended : Terminator ending)
    (apart : Apart (head ++ ts ++ ending) rest) (ahead : ∀ t ∈ rest.head?, t.kind ≠ .semicolon) :
    statement t us = .ok (goal.complete e, rest) := by
  have read : expression .lowest (ts ++ (ending ++ rest)) = .ok (e, ending ++ rest) :=
    expression_of_derives value (stops_of_apart (clean.append value.clean) ended apart)
  simp only [statement, headed, read, afterStatement_append ended ahead]

/-- A statement that the grammar derives is read to its end, if what follows neither continues it
nor is a semicolon. -/
theorem statement_of_derives {run : List Token} (h : DerivesStmt run s) (apart : Apart run rest)
    (ahead : ∀ t ∈ rest.head?, t.kind ≠ .semicolon) :
    ∃ t ts, run ++ rest = t :: ts ∧ statement t ts = .ok (s, rest) := by
  cases h with
  | @letStmt t name assign ts ending e head named assigned value ended =>
    refine ⟨t, name :: assign :: (ts ++ (ending ++ rest)), by simp, ?_⟩
    apply statement_of_expression [t, name, assign] (.letStmt t (.ofToken name)) _ _ value ended
      apart ahead
    · simp only [heading, head, demand_of_kind named, demand_of_kind assigned]
    · simp [Clean, head, named, assigned]
  | @returnStmt t ts ending e head value ended =>
    refine ⟨t, ts ++ (ending ++ rest), by simp, ?_⟩
    apply statement_of_expression [t] (.returnStmt t) _ _ value ended apart ahead
    · simp only [heading, head]
    · simp [Clean, head]
  | @exprStmt t ts ending e expr ended =>
    refine ⟨t, ts ++ (ending ++ rest), by simp, ?_⟩
    apply statement_of_expression [] (.exprStmt t) _ _ expr ended apart ahead
    · exact heading_expr (expr.kind_ne rfl t List.mem_cons_self)
        (expr.kind_ne rfl t List.mem_cons_self) _
    · simp [Clean]

end MonkeyFrontEnd.Parse
