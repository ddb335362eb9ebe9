import MonkeyFrontEnd.Proofs.Walker.Following

/-!
# What reading an expression leaves a walker with

However a walker came about, and whatever level it is asked to read an expression above, it reads
one or fails (`expression_contract`). It goes on from token to token, never beyond the first
semicolon or the end of the text. Where it stands afterwards, the expression ends, and no operator
is ahead that could go on with it; or the one error that it has recorded is about the token there,
or about the one ahead.
-/

set_option autoImplicit false

namespace MonkeyFrontEnd

open Grammar (Derives)

/-- An expression ends with a name, a number or a closing parenthesis. -/
theorem Grammar.Derives.closes {n : Layer} {ts : List Token} {e : Expr} (h : Derives n ts e) :
    ∃ t ∈ ts.getLast?, t.kind = .ident ∨ t.kind = .int ∨ t.kind = .rparen := by
  induction h with
  | @binary op t ts us l r left sign right _ ihr =>
    rw [List.getLast?_append_of_ne_nil _ (List.cons_ne_nil t us), List.getLast?_cons_of_ne_nil
      right.ne_nil]
    exact ihr
  | next _ ih => exact ih
  | unary sign operand ih =>
    rw [List.getLast?_cons_of_ne_nil operand.ne_nil]
    exact ih
  | @ident t kind => exact ⟨t, rfl, .inl kind⟩
  | @int t value kind => exact ⟨t, rfl, .inr (.inl kind)⟩
  | @group opening closing ts e opens inner closes =>
    exact ⟨closing, List.getLast?_concat, .inr (.inr closes)⟩

namespace Walker

variable {source : String} {w : Walker} {ts : List Token} {n : Nat} {floor : Level}

/-- The tokens that are passed while the walker goes on `n` times. -/
def path (w : Walker) : Nat → List Token
  | 0 => []
  | n + 1 => w.current :: w.advance.path n

theorem Stands.path_eq (stands : Stands source ts w) (short : n ≤ ts.length) :
    w.path n = ts.take n := by
  induction n generalizing ts w with
  | zero => rfl
  | succ n ih =>
    cases ts with
    | nil => cases short
    | cons t ts =>
      have current : w.current = t := stands.current
      rw [path, current, ih stands.advance (Nat.le_of_succ_le_succ short)]
      rfl

/-- Each token that is passed brings the end nearer. -/
theorem bound_iterate_add_le (inside : ∀ t ∈ w.path n, t.kind ≠ .eof) :
    (advance^[n] w).bound + n ≤ w.bound := by
  induction n generalizing w with
  | zero => exact Nat.le_refl _
  | succ n ih =>
    obtain ⟨here, behind⟩ := List.forall_mem_cons.1 inside
    have less := bound_advance_lt (.inl here)
    have rest := ih behind
    rw [Function.iterate_succ_apply]
    omega

/-! ### Errors -/

/-- The errors that are not about illegal characters. -/
def faults (w : Walker) : List ParseError :=
  w.errors.filter (·.illegal?.isNone)

theorem faults_advance (w : Walker) : w.advance.faults = w.faults := by
  have none : (w.reader.takeToken.illegal.map ParseError.illegalChar).filter
      (·.illegal?.isNone) = [] := by
    simp [List.filter_map, Function.comp_def, ParseError.illegal?]
  rw [faults, advance, List.filter_append, none, List.append_nil, faults]

theorem faults_iterate (n : Nat) (w : Walker) : (advance^[n] w).faults = w.faults := by
  induction n generalizing w with
  | zero => rfl
  | succ n ih => rw [Function.iterate_succ_apply, ih, faults_advance]

theorem Located.illegal? {e : ParseError} (h : Located w e) : e.illegal? = none := by
  cases h <;> rfl

theorem Located.faults_record {e : ParseError} (h : Located w e) :
    (w.record e).faults = w.faults ++ [e] := by
  simp [faults, record, h.illegal?]

/-! ### The operators of one call -/

/-- An operator that is put around what stands before it. -/
structure Link where
  token : Token
  op : BinaryOp
  right : Expr

/-- The expression, as the left operand of the operator. -/
def Link.join (left : Expr) (l : Link) : Expr :=
  .binary l.token left l.op l.right

/-- Behind an operand operators are put around it, one after the other, all of which bind tighter
than `floor`. -/
theorem operators_links {e whole : Expr} {after : Walker} {le : after.bound ≤ w.bound}
    (h : w.operators floor e = .read whole after le) :
    ∃ links : List Link, whole = links.foldl Link.join e ∧ ∀ l ∈ links, floor < l.op.level := by
  induction size : w.bound using Nat.strongRecOn generalizing w e whole after with
  | ind n ih =>
    subst size
    by_cases more : ∃ op, BinaryOp.ofKind? w.ahead.kind = some op ∧ floor < op.level
    · obtain ⟨op, sign, tighter⟩ := more
      have less := bound_advance_lt (.inr (kind_ne_eof_of_binary sign))
      have less' := w.advance.bound_advance_le
      rw [operators_more e sign tighter] at h
      generalize w.advance.advance.expression op.level = right at h
      cases right with
      | read r mid le' =>
        cases rest : mid.operators floor (.binary w.ahead e op r) with
        | read whole' after' le'' =>
          simp only [Outcome.andThen, rest, Outcome.within] at h
          cases h
          obtain ⟨links, joined, tight⟩ := ih mid.bound (by omega) rest rfl
          exact ⟨⟨w.ahead, op, r⟩ :: links, joined, List.forall_mem_cons.2 ⟨tighter, tight⟩⟩
        | failed | misused | wrongSort => simp [Outcome.andThen, rest, Outcome.within] at h
      | failed | misused | wrongSort => cases h
    · rw [operators_done e fun op sign tighter => more ⟨op, sign, tighter⟩] at h
      cases h
      exact ⟨[], rfl, by simp⟩

/-! ### The contract -/

/-- The contract of reading an expression above `floor`, for a walker. -/
inductive Contract (floor : Level) (w : Walker) : Outcome Expr w → Prop
  /-- The walker stands at the last token of the expression `e`. -/
  | read (e : Expr) (n : Nat) (le : (advance^[n] w).bound ≤ w.bound)
      (moves : (advance^[n] w).bound + n ≤ w.bound)
      (passes : ∀ t ∈ w.path n, t.kind ≠ .semicolon ∧ t.kind ≠ .eof)
      (derived : Derives floor.above (w.path n ++ [(advance^[n] w).current]) e)
      (closes : (advance^[n] w).current.kind = .ident ∨ (advance^[n] w).current.kind = .int ∨
        (advance^[n] w).current.kind = .rparen)
      (joined : ∃ first mid le, w.operand = .read first mid le ∧ ∃ links : List Link,
        e = links.foldl Link.join first ∧ ∀ l ∈ links, floor < l.op.level)
      (stops : ∀ op, BinaryOp.ofKind? (advance^[n] w).ahead.kind = some op → ¬ floor < op.level)
      (faults : (advance^[n] w).faults = w.faults) :
      Contract floor w (.read e (advance^[n] w) le)
  /-- The walker stands at the token at fault, or before it. -/
  | failed (e : ParseError) (n : Nat) (le : ((advance^[n] w).record e).bound ≤ w.bound)
      (moves : (advance^[n] w).bound + n ≤ w.bound)
      (passes : ∀ t ∈ w.path n, t.kind ≠ .semicolon ∧ t.kind ≠ .eof)
      (located : Located (advance^[n] w) e)
      (faults : ((advance^[n] w).record e).faults = w.faults ++ [e]) :
      Contract floor w (.failed ((advance^[n] w).record e) le)

theorem Passes.path (passes : Passes ts n) (stands : Stands source ts w) :
    ∀ t ∈ w.path n, t.kind ≠ .semicolon ∧ t.kind ≠ .eof := by
  rw [stands.path_eq passes.short]
  exact fun t ht => ⟨passes.clean t ht, stands.genuine t (List.mem_of_mem_take ht)⟩

/-- An expression is what its operand begins, with the operators behind it. -/
theorem expression_links {e : Expr} {after : Walker} {le : after.bound ≤ w.bound}
    (h : w.expression floor = .read e after le) :
    ∃ first mid le, w.operand = .read first mid le ∧ ∃ links : List Link,
      e = links.foldl Link.join first ∧ ∀ l ∈ links, floor < l.op.level := by
  rw [expression] at h
  cases first : w.operand with
  | read f mid le' =>
    rw [first] at h
    cases rest : mid.operators floor f with
    | read whole last le'' =>
      simp only [Outcome.andThen, rest, Outcome.within] at h
      cases h
      exact ⟨f, mid, le', rfl, operators_links rest⟩
    | failed | misused | wrongSort => simp [Outcome.andThen, rest, Outcome.within] at h
  | failed | misused | wrongSort =>
    rw [first] at h
    cases h

/-- **The contract of reading an expression.** -/
theorem expression_contract (reachable : Reachable source w) (floor : Level) :
    Contract floor w (w.expression floor) := by
  obtain ⟨ts, stands⟩ := reachable.exists_stands
  have walks := follows source ts floor w stands
  generalize taken : Parse.Descent.expression (.ofEnd source) floor ts = result at walks
  generalize read : w.expression floor = outcome at walks
  cases walks with
  | read x n le passes left at_ clean =>
    have path := passes.path stands
    have place := stands.iterate n
    obtain ⟨run, c, rest, split, left', derives, stops⟩ := Parse.Descent.expression_derives taken
    have here : ts.drop n = c :: rest := left ▸ left'
    rw [here] at place
    have current : (advance^[n] w).current = c := place.current
    have whole : run = ts.take n ++ [c] := by
      rw [← List.take_append_drop n ts, here, List.append_cons] at split
      exact (List.append_cancel_right split).symm
    have derived : Derives floor.above (w.path n ++ [(advance^[n] w).current]) x.value := by
      rw [stands.path_eq passes.short, current, ← whole]
      exact derives
    obtain ⟨last, isLast, closes⟩ := derived.closes
    rw [List.getLast?_concat] at isLast
    cases isLast
    refine .read x.value n le (bound_iterate_add_le fun t ht => (path t ht).2) path derived closes
      (expression_links read) ?_ (faults_iterate n w)
    intro op sign
    rw [place.ahead] at sign
    cases rest with
    | nil => cases sign
    | cons t rest => exact stops t rfl op sign
  | failed e n le passes located =>
    have path := passes.path stands
    refine .failed e n le (bound_iterate_add_le fun t ht => (path t ht).2) path located ?_
    rw [located.faults_record, faults_iterate]

/-- From the second operand on, where the closing parenthesis is missing. -/
theorem expression_contract_unclosed :
    Reachable "1 + 2 * (x;" (ofSource "1 + 2 * (x;").advance.advance ∧
      (ofSource "1 + 2 * (x;").advance.advance.current = ⟨.int, "2", ⟨4, 5⟩⟩ ∧
      Contract .sum (ofSource "1 + 2 * (x;").advance.advance
        ((ofSource "1 + 2 * (x;").advance.advance.expression .sum) := by
  have reachable : Reachable "1 + 2 * (x;" (ofSource "1 + 2 * (x;").advance.advance :=
    .advance (.advance .start)
  have place := (stands_ofSource "1 + 2 * (x;").advance.advance
  exact ⟨reachable, place.current.trans (by decide), expression_contract reachable .sum⟩

end Walker

end MonkeyFrontEnd
