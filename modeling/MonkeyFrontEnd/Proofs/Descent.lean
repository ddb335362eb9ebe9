import MonkeyFrontEnd.Parse.Descent
import MonkeyFrontEnd.Proofs.Attempt
import MonkeyFrontEnd.Proofs.Reading.Completeness

/-!
# Descent and machine read alike

The two ways of reading are compared at the seams of an expression: where an operand is due, and
behind one (`operand_agrees`, `operators_agree`). The level above which descent reads operators is
the one that the innermost frame of the machine wants (`wanted`), and descent, whose last token is
still the current one, is a token behind the machine (`Agrees`). Both meet the same fault, and they
skip to the same place after it (`Notes`). With statements put together, descent makes of every
source text what the machine makes of it, and no draft is misused on the way (`ofSource_eq`).
-/

set_option autoImplicit false

namespace MonkeyFrontEnd.Parse.Descent

variable {last t : Token} {floor level : Level} {outer : List Frame} {ts us rest left : List Token}
  {e right : Expr} {op : BinaryOp} {f : Fault} {n : Notice}

/-- The level above which operators join the operand that the innermost frame waits for. -/
def wanted (floor : Level) : List Frame → Level
  | [] => floor
  | .unary .. :: _ => .unary
  | .binary _ _ op :: _ => op.level
  | .paren :: _ => .lowest

theorem not_unary_lt_level (op : BinaryOp) : ¬ Level.unary < op.level := by
  cases op <;> decide

/-! ### The machine at the seams -/

/-- An operand is handed to a unary operator, whatever follows. -/
theorem run_unary (floor : Level) (e : Expr) (t : Token) (op : UnaryOp) (outer : List Frame)
    (rest : List Token) :
    Reading.run floor (.operandRead e (.unary t op :: outer)) rest =
      Reading.run floor (.operandRead (.unary t op e) outer) rest := by
  cases rest <;> simp [Reading.run, Reading.finish, operatorStep, close]

/-- An operand is handed to a binary operator, if none follows that binds tighter. -/
theorem run_binary (floor : Level) (l e : Expr) (t : Token) (outer : List Frame)
    (stops : Stops op.level rest) :
    Reading.run floor (.operandRead e (.binary l t op :: outer)) rest =
      Reading.run floor (.operandRead (.binary t l op e) outer) rest := by
  have lowest : Level.lowest ≤ op.level := by cases op <;> decide
  cases rest with
  | nil => simp [Reading.run, Reading.finish, close, lowest]
  | cons u rest =>
    cases sign : BinaryOp.ofKind? u.kind with
    | none => simp [Reading.run, operatorStep, sign, close, lowest]
    | some op' =>
      have looser : op'.level ≤ op.level := Nat.le_of_not_lt (stops u rfl op' sign)
      simp [Reading.run, operatorStep, sign, close, looser]

theorem hole_eq_above_wanted (floor : Level) (outer : List Frame) :
    hole floor outer = (wanted floor outer).above := by
  cases outer with
  | nil => rfl
  | cons frame outer => cases frame <;> rfl

/-- An operator that binds tighter than what is wanted opens a frame. -/
theorem run_operator (sign : BinaryOp.ofKind? t.kind = some op)
    (tighter : wanted floor outer < op.level) (e : Expr) (ts : List Token) :
    Reading.run floor (.operandRead e outer) (t :: ts) =
      Reading.run floor (.operandDue (.binary e t op :: outer)) ts := by
  have fits : hole floor outer ≤ op.layer := by
    rw [hole_eq_above_wanted]
    exact Level.above_le_layer.2 tighter
  exact Parse.run_operator fits rfl sign

/-! ### What the two have in common -/

/-- The notice is that of the fault `f` at the head of `rest`, and what is left is skipped to the
same place as `rest`. -/
structure Notes (last : Token) (f : Fault) (rest : List Token) (n : Notice) (left : List Token) :
    Prop where
  notice : Event.notice? (.fault f (rest.headD last) (rest.tail.headD last)) = some n
  behind : afterSemicolon left = afterSemicolon rest

/-- What a part of an expression was read as, compared with what the machine comes to that reads the
same: it goes on behind the operand that was read, or it meets the same fault. -/
inductive Agrees (last : Token) (floor level : Level) (outer : List Frame) {ts : List Token}
    (machine : Except (Fault × List Token) (Expr × List Token)) :
    Except Halt (Result Expr ts) → Prop
  | ok (r : Result Expr ts) {c : Token} {rest : List Token} (at_ : r.left = c :: rest)
      (clean : c.kind ≠ .semicolon) (stops : Stops level rest)
      (run : machine = Reading.run floor (.operandRead r.value outer) rest) :
      Agrees last floor level outer machine (.ok r)
  | failed {f : Fault} {rest : List Token} (n : Notice) (left : List Token)
      (run : machine = .error (f, rest)) (notes : Notes last f rest n left) :
      Agrees last floor level outer machine (.error (.failed n left))

/-- The expression at the head of `ts` is read as the machine reads it, whatever is open around
it. -/
def ReadsAlike (last : Token) (ts : List Token) : Prop :=
  ∀ floor outer, Agrees last floor (wanted floor outer) outer
    (Reading.run floor (.operandDue outer) ts) (expression last (wanted floor outer) ts)

/-- A result is one of more tokens, too. -/
theorem Agrees.within {machine : Except (Fault × List Token) (Expr × List Token)}
    {x : Except Halt (Result Expr us)} (h : Agrees last floor level outer machine x)
    (le : us.length ≤ ts.length) :
    Agrees last floor level outer machine
      (x.bind fun r => .ok (r.within le) : Except Halt (Result Expr ts)) := by
  cases h with
  | ok r at_ clean stops run => exact .ok _ at_ clean stops run
  | failed n left run notes => exact .failed n left run notes

theorem afterSemicolon_cons (h : t.kind ≠ .semicolon) :
    afterSemicolon (t :: ts) = afterSemicolon ts := by
  simp [afterSemicolon, h]

theorem stops_unary (rest : List Token) : Stops .unary rest :=
  fun _ _ op _ => not_unary_lt_level op

/-- The token ahead is not the one that is demanded. -/
theorem notes_unexpected (kind : Token.Kind) {c : Token} (clean : c.kind ≠ .semicolon)
    (rest : List Token) :
    Notes last (.unexpected kind) rest
      ⟨(peek last (c :: rest)).span.start,
        .unexpectedToken kind (rest.headD last).kind (rest.headD last).span⟩ (c :: rest) where
  notice := rfl
  behind := afterSemicolon_cons clean

/-- Behind an expression in parentheses the closing one is due. -/
theorem group_agrees {c : Token} {machine : Except (Fault × List Token) (Expr × List Token)}
    (le : (c :: rest).length ≤ ts.length) (clean : c.kind ≠ .semicolon)
    (stops : Stops .lowest rest)
    (run : machine = Reading.run floor (.operandRead e (.paren :: outer)) rest) :
    Agrees last floor .unary outer machine
      ((expectPeek last .rparen (c :: rest)).bind fun close =>
        .ok (⟨e, close.left, Nat.le_succ_of_le (Nat.le_trans close.le le)⟩ :
          Result Expr (t :: ts))) := by
  cases rest with
  | nil =>
    have missing : machine = .error (.unexpected .rparen, []) := run
    exact .failed _ _ missing (notes_unexpected .rparen clean [])
  | cons u rest =>
    have sign : BinaryOp.ofKind? u.kind = none := stops_lowest.1 stops u rfl
    by_cases closing : u.kind = .rparen
    · have closed : machine = Reading.run floor (.operandRead e outer) rest := by
        rw [run]
        simp only [Reading.run, operatorStep, sign, close]
        rw [if_pos closing]
      simp only [expectPeek, closing, if_true]
      exact .ok _ rfl (by simp [closing]) (stops_unary _) closed
    · have missing : machine = .error (.unexpected .rparen, u :: rest) := by
        rw [run]
        simp [Reading.run, operatorStep, sign, close, closing]
      simp only [expectPeek, closing, if_false]
      exact .failed _ _ missing (notes_unexpected .rparen clean (u :: rest))

theorem operand_agrees (shorter : ∀ us, us.length < ts.length → ReadsAlike last us) (floor : Level)
    (outer : List Frame) :
    Agrees last floor .unary outer (Reading.run floor (.operandDue outer) ts)
      (operand last ts) := by
  cases ts with
  | nil =>
    rw [operand]
    exact .failed _ _ rfl ⟨rfl, rfl⟩
  | cons t ts =>
    rw [operand]
    cases sign : UnaryOp.ofKind? t.kind with
    | some op =>
      have opened : Reading.run floor (.operandDue outer) (t :: ts) =
          Reading.run floor (.operandDue (.unary t op :: outer)) ts := by
        simp only [Reading.run, operandStep_unary sign]
      have inner : Agrees last floor .unary (.unary t op :: outer) _ (expression last .unary ts) :=
        shorter ts (by simp) floor (.unary t op :: outer)
      rw [opened]
      generalize expression last .unary ts = result at inner
      cases inner with
      | ok r at_ clean stops run =>
        rw [run_unary] at run
        exact .ok _ at_ clean (stops_unary _) run
      | failed n left run notes => exact .failed n left run notes
    | none =>
      dsimp only
      split
      · rename_i kind
        refine .ok _ rfl (by simp [kind]) (stops_unary _) ?_
        simp [Reading.run, operandStep, kind]
      · rename_i kind
        cases value : intValue? t.literal with
        | some v =>
          refine .ok _ rfl (by simp [kind]) (stops_unary _) ?_
          simp [Reading.run, operandStep, kind, value]
        | none =>
          have stuck : Reading.run floor (.operandDue outer) (t :: ts) =
              .error (.integerTooLarge, t :: ts) := by
            simp [Reading.run, operandStep, kind, value]
          exact .failed _ _ stuck ⟨rfl, rfl⟩
      · rename_i kind
        have opened : Reading.run floor (.operandDue outer) (t :: ts) =
            Reading.run floor (.operandDue (.paren :: outer)) ts := by
          simp [Reading.run, operandStep, kind]
        have inner : Agrees last floor .lowest (.paren :: outer) _ (expression last .lowest ts) :=
          shorter ts (by simp) floor (.paren :: outer)
        rw [opened]
        generalize expression last .lowest ts = result at inner
        cases inner with
        | @ok r c rest at_ clean stops run =>
          obtain ⟨e, left, le⟩ := r
          obtain rfl : left = c :: rest := at_
          exact group_agrees le clean stops run
        | failed n left run notes => exact .failed n left run notes
      · rename_i kind ident int paren
        have stuck : operandStep outer t = .error .noOperand := by
          rw [operandStep]
          split
          · exact absurd ‹_› ident
          · exact absurd ‹_› int
          · exact absurd ‹_› paren
          · rw [sign]
        have faulty : Reading.run floor (.operandDue outer) (t :: ts) =
            .error (.noOperand, t :: ts) := by
          simp only [Reading.run, stuck]
        exact .failed _ _ faulty ⟨rfl, rfl⟩

/-- Operators are read as the machine reads them behind an operand. -/
theorem operators_agree (shorter : ∀ us, us.length < ts.length → ReadsAlike last us) (floor : Level)
    (outer : List Frame) (e : Expr) {c : Token} (at_ : ts = c :: rest)
    (clean : c.kind ≠ .semicolon) :
    Agrees last floor (wanted floor outer) outer
      (Reading.run floor (.operandRead e outer) rest)
      (operators last (wanted floor outer) e ts) := by
  induction size : ts.length using Nat.strongRecOn generalizing ts rest e c with
  | ind n ih =>
    subst at_ size
    cases rest with
    | nil =>
      rw [operators]
      · exact .ok _ rfl clean (by simp [Stops]) rfl
      · simp
    | cons t rest =>
      rw [operators]
      cases sign : BinaryOp.ofKind? t.kind with
      | none => exact .ok _ rfl clean (by simp [Stops, sign]) rfl
      | some op =>
        dsimp only
        split
        · rename_i tighter
          have fewer : rest.length < (c :: t :: rest).length := by
            simp only [List.length_cons]
            omega
          have inner : Agrees last floor op.level (.binary e t op :: outer) _
              (expression last op.level rest) :=
            shorter rest fewer floor (.binary e t op :: outer)
          rw [run_operator sign tighter]
          generalize expression last op.level rest = result at inner
          cases inner with
          | @ok r c' rest' at_ clean' stops run =>
            have less := r.le
            rw [run, run_binary floor e r.value t outer stops]
            exact (ih r.left.length (by omega) (fun us h => shorter us (by omega)) _ at_ clean'
              rfl).within _
          | failed n left run notes => exact .failed n left run notes
        · rename_i looser
          refine .ok _ rfl clean ?_ rfl
          simpa [Stops, sign] using looser

/-- Descent and machine read every expression alike. -/
theorem readsAlike (last : Token) (ts : List Token) : ReadsAlike last ts := by
  induction size : ts.length using Nat.strongRecOn generalizing ts with
  | ind n ih =>
    have shorter : ∀ us, us.length < ts.length → ReadsAlike last us :=
      fun us h => ih us.length (size ▸ h) us rfl
    intro floor outer
    have first := operand_agrees shorter floor outer
    rw [expression]
    generalize operand last ts = result at first
    cases first with
    | @ok r c rest at_ clean _ run =>
      have less := r.le
      rw [run]
      exact (operators_agree (fun us h => shorter us (by omega)) floor outer r.value at_
        clean).within _
    | failed n left run notes => exact .failed n left run notes

/-- The machine that has read an operand with nothing open around it has read the expression, unless
an operator follows that binds tighter. -/
theorem run_complete (stops : Stops floor rest) :
    Reading.run floor (.operandRead e []) rest = .ok (e, rest) := by
  cases rest with
  | nil => rfl
  | cons t rest =>
    cases sign : BinaryOp.ofKind? t.kind with
    | none => simp only [Reading.run, operatorStep, sign, close]
    | some op =>
      have looser : ¬ floor < op.level := stops t rfl op sign
      simp only [Reading.run, operatorStep, sign, close, if_neg looser]

/-- What is read by descent is derived by the grammar, up to the token that is the current one then,
and no operator that could join it follows. -/
theorem expression_derives {r : Result Expr ts} (h : expression last floor ts = .ok r) :
    ∃ taken c rest, ts = taken ++ rest ∧ r.left = c :: rest ∧
      Grammar.Derives floor.above taken r.value ∧ Stops floor rest := by
  have alike : Agrees last floor floor [] (Parse.expression floor ts)
      (expression last floor ts) := readsAlike last ts floor []
  rw [h] at alike
  cases alike with
  | @ok _ c rest at_ clean stops run =>
    have derived := expression_outcome floor ts
    rw [run, run_complete stops] at derived
    obtain ⟨taken, split, derives, -⟩ := derived
    exact ⟨taken, c, rest, split, at_, derives, stops⟩

/-! ### Statements -/

/-- The draft of a statement before its expression has been read. -/
def draftOf : Goal → Draft
  | .letStmt t name => .letStmt t name none
  | .returnStmt t => .returnStmt t none
  | .exprStmt t => .exprStmt t none

/-- The slot for the expression of a statement. -/
def slotOf : Goal → Draft.Slot
  | .exprStmt _ => .expression
  | _ => .value

/-- What reading a statement by descent comes to, compared with `Parse.statement`. -/
inductive Alike (last : Token) :
    Except (Fault × List Token) (Stmt × List Token) → Except Halt (Stmt × List Token) → Prop
  | ok {rest : List Token} (s : Stmt) (left : List Token) (behind : left.tail = rest) :
      Alike last (.ok (s, rest)) (.ok (s, left))
  | failed {f : Fault} {rest : List Token} (n : Notice) (left : List Token)
      (notes : Notes last f rest n left) : Alike last (.error (f, rest)) (.error (.failed n left))

theorem tail_takeSemicolon (c : Token) (rest : List Token) :
    (takeSemicolon (c :: rest)).tail = State.afterStatement rest := by
  cases rest with
  | nil => rfl
  | cons t rest =>
    simp only [takeSemicolon, State.afterStatement]
    split <;> rfl

/-- Every statement finishes the draft that it has opened. -/
theorem body_alike (last : Token) (goal : Goal) (ts : List Token) :
    Alike last
      (match Parse.expression .lowest ts with
        | .error fault => .error fault
        | .ok (e, rest) => .ok (goal.complete e, State.afterStatement rest))
      (body last (draftOf goal) (slotOf goal) ts) := by
  have alike : Agrees last .lowest .lowest [] (Parse.expression .lowest ts)
      (expression last .lowest ts) := readsAlike last ts .lowest []
  rw [body]
  generalize expression last .lowest ts = result at alike
  cases alike with
  | @ok r c rest at_ clean stops run =>
    have behind := tail_takeSemicolon c rest
    rw [← at_] at behind
    rw [run, run_complete stops]
    cases goal <;> exact .ok _ (takeSemicolon r.left) behind
  | failed n left run notes =>
    rw [run]
    exact .failed n left notes

/-- The next token, where one of a certain kind is due. -/
theorem expectPeek_cons (last : Token) (kind : Token.Kind) (c : Token) (ts : List Token) :
    (∃ t us, ts = t :: us ∧ demand kind ts = .ok (t, us) ∧
      ∃ le, expectPeek last kind (c :: ts) = .ok ⟨t, t :: us, le⟩) ∨
    demand kind ts = .error (.unexpected kind, ts) ∧
      expectPeek last kind (c :: ts) =
        fail last (.unexpectedToken kind (ts.headD last).kind (ts.headD last).span) (c :: ts) := by
  cases ts with
  | nil => exact .inr ⟨rfl, rfl⟩
  | cons t us =>
    by_cases h : t.kind = kind
    · exact .inl ⟨t, us, rfl, demand_of_kind h, by simp, by simp only [expectPeek, h, if_true]⟩
    · exact .inr ⟨by simp only [demand, h, if_false], by simp [expectPeek, h]⟩

theorem letStatement_alike (last : Token) (h : t.kind = .kwLet) (ts : List Token) :
    Alike last (Parse.statement t ts) (statement last t ts) := by
  have keyword : t.kind ≠ .semicolon := by simp [h]
  simp only [Parse.statement, heading, statement, h]
  rcases expectPeek_cons last .ident t ts with ⟨name, us, rfl, due, le, found⟩ | ⟨due, missing⟩
  · rw [due, found]
    have named : name.kind ≠ .semicolon := by
      rw [(demand_ok due).2]
      decide
    rcases expectPeek_cons last .assign name us with
      ⟨assign, us, rfl, due, le, found⟩ | ⟨due, missing⟩
    · dsimp only [bind, Except.bind]
      rw [due, found]
      exact body_alike last (.letStmt t (.ofToken name)) us
    · dsimp only [bind, Except.bind]
      rw [due, missing]
      exact .failed _ _ (notes_unexpected .assign named us)
  · rw [due, missing]
    exact .failed _ _ (notes_unexpected .ident keyword ts)

/-- What does not begin with a keyword is the statement of an expression. -/
theorem statement_of_expr (last : Token) {t : Token} (hl : t.kind ≠ .kwLet)
    (hr : t.kind ≠ .kwReturn) (ts : List Token) :
    statement last t ts = body last (.exprStmt t none) .expression (t :: ts) := by
  rw [statement]
  split
  · exact absurd ‹_› hl
  · exact absurd ‹_› hr
  · rfl

theorem statement_alike (last t : Token) (ts : List Token) :
    Alike last (Parse.statement t ts) (statement last t ts) := by
  by_cases hl : t.kind = .kwLet
  · exact letStatement_alike last hl ts
  · by_cases hr : t.kind = .kwReturn
    · simp only [Parse.statement, heading, statement, hr]
      exact body_alike last (.returnStmt t) ts
    · rw [Parse.statement, heading_expr hl hr, statement_of_expr last hl hr]
      exact body_alike last (.exprStmt t) (t :: ts)

/-- A statement that is read by descent, compared with the attempt that the machine makes. -/
theorem statement_cases (last t : Token) (ts : List Token) :
    (∃ s left, statement last t ts = .ok (s, left) ∧ attempt last t ts = (.stmt s, left.tail)) ∨
    ∃ n left event, statement last t ts = .error (.failed n left) ∧
      attempt last t ts = (event, afterSemicolon left) ∧ event.stmt? = none ∧
      event.notice? = some n := by
  have alike := statement_alike last t ts
  rw [attempt]
  generalize Parse.statement t ts = expected at alike
  generalize statement last t ts = result at alike
  cases alike with
  | ok s left behind =>
    subst behind
    exact .inl ⟨s, left, rfl, rfl⟩
  | @failed f rest n left notes =>
    refine .inr ⟨n, left, .fault f (rest.headD last) (rest.tail.headD last), rfl, ?_, rfl,
      notes.notice⟩
    rw [notes.behind]

/-! ### Programs -/

theorem length_of_ok {s : Stmt} (h : statement last t ts = .ok (s, left)) :
    left.tail.length < (t :: ts).length := by
  have size := length_attempt_le last t ts
  rcases statement_cases last t ts with ⟨s', left', read, made⟩ | ⟨n, left', event, read, -⟩
  · cases h.symm.trans read
    rw [made] at size
    exact Nat.lt_succ_of_le size
  · cases h.symm.trans read

theorem length_of_failed (h : statement last t ts = .error (.failed n left)) :
    (afterSemicolon left).length < (t :: ts).length := by
  have size := length_attempt_le last t ts
  rcases statement_cases last t ts with ⟨s, left', read, -⟩ | ⟨n', left', event, read, made, -⟩
  · cases h.symm.trans read
  · cases h.symm.trans read
    rw [made] at size
    exact Nat.lt_succ_of_le size

/-- Reads statements to the end of the tokens. One that fails is given up: what follows is skipped
through the next semicolon. -/
def program (last : Token) : List Token → Except Halt (List Stmt × List Notice)
  | [] => .ok ([], [])
  | t :: ts =>
    match _read : statement last t ts with
    | .ok (s, left) => (program last left.tail).map fun (ss, ns) => (s :: ss, ns)
    | .error (.failed n left) =>
      (program last (afterSemicolon left)).map fun (ss, ns) => (ss, n :: ns)
    | .error halt => .error halt
termination_by ts => ts.length
decreasing_by
  · exact length_of_ok _read
  · exact length_of_failed _read

theorem program_of_ok {s : Stmt} (h : statement last t ts = .ok (s, left)) :
    program last (t :: ts) = (program last left.tail).map fun (ss, ns) => (s :: ss, ns) := by
  rw [program]
  split
  · rename_i s' left' read
    cases h.symm.trans read
    rfl
  · rename_i read
    cases h.symm.trans read
  · rename_i read
    cases h.symm.trans read

theorem program_of_failed (h : statement last t ts = .error (.failed n left)) :
    program last (t :: ts) =
      (program last (afterSemicolon left)).map fun (ss, ns) => (ss, n :: ns) := by
  rw [program]
  split
  · rename_i read
    cases h.symm.trans read
  · rename_i n' left' read
    cases h.symm.trans read
    rfl
  · rename_i halt other read
    exact absurd (Except.error.inj (h.symm.trans read)).symm (other n left)

/-- No draft is misused, and the statements and errors are those of the machine. -/
theorem program_eq (last : Token) (ts : List Token) :
    program last ts = .ok ((State.run last .start ts).filterMap Event.stmt?,
      (State.run last .start ts).filterMap Event.notice?) := by
  induction size : ts.length using Nat.strongRecOn generalizing ts with
  | ind k ih =>
    subst size
    cases ts with
    | nil =>
      rw [program]
      rfl
    | cons t ts =>
      rw [run_eq_attempt]
      rcases statement_cases last t ts with
        ⟨s, left, read, made⟩ | ⟨n, left, event, read, made, none, notice⟩
      · rw [program_of_ok read, ih _ (length_of_ok read) _ rfl, made]
        rfl
      · rw [program_of_failed read, ih _ (length_of_failed read) _ rfl, made,
          List.filterMap_cons_none none, List.filterMap_cons_some notice]
        rfl

/-- Reads a source text by descent, unless a draft is misused. -/
def ofSource (source : String) : Except Halt Parse :=
  (program (.ofEnd source) (Token.ofSource source)).map fun (statements, notices) =>
    { program := ⟨statements⟩
      errors := (Notice.inOrder ((IllegalChar.ofSource source).map .ofIllegal) notices).map
        Notice.error }

/-- Descent reads every source text, without misusing a draft, and as the machine does. -/
theorem ofSource_eq (source : String) : ofSource source = .ok (Parse.ofSource source) := by
  rw [ofSource, program_eq]
  rfl

end MonkeyFrontEnd.Parse.Descent
