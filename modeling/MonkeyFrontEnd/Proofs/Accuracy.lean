import MonkeyFrontEnd.Proofs.Descent
import MonkeyFrontEnd.Proofs.Lexing.Tiling
import MonkeyFrontEnd.Proofs.Reporting

/-!
# The errors are true of the source text

What an error says can be checked against the tokens and illegal characters of the text
(`ParseError.Accurate`), and its span marks a stretch of the text (`Span.Marks`). A fault says
something about its token that its step has found out (`Fault.Holds`, `State.step_holds`), and the
token is one of the text or the one at its end. No error is about an unfinished node, since reading
by descent finishes every draft and attaches nothing twice (`Descent.ofSource_eq`).
-/

set_option autoImplicit false

namespace MonkeyFrontEnd

open Text (byteCount)

/-- The span marks whole characters of the text, or a place between two of them. -/
def Span.Marks (source : String) (s : Span) : Prop :=
  s.start ≤ s.stop ∧ s.stop ≤ source.utf8ByteSize ∧
    ∃ before text behind, source.toList = before ++ text ++ behind ∧
      s = ⟨byteCount before, byteCount before + byteCount text⟩

/-- What the error says is true of the source text. -/
def ParseError.Accurate (source : String) : ParseError → Prop
  | .unexpectedToken expected found span =>
    expected ∈ [.ident, .assign, .rparen] ∧ found ≠ expected ∧
      ∃ t ∈ Token.stream source, t.kind = found ∧ t.span = span
  | .noOperand found span =>
    found ∉ [.ident, .int, .lparen, .minus, .bang] ∧
      ∃ t ∈ Token.stream source, t.kind = found ∧ t.span = span
  | .integerTooLarge literal span =>
    Parse.intValue? literal = none ∧
      ∃ t ∈ Token.stream source, t.kind = .int ∧ t.literal = literal ∧ t.span = span
  | .illegalChar e => e ∈ IllegalChar.ofSource source
  | .incomplete _ => False

namespace Parse

/-! ### What a fault says about its token -/

/-- What has been found out about the token at which the fault is met. -/
def Fault.Holds (found : Token) : Fault → Prop
  | .unexpected expected => expected ∈ [.ident, .assign, .rparen] ∧ found.kind ≠ expected
  | .noOperand => found.kind ∉ [.ident, .int, .lparen, .minus, .bang]
  | .integerTooLarge => found.kind = .int ∧ intValue? found.literal = none

/-- What the event says about its token. -/
def Event.Holds : Event → Prop
  | .stmt _ => True
  | .fault f found _ => f.Holds found

variable {floor : Level} {e : Expr} {outer : List Frame} {t last : Token} {f : Fault}
  {ts : List Token}

theorem holds_of_operandStep (h : operandStep outer t = .error f) : f.Holds t := by
  simp only [operandStep] at h
  split at h
  · cases h
  · rename_i kind
    split at h
    · cases h
    · rename_i tooLarge
      cases h
      exact ⟨kind, tooLarge⟩
  · cases h
  · rename_i ident int lparen
    split at h
    · cases h
    · rename_i unary
      cases h
      have minus : t.kind ≠ .minus := fun kind => by simp [kind, UnaryOp.ofKind?] at unary
      have bang : t.kind ≠ .bang := fun kind => by simp [kind, UnaryOp.ofKind?] at unary
      simp only [Fault.Holds, List.mem_cons, List.not_mem_nil, or_false, not_or]
      exact ⟨ident, int, lparen, minus, bang⟩

theorem holds_of_operatorStep (h : operatorStep floor e outer t = .fault f) : f.Holds t := by
  simp only [operatorStep] at h
  split at h
  · split at h
    · split at h <;> cases h
    · cases h
  · split at h
    · cases h
    · split at h
      · cases h
      · rename_i open_
        cases h
        exact ⟨by simp, open_⟩

theorem holds_of_finish {r : Reading} (h : r.finish = .error f) (eof : last.kind = .eof) :
    f.Holds last := by
  cases r with
  | operandDue outer =>
    cases h
    simp [Fault.Holds, eof]
  | operandRead e outer =>
    simp only [Reading.finish] at h
    split at h
    · cases h
    · cases h
      exact ⟨by simp, by simp [eof]⟩

namespace State

theorem giveUp_holds {next : Token} (h : f.Holds t) : ∀ e ∈ (giveUp f t next).2, e.Holds := by
  intro e he
  obtain rfl := List.mem_singleton.1 he
  exact h

theorem enter_holds (t next : Token) : ∀ e ∈ (enter t next).2, e.Holds := by
  simp only [enter]
  split
  · simp
  · simp
  · cases first : operandStep [] t with
    | ok r => simp
    | error f => exact giveUp_holds (holds_of_operandStep first)

/-- What a step says about its token is true. -/
theorem step_holds (s : State) (t next : Token) : ∀ e ∈ (s.step t next).2, e.Holds := by
  cases s with
  | start => exact enter_holds t next
  | nameDue letToken =>
    simp only [step]
    split
    · simp
    · rename_i other
      exact giveUp_holds ⟨by simp, other⟩
  | assignDue letToken name =>
    simp only [step]
    split
    · simp
    · rename_i other
      exact giveUp_holds ⟨by simp, other⟩
  | skipping => simp [step]
  | value goal r =>
    cases r with
    | operandDue outer =>
      simp only [step]
      cases due : operandStep outer t with
      | ok r => simp
      | error f => exact giveUp_holds (holds_of_operandStep due)
    | operandRead e outer =>
      simp only [step]
      cases read : operatorStep .lowest e outer t with
      | more r => simp
      | fault f => exact giveUp_holds (holds_of_operatorStep read)
      | complete e =>
        dsimp only
        split
        · simp [Event.Holds]
        · exact List.forall_mem_cons.2 ⟨trivial, enter_holds t next⟩

theorem finish_holds (s : State) (eof : last.kind = .eof) : ∀ e ∈ s.finish last, e.Holds := by
  cases s with
  | start => simp [finish]
  | skipping => simp [finish]
  | nameDue letToken => simp [finish, Event.Holds, Fault.Holds, eof]
  | assignDue letToken name => simp [finish, Event.Holds, Fault.Holds, eof]
  | value goal r =>
    simp only [finish]
    cases ended : r.finish with
    | ok e => simp [Event.Holds]
    | error f => exact List.forall_mem_singleton.2 (holds_of_finish ended eof)

/-- What a run says about tokens is true. -/
theorem run_holds (s : State) (ts : List Token) (eof : last.kind = .eof) :
    ∀ e ∈ run last s ts, e.Holds := by
  induction ts generalizing s with
  | nil => exact finish_holds s eof
  | cons t ts ih =>
    rw [run_cons]
    exact List.forall_mem_append.2 ⟨step_holds s t _, ih _⟩

end State

end Parse

/-! ### Stretches of the text -/

variable {source : String}

theorem Item.marks_of_mem_stream {i : Item} (h : i ∈ Item.stream source) : i.span.Marks source := by
  rcases List.mem_append.1 h with item | last
  · obtain ⟨before, behind, split, place, -⟩ := (Item.tiles_ofSource source).stand i item
    have inside := Item.span_of_mem_ofSource item
    refine ⟨Nat.le_of_lt inside.1, inside.2, before, i.text, behind, split, ?_⟩
    rw [place, Nat.zero_add]
  · obtain rfl := List.mem_singleton.1 last
    refine ⟨Nat.le_refl _, Nat.le_refl _, source.toList, [], [], by simp, ?_⟩
    rw [Text.byteCount_toList]
    rfl

theorem Token.mem_item_stream {t : Token} (h : t ∈ Token.stream source) :
    .token t ∈ Item.stream source := by
  rcases List.mem_append.1 h with token | last
  · exact List.mem_append_left _ (Token.mem_ofSource.1 token)
  · obtain rfl := List.mem_singleton.1 last
    exact List.mem_append_right _ List.mem_cons_self

/-- An error that is true of the text stands where a token or an illegal character stands, or at the
end. -/
theorem ParseError.Accurate.exists_item {e : ParseError} (h : e.Accurate source) :
    ∃ i ∈ Item.stream source, i.span = e.span := by
  cases e with
  | unexpectedToken expected found span =>
    obtain ⟨-, -, t, ht, -, same⟩ := h
    exact ⟨.token t, Token.mem_item_stream ht, same⟩
  | noOperand found span =>
    obtain ⟨-, t, ht, -, same⟩ := h
    exact ⟨.token t, Token.mem_item_stream ht, same⟩
  | integerTooLarge literal span =>
    obtain ⟨-, t, ht, -, -, same⟩ := h
    exact ⟨.token t, Token.mem_item_stream ht, same⟩
  | illegalChar e =>
    exact ⟨.illegal e, List.mem_append_left _ (IllegalChar.mem_ofSource.1 h), rfl⟩
  | incomplete e => exact h.elim

/-- An error that is true of the text marks a stretch of it. -/
theorem ParseError.Accurate.marks {e : ParseError} (h : e.Accurate source) :
    e.span.Marks source := by
  obtain ⟨i, hi, same⟩ := h.exists_item
  rw [← same]
  exact Item.marks_of_mem_stream hi

namespace Parse

/-- The error that a fault is reported as says what has been found out about its token. -/
theorem Fault.Holds.accurate {f : Fault} {found : Token} (h : f.Holds found)
    (ht : found ∈ Token.stream source) : (f.error found).Accurate source := by
  cases f with
  | unexpected expected => exact ⟨h.1, h.2, found, ht, rfl, rfl⟩
  | noOperand => exact ⟨h, found, ht, rfl, rfl⟩
  | integerTooLarge => exact ⟨h.2, found, ht, h.1, rfl, rfl⟩

theorem accurate_of_mem_notices {x : Notice} (h : x ∈ notices source) :
    x.error.Accurate source := by
  rcases Notice.mem_inOrder.1 h with illegal | fault
  · obtain ⟨e, he, rfl⟩ := List.mem_map.1 illegal
    exact he
  · obtain ⟨event, mem, hx⟩ := List.mem_filterMap.1 fault
    have holds := State.run_holds .start (Token.ofSource source) rfl event mem
    cases event with
    | stmt s => cases hx
    | fault f found next =>
      obtain ⟨before, behind, place, -⟩ := State.place_of_mem_run mem
      have token : found ∈ Token.stream source := by
        rw [Token.stream, place]
        exact List.mem_append_cons_self
      have accurate := holds.accurate token
      cases f <;> cases hx <;> exact accurate

/-- **Errors are true of the text.** Reading a text by descent, where every node is drafted, comes
to its end: no child is attached twice and no draft is finished too early, and the program and the
errors are those of `ofSource`. Every error says what is so: another token than the one that is due
stands there, or no operand begins there, or an integer is too large, or a character is illegal. Its
span marks whole characters of the text. -/
theorem errors_accurate (source : String) :
    Descent.ofSource source = .ok (ofSource source) ∧
      ∀ e ∈ (ofSource source).errors, e.Accurate source ∧ e.span.Marks source := by
  refine ⟨Descent.ofSource_eq source, fun e he => ?_⟩
  rw [errors_eq_map_notices] at he
  obtain ⟨x, hx, rfl⟩ := List.mem_map.1 he
  have accurate := accurate_of_mem_notices hx
  exact ⟨accurate, accurate.marks⟩

end Parse

end MonkeyFrontEnd
