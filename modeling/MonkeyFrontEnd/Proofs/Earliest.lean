import MonkeyFrontEnd.Proofs.Lexing.Places
import MonkeyFrontEnd.Proofs.Lexing.Written
import MonkeyFrontEnd.Proofs.Notices
import MonkeyFrontEnd.Proofs.Outcomes

/-!
# Faults are met as early as they can be

Until the first fault, what has been read is the beginning of some text without errors: whatever
brackets are open and whatever operators wait for an operand, a state that skips nothing can be
finished (`State.completion`). At the token of a fault this ends, because its event comes whatever
follows. So tokens can be gone on with exactly if reading them meets no fault
(`exists_accepted_iff`).
-/

set_option autoImplicit false

namespace MonkeyFrontEnd.Parse

/-- The tokens are, without their places, those of some text that is read without errors. -/
def Accepted (ts : List Token) : Prop :=
  ∃ source, (Token.ofSource source).map Token.erase = ts ∧ IllegalChar.ofSource source = [] ∧
    (Parse.ofSource source).errors = []

/-- Reading the tokens meets no fault. -/
def Viable (ts : List Token) : Prop :=
  (State.start.read ts).filterMap Event.error? = []

/-- Reading the tokens meets no fault, and neither does it at the end of the input. -/
def Complete (ts : List Token) : Prop :=
  (State.run (.endAt 0) .start ts).filterMap Event.error? = []

variable {source : String} {ts us : List Token}

/-! ### Finishing what is under way -/

/-- The brackets that close those that are open. -/
def closers : List Frame → List Token
  | [] => []
  | .paren :: outer => .ofKind .rparen :: closers outer
  | .unary .. :: outer | .binary .. :: outer => closers outer

theorem kind_of_mem_closers {outer : List Frame} {t : Token} (h : t ∈ closers outer) :
    t = .ofKind .rparen := by
  induction outer with
  | nil => cases h
  | cons f outer ih =>
    cases f with
    | unary t op => exact ih h
    | binary l t op => exact ih h
    | paren =>
      rcases List.mem_cons.1 h with rfl | h
      · rfl
      · exact ih h

/-- Before closing brackets an operand is the same as what it makes of the frames around it. -/
theorem run_closers_congr {e e' : Expr} {outer outer' inner : List Frame}
    (same : close .lowest e inner = close .lowest e' outer') :
    Reading.run .lowest (.operandRead e inner) (closers outer) =
      Reading.run .lowest (.operandRead e' outer') (closers outer) := by
  cases row : closers outer with
  | nil => simp only [Reading.run, Reading.finish, same]
  | cons t ts =>
    have bracket : t = .ofKind .rparen := kind_of_mem_closers (row ▸ List.mem_cons_self)
    have plain : BinaryOp.ofKind? t.kind = none := by rw [bracket]; rfl
    simp only [Reading.run, operatorStep, plain, same]

/-- Once its open brackets are closed, an expression is complete. -/
theorem run_closers (e : Expr) (outer : List Frame) :
    ∃ e', Reading.run .lowest (.operandRead e outer) (closers outer) = .ok (e', []) := by
  induction outer generalizing e with
  | nil => exact ⟨e, rfl⟩
  | cons f outer ih =>
    -- an operator takes its operand without a token of its own, a bracket with one
    cases f with
    | unary t op =>
      have handed : close .lowest e (.unary t op :: outer) = close .lowest (.unary t op e) outer :=
        rfl
      rw [closers, run_closers_congr handed]
      exact ih _
    | binary l t op =>
      have loosest : Level.lowest ≤ op.level := by cases op <;> decide
      have handed :
          close .lowest e (.binary l t op :: outer) = close .lowest (.binary t l op e) outer :=
        if_pos loosest
      rw [closers, run_closers_congr handed]
      exact ih _
    | paren => exact ih e

namespace State

/-- Tokens that finish the statement under way. -/
def completion : State → List Token
  | .start | .skipping => []
  | .nameDue _ => [.ofName "x", .ofKind .assign, .ofName "x"]
  | .assignDue _ _ => [.ofKind .assign, .ofName "x"]
  | .value _ (.operandDue outer) => .ofName "x" :: closers outer
  | .value _ (.operandRead _ outer) => closers outer

theorem spelled_of_mem_completion (s : State) : ∀ t ∈ s.completion, t.Spelled := by
  have name : (Token.ofName "x").Spelled :=
    Token.spelled_ofName ⟨Lexeme.Shape.spells_word rfl rfl, by decide⟩
  have assign : (Token.ofKind .assign).Spelled := Token.spelled_ofKind rfl
  have brackets : ∀ outer, ∀ t ∈ closers outer, t.Spelled := fun _ _ ht =>
    kind_of_mem_closers ht ▸ Token.spelled_ofKind rfl
  cases s with
  | start => exact List.forall_mem_nil _
  | skipping => exact List.forall_mem_nil _
  | nameDue t => simp [completion, name, assign]
  | assignDue t n => simp [completion, name, assign]
  | value goal r =>
    cases r with
    | operandDue outer => exact List.forall_mem_cons.2 ⟨name, brackets outer⟩
    | operandRead e outer => exact brackets outer

theorem run_closers_value (last : Token) (goal : Goal) (e : Expr) (outer : List Frame) :
    (run last (.value goal (.operandRead e outer)) (closers outer)).filterMap Event.error? =
      [] := by
  obtain ⟨e', read⟩ := run_closers e outer
  rw [run_value, read]
  rfl

/-- A statement under way can be finished, wherever it stands. -/
theorem run_completion (last : Token) {s : State} (going : s ≠ .skipping) :
    (run last s s.completion).filterMap Event.error? = [] := by
  cases s with
  | start => rfl
  | skipping => exact absurd rfl going
  | nameDue t => rfl
  | assignDue t n => rfl
  | value goal r =>
    cases r with
    | operandDue outer => exact run_closers_value last goal (.ident (.ofToken (.ofName "x"))) outer
    | operandRead e outer => exact run_closers_value last goal e outer

/-- Without a fault nothing is skipped. -/
theorem after_ne_skipping {s : State} (going : s ≠ .skipping)
    (clean : (s.read ts).filterMap Event.error? = []) : s.after ts ≠ .skipping := by
  induction ts generalizing s with
  | nil => exact going
  | cons t ts ih =>
    have yields := s.step_yields t t
    rw [read, List.filterMap_append, List.append_eq_nil_iff] at clean
    rw [after]
    generalize s.step t t = result at clean yields
    cases yields with
    | statements ss goes => exact ih (goes going) clean.2
    | fault s' ss f => simp [Event.error?] at clean

end State

/-! ### Tokens without their places -/

theorem filterMap_error?_map_moved_eq_nil (g : Span → Span) (evs : List Event) :
    (evs.map (Event.moved g)).filterMap Event.error? = [] ↔ evs.filterMap Event.error? = [] := by
  rw [filterMap_error?_map_moved, List.map_eq_nil_iff]

/-- Whether tokens are viable does not depend on where they stand. -/
theorem viable_map_erase : Viable (ts.map Token.erase) ↔ Viable ts := by
  rw [Viable, Viable, ← filterMap_error?_map_moved_eq_nil (fun _ => ⟨0, 0⟩) (State.start.read ts),
    ← State.read_moved]
  rfl

/-- The end of the input may be anywhere too. -/
theorem complete_map_erase (last : Token) (eof : last.erase = .endAt 0) :
    Complete (ts.map Token.erase) ↔ (State.run last .start ts).filterMap Event.error? = [] := by
  rw [← filterMap_error?_map_moved_eq_nil fun _ => ⟨0, 0⟩, ← State.run_moved, Complete, ← eof]
  rfl

theorem faults_eq_nil_iff (source : String) :
    (Parse.ofSource source).faults = [] ↔ Complete ((Token.ofSource source).map Token.erase) := by
  rw [complete_map_erase (.ofEnd source) rfl, faults_ofSource]
  rfl

/-! ### Beginnings of accepted texts -/

theorem Accepted.complete (h : Accepted ts) : Complete ts := by
  obtain ⟨source, rfl, -, clean⟩ := h
  exact (faults_eq_nil_iff source).1 (errors_eq_nil_iff.1 clean).2

/-- Which text the tokens are written in makes no difference to their being accepted. -/
theorem accepted_iff (legal : IllegalChar.ofSource source = []) :
    Accepted ((Token.ofSource source).map Token.erase) ↔ (Parse.ofSource source).errors = [] := by
  constructor
  · intro accepted
    exact errors_eq_nil_iff.2 ⟨legal, (faults_eq_nil_iff source).2 accepted.complete⟩
  · intro clean
    exact ⟨source, rfl, legal, clean⟩

theorem accepted_of_complete (spelled : ∀ t ∈ ts, t.Spelled) (h : Complete ts) :
    Accepted (ts.map Token.erase) := by
  obtain ⟨source, same, legal⟩ := Token.exists_source spelled
  have complete : Complete (ts.map Token.erase) := (complete_map_erase (.endAt 0) rfl).2 h
  rw [← same, ← faults_eq_nil_iff] at complete
  rw [← same, accepted_iff legal, errors_eq_nil_iff]
  exact ⟨legal, complete⟩

theorem Complete.viable (h : Complete (ts ++ us)) : Viable ts := by
  rw [Complete, ← filterMap_error?_map_blind, State.map_blind_run_append, List.filterMap_append,
    List.append_eq_nil_iff] at h
  exact h.1

theorem Viable.complete (h : Viable ts) : Complete (ts ++ (State.start.after ts).completion) := by
  have going : State.start.after ts ≠ .skipping := State.after_ne_skipping (by simp) h
  rw [Complete, ← filterMap_error?_map_blind, State.map_blind_run_append, List.filterMap_append,
    filterMap_error?_map_blind, State.run_completion _ going, List.append_nil]
  exact h

/-- Tokens are the beginning of what some text is read from without errors exactly if reading them
meets no fault. -/
theorem exists_accepted_iff (spelled : ∀ t ∈ ts, t.Spelled) :
    (∃ more, Accepted (ts.map Token.erase ++ more)) ↔ Viable ts := by
  constructor
  · rintro ⟨more, accepted⟩
    exact viable_map_erase.1 accepted.complete.viable
  · intro viable
    have finished : ∀ t ∈ ts ++ (State.start.after ts).completion, t.Spelled :=
      List.forall_mem_append.2 ⟨spelled, State.spelled_of_mem_completion _⟩
    have accepted := accepted_of_complete finished viable.complete
    rw [List.map_append] at accepted
    exact ⟨_, accepted⟩

/-! ### The first fault -/

/-- The tokens before the first fault are read without one, and with its token they are not, unless
it is the end of the input. -/
theorem exists_split_of_head {e : ParseError}
    (first : (Parse.ofSource source).faults.head? = some e) :
    ∃ before t behind, Token.stream source = before ++ t :: behind ∧ e.span = t.span ∧
      Viable before ∧ (behind ≠ [] → ¬ Viable (before ++ [t])) := by
  obtain ⟨others, list⟩ := List.head?_eq_some_iff.1 first
  rw [faults_ofSource, List.filterMap_eq_cons_iff] at list
  obtain ⟨evs, event, evs', split, clean, error, -⟩ := list
  cases event with
  | stmt s => cases error
  | fault f found next =>
    cases error
    obtain ⟨before, behind, place, -, ⟨ss, read⟩, met⟩ := State.run_eq_append_fault split
    refine ⟨before, found, behind, place, f.span_error found, ?_, fun some viable => ?_⟩
    · have none : (evs.map Event.blind).filterMap Event.error? = [] := by
        rw [filterMap_error?_map_blind]
        exact List.filterMap_eq_nil_iff.2 clean
      rw [read, List.filterMap_append, List.append_eq_nil_iff] at none
      exact none.1
    · rw [Viable, met some] at viable
      simp [Event.error?] at viable

/-- **Earliest faults.** The first fault of a source text is at one of its tokens or at its end.
The tokens before it are the beginning of a text without errors. At a token, no text without errors
begins with the tokens through that one; at the end, no text without errors has these tokens. -/
theorem first_fault_earliest {e : ParseError}
    (first : (Parse.ofSource source).faults.head? = some e) :
    (∃ t ∈ Token.stream source, e.span = t.span) ∧
    ∀ before t behind, Token.stream source = before ++ t :: behind → e.span = t.span →
      (∃ more, Accepted (before.map Token.erase ++ more)) ∧
      (t.kind ≠ .eof → ∀ more, ¬ Accepted (before.map Token.erase ++ t.erase :: more)) ∧
      (t.kind = .eof → ¬ Accepted ((Token.ofSource source).map Token.erase)) := by
  obtain ⟨before, t, behind, split, place, viable, stuck⟩ := exists_split_of_head first
  refine ⟨⟨t, split ▸ List.mem_append_cons_self, place⟩, ?_⟩
  intro before' t' behind' split' place'
  have start : t.span.start = t'.span.start := by rw [← place, ← place']
  obtain ⟨rfl, rfl, rfl⟩ := Token.stream_split_unique split split' start
  refine ⟨?_, fun token more accepted => ?_, fun _ accepted => ?_⟩
  · exact (exists_accepted_iff fun u hu =>
      Token.spelled_of_mem_ofSource (Token.mem_ofSource_of_split split hu)).2 viable
  · have whole : Accepted ((before ++ [t]).map Token.erase ++ more) := by
      simpa using accepted
    refine stuck (fun none => token ?_) (viable_map_erase.1 whole.complete.viable)
    obtain rfl : Token.ofEnd source = t := Token.eq_ofEnd_of_split (none ▸ split)
    rfl
  · have clean := (faults_eq_nil_iff source).2 accepted.complete
    rw [clean] at first
    cases first

/-- A text with brackets and an operator that wait for an operand when a semicolon comes. -/
def unfinished : String :=
  "let x = -(a + (;b"

/-- The semicolon is too early: the tokens before it can be gone on with, it cannot. -/
theorem first_fault_earliest_unfinished :
    (Parse.ofSource unfinished).faults.head? = some (.noOperand .semicolon ⟨15, 16⟩) ∧
    (∃ t ∈ Token.stream unfinished, (⟨15, 16⟩ : Span) = t.span) ∧
    ∀ before t behind, Token.stream unfinished = before ++ t :: behind →
      (⟨15, 16⟩ : Span) = t.span →
        (∃ more, Accepted (before.map Token.erase ++ more)) ∧
        (t.kind ≠ .eof → ∀ more, ¬ Accepted (before.map Token.erase ++ t.erase :: more)) ∧
        (t.kind = .eof → ¬ Accepted ((Token.ofSource unfinished).map Token.erase)) := by
  have first : (Parse.ofSource unfinished).faults.head? =
      some (.noOperand .semicolon ⟨15, 16⟩) := by
    decide
  exact ⟨first, first_fault_earliest first⟩

end MonkeyFrontEnd.Parse
