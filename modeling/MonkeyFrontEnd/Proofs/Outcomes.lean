import MonkeyFrontEnd.Proofs.Relocation

/-!
# What is read does not depend on what comes behind

A step is shown the token behind the one that it reads, but only passes it on into its event, where
it says how far the text has been read when a fault is noticed. Without it an event is `blind`. The
state that tokens lead to (`State.after`) and the blind events on the way there (`State.read`) are
those of the tokens alone: with other tokens behind them, they come first, and what the others
bring about follows (`map_blind_run_append`).

`State.step_cases` says once what a step can do; all that is known of the events of a run, whatever
its tokens, follows from it.
-/

set_option autoImplicit false

namespace MonkeyFrontEnd.Parse

/-- The event with nothing read ahead of its token. -/
def Event.blind : Event → Event
  | .stmt s => .stmt s
  | .fault f found _ => .fault f found found

theorem Event.stmt?_blind (e : Event) : e.blind.stmt? = e.stmt? := by
  cases e <;> rfl

theorem Event.error?_blind (e : Event) : e.blind.error? = e.error? := by
  cases e <;> rfl

variable {evs : List Event}

@[simp] theorem filterMap_stmt?_map_blind :
    (evs.map Event.blind).filterMap Event.stmt? = evs.filterMap Event.stmt? := by
  have same : Event.stmt? ∘ Event.blind = Event.stmt? := funext Event.stmt?_blind
  rw [List.filterMap_map, same]

@[simp] theorem filterMap_error?_map_blind :
    (evs.map Event.blind).filterMap Event.error? = evs.filterMap Event.error? := by
  have same : Event.error? ∘ Event.blind = Event.error? := funext Event.error?_blind
  rw [List.filterMap_map, same]

namespace State

/-- The state that reading the tokens leads to. -/
def after : State → List Token → State
  | s, [] => s
  | s, t :: ts => after (s.step t t).1 ts

/-- The events of reading the tokens, each step seeing its own token only. -/
def read : State → List Token → List Event
  | _, [] => []
  | s, t :: ts => (s.step t t).2 ++ read (s.step t t).1 ts

/-! ### One step -/

/-- What a step from the state `s` can do with the token `t`: complete statements, without beginning
to skip, or complete statements and then meet a fault at the token. -/
inductive Yields (s : State) (t next : Token) : State × List Event → Prop
  | statements {s' : State} (ss : List Stmt) (going : s ≠ .skipping → s' ≠ .skipping) :
      Yields s t next (s', ss.map .stmt)
  | fault (s' : State) (ss : List Stmt) (f : Fault) :
      Yields s t next (s', ss.map .stmt ++ [.fault f t next])

variable {s s' : State} {last t next : Token} {ts us : List Token}

theorem Yields.cons {first : Stmt} (h : Yields s t next (s', evs)) :
    Yields s t next (s', .stmt first :: evs) := by
  cases h with
  | statements ss going => exact .statements (first :: ss) going
  | fault _ ss f => exact .fault _ (first :: ss) f

theorem giveUp_yields (s : State) (f : Fault) (t next : Token) :
    Yields s t next (giveUp f t next) :=
  .fault _ [] f

theorem enter_yields (s : State) (t next : Token) : Yields s t next (enter t next) := by
  simp only [enter]
  split
  · exact .statements [] (by simp)
  · exact .statements [] (by simp)
  · cases operandStep [] t with
    | ok r => exact .statements [] (by simp)
    | error f => exact giveUp_yields s f t next

theorem step_yields (s : State) (t next : Token) : Yields s t next (s.step t next) := by
  cases s with
  | start => exact enter_yields _ t next
  | nameDue letToken =>
    simp only [step]
    split
    · exact .statements [] (by simp)
    · exact giveUp_yields _ _ t next
  | assignDue letToken name =>
    simp only [step]
    split
    · exact .statements [] (by simp)
    · exact giveUp_yields _ _ t next
  | skipping => exact .statements [] fun h => absurd rfl h
  | value goal r =>
    cases r with
    | operandDue outer =>
      simp only [step]
      cases operandStep outer t with
      | ok r => exact .statements [] (by simp)
      | error f => exact giveUp_yields _ f t next
    | operandRead e outer =>
      simp only [step]
      cases operatorStep .lowest e outer t with
      | more r => exact .statements [] (by simp)
      | fault f => exact giveUp_yields _ f t next
      | complete e =>
        dsimp only
        split
        · exact .statements [goal.complete e] (by simp)
        · exact (enter_yields _ t next).cons

/-- The state and the events, with nothing read ahead. -/
def blindly (result : State × List Event) : State × List Event :=
  (result.1, result.2.map Event.blind)

theorem enter_blind (t next : Token) : blindly (enter t next) = enter t t := by
  simp only [enter]
  split
  · rfl
  · rfl
  · cases operandStep [] t <;> rfl

/-- The token behind the one that is read leaves no trace but in the event. -/
theorem step_blind (s : State) (t next : Token) : blindly (s.step t next) = s.step t t := by
  cases s with
  | start => exact enter_blind t next
  | nameDue letToken => by_cases named : t.kind = .ident <;> simp only [step, named] <;> rfl
  | assignDue letToken name =>
    by_cases assigned : t.kind = .assign <;> simp only [step, assigned] <;> rfl
  | skipping => rfl
  | value goal r =>
    cases r with
    | operandDue outer =>
      simp only [step]
      cases operandStep outer t <;> rfl
    | operandRead e outer =>
      simp only [step]
      cases operatorStep .lowest e outer t with
      | more r => rfl
      | fault f => rfl
      | complete e =>
        by_cases semicolon : t.kind = .semicolon
        · simp only [semicolon, if_true]
          rfl
        · simp only [semicolon, if_false, ← enter_blind t next]
          rfl

/-! ### Runs -/

/-- What is read of the tokens `ts` does not depend on the tokens `us` behind them. -/
theorem map_blind_run_append (last : Token) (s : State) (ts us : List Token) :
    (run last s (ts ++ us)).map Event.blind =
      s.read ts ++ (run last (s.after ts) us).map Event.blind := by
  induction ts generalizing s with
  | nil => rfl
  | cons t ts ih =>
    have step := s.step_blind t ((ts ++ us).headD last)
    rw [List.cons_append, run_cons, List.map_append, ih, read, after, ← step, ← List.append_assoc]
    rfl

/-- What is read does not depend on what marks the end, but for what the end brings about. -/
theorem map_blind_run (last : Token) (s : State) (ts : List Token) :
    (run last s ts).map Event.blind =
      s.read ts ++ ((s.after ts).finish last).map Event.blind := by
  have whole := map_blind_run_append last s ts []
  rwa [List.append_nil, run_nil] at whole

theorem after_append (s : State) (ts us : List Token) :
    s.after (ts ++ us) = (s.after ts).after us := by
  induction ts generalizing s with
  | nil => rfl
  | cons t ts ih => exact ih _

theorem read_moved {g : Span → Span} (s : State) (ts : List Token) :
    (s.moved g).read (ts.map (Token.moved g)) = (s.read ts).map (Event.moved g) := by
  induction ts generalizing s with
  | nil => rfl
  | cons t ts ih =>
    rw [List.map_cons, read, step_moved, read, List.map_append]
    exact congrArg _ (ih _)

/-- Behind a semicolon a statement begins, whatever stands before it. -/
theorem after_semicolon (s : State) (ts : List Token) (h : t.kind = .semicolon) :
    s.after (ts ++ [t]) = .start := by
  rw [after_append]
  exact step_semicolon _ h

/-- Two runs in a row: a semicolon between them keeps them apart. -/
theorem map_blind_run_semicolon (s : State) (last last' : Token) (ts us : List Token)
    (h : t.kind = .semicolon) :
    (run last s (ts ++ [t] ++ us)).map Event.blind =
      (run last' s (ts ++ [t])).map Event.blind ++ (run last .start us).map Event.blind := by
  have silent : finish last' .start = [] := rfl
  rw [map_blind_run_append, map_blind_run last', s.after_semicolon ts h, silent, List.map_nil,
    List.append_nil]

theorem finish_cases (s : State) (last : Token) :
    (∃ ss : List Stmt, s.finish last = ss.map .stmt) ∨
      ∃ f : Fault, s.finish last = [.fault f last last] := by
  cases s with
  | start => exact .inl ⟨[], rfl⟩
  | nameDue t => exact .inr ⟨_, rfl⟩
  | assignDue t name => exact .inr ⟨_, rfl⟩
  | skipping => exact .inl ⟨[], rfl⟩
  | value goal r =>
    simp only [finish]
    cases r.finish with
    | ok e => exact .inl ⟨[goal.complete e], rfl⟩
    | error f => exact .inr ⟨f, rfl⟩

theorem map_stmt_ne_append_fault {f : Fault} {found next : Token} {evs' : List Event}
    (ss : List Stmt) : ss.map Event.stmt ≠ evs ++ .fault f found next :: evs' := by
  intro h
  have mem : Event.fault f found next ∈ ss.map Event.stmt := h ▸ List.mem_append_cons_self
  obtain ⟨x, -, hx⟩ := List.mem_map.1 mem
  cases hx

/-- A fault is the last event of its step, and the only one. -/
theorem Yields.of_fault {f : Fault} {found next' : Token} {evs' : List Event}
    (h : Yields s t next (s', evs ++ .fault f found next' :: evs')) :
    found = t ∧ next' = next ∧ evs' = [] ∧ ∃ ss : List Stmt, evs = ss.map .stmt := by
  generalize whole : evs ++ .fault f found next' :: evs' = all at h
  cases h with
  | statements ss => exact absurd whole.symm (map_stmt_ne_append_fault ss)
  | fault _ ss f' =>
    rcases List.append_eq_append_iff.1 whole with ⟨more, hss, single⟩ | ⟨more, hevs, single⟩
    · cases more with
      | nil =>
        cases single
        exact ⟨rfl, rfl, rfl, ss, by simpa using hss.symm⟩
      | cons e more =>
        cases single
        exact absurd hss (map_stmt_ne_append_fault ss)
    · cases more with
      | nil =>
        cases single
        exact ⟨rfl, rfl, rfl, ss, by simpa using hevs⟩
      | cons e more => simp at single

/-- An element of two lists in a row is in the second one or in the first one. -/
theorem append_eq_append_cons {α : Type} {xs ys as bs : List α} {x : α}
    (h : xs ++ ys = as ++ x :: bs) :
    (∃ more, as = xs ++ more ∧ ys = more ++ x :: bs) ∨
      ∃ more, xs = as ++ x :: more ∧ bs = more ++ ys := by
  rcases List.append_eq_append_iff.1 h with ⟨more, rfl, rest⟩ | ⟨_ | ⟨y, more⟩, rfl, rest⟩
  · exact .inl ⟨more, rfl, rest⟩
  · exact .inl ⟨[], by simp, rest.symm⟩
  · cases rest
    exact .inr ⟨more, rfl, rfl⟩

/-- Where a run meets a fault: at one of the tokens or at the end of the input, when what stands
before it has been read. The token behind it has been reached by then. -/
theorem run_eq_append_fault {f : Fault} {found next : Token} {evs' : List Event}
    (h : run last s ts = evs ++ .fault f found next :: evs') :
    ∃ before behind, ts ++ [last] = before ++ found :: behind ∧ next = behind.headD found ∧
      (∃ ss : List Stmt, evs.map Event.blind = s.read before ++ ss.map .stmt) ∧
      (behind ≠ [] →
        s.read (before ++ [found]) = evs.map Event.blind ++ [.fault f found found]) := by
  induction ts generalizing s evs with
  | nil =>
    rw [run_nil] at h
    rcases s.finish_cases last with ⟨ss, hss⟩ | ⟨f', hf⟩
    · exact absurd (hss.symm.trans h) (map_stmt_ne_append_fault ss)
    · cases evs with
      | nil =>
        cases hf.symm.trans h
        exact ⟨[], [], rfl, rfl, ⟨[], rfl⟩, fun more => absurd rfl more⟩
      | cons e evs => simp [hf] at h
  | cons t ts ih =>
    have yields := s.step_yields t (ts.headD last)
    have blind := s.step_blind t (ts.headD last)
    rw [run_cons] at h
    generalize s.step t (ts.headD last) = result at h yields blind
    obtain ⟨s', first⟩ := result
    have read : ∀ us, s.read (t :: us) = first.map Event.blind ++ s'.read us := fun us => by
      rw [State.read, ← blind]
      rfl
    rcases append_eq_append_cons h with ⟨evs, rfl, later⟩ | ⟨more, here, -⟩
    -- the fault is met by a later step, or by this one, of which it is the last event
    · obtain ⟨before, behind, split, seen, ⟨ss, prior⟩, met⟩ := ih later
      refine ⟨t :: before, behind, congrArg (t :: ·) split, seen, ⟨ss, ?_⟩, fun some => ?_⟩
      · rw [List.map_append, prior, read, List.append_assoc]
      · rw [List.cons_append, read, met some, List.map_append, List.append_assoc]
    · obtain rfl : first = evs ++ .fault f found next :: more := here
      obtain ⟨rfl, rfl, rfl, ss, rfl⟩ := yields.of_fault
      refine ⟨[], ts ++ [last], rfl, by cases ts <;> rfl, ⟨ss, ?_⟩, fun _ => ?_⟩
      · simp [State.read, Event.blind]
      · rw [List.nil_append, read, List.map_append, State.read, List.append_nil]
        rfl

/-- A fault is at one of the tokens or at the end of the input. -/
theorem place_of_mem_run {f : Fault} {found next : Token}
    (h : Event.fault f found next ∈ run last s ts) :
    ∃ before behind, ts ++ [last] = before ++ found :: behind ∧ next = behind.headD found := by
  obtain ⟨evs, evs', split⟩ := List.append_of_mem h
  obtain ⟨before, behind, place, seen, -⟩ := run_eq_append_fault split
  exact ⟨before, behind, place, seen⟩

end State

end MonkeyFrontEnd.Parse
