import MonkeyFrontEnd.Proofs.Reporting
import MonkeyFrontEnd.Proofs.Walker.Following

/-!
# Walkers read programs

A walker records an illegal character when it passes it, and a fault when it meets it. What has been
recorded is what is listed of the items and faults up to there (`Records`): whatever is met later
has its place behind all that (`Notice.inOrder_append`, `Notice.inOrder_concat`). A walker begins
with the errors that a parser begins with (`errors_ofSource`), and with statements put together it
reads every source text as `Parse.ofSource` does, and records the same errors in the same order
(`statements_ofSource`).
-/

set_option autoImplicit false

namespace MonkeyFrontEnd

/-! ### Notices that come last -/

namespace Parse.Notice

variable {xs ys zs : List Notice} {y : Notice}

/-- A fault that is met behind all the illegal characters is the last error. -/
theorem inOrder_concat (early : ∀ x ∈ xs, x.readTo ≤ y.readTo) (ys : List Notice) :
    inOrder xs (ys ++ [y]) = inOrder xs ys ++ [y] := by
  induction ys generalizing xs with
  | nil =>
    have taken : ∀ x ∈ xs, y.notAfter x := fun x hx => by simpa [notAfter] using early x hx
    rw [List.nil_append, inOrder, inOrder, inOrder, List.takeWhile_eq_self_iff.2 taken,
      List.dropWhile_eq_nil_iff.2 taken]
  | cons z ys ih =>
    rw [List.cons_append, inOrder, inOrder, ih fun x hx => early x (List.dropWhile_subset _ hx),
      List.append_assoc]
    rfl

theorem takeWhile_append_of_late (late : ∀ z ∈ zs, y.readTo < z.readTo) (xs : List Notice) :
    (xs ++ zs).takeWhile y.notAfter = xs.takeWhile y.notAfter := by
  have none : zs.takeWhile y.notAfter = [] := by
    cases zs with
    | nil => rfl
    | cons z zs => simpa [notAfter] using late z List.mem_cons_self
  rw [List.takeWhile_append, none, List.append_nil]
  split
  · rename_i all
    exact ((List.takeWhile_prefix _).eq_of_length all).symm
  · rfl

theorem dropWhile_append_of_late (late : ∀ z ∈ zs, y.readTo < z.readTo) (xs : List Notice) :
    (xs ++ zs).dropWhile y.notAfter = xs.dropWhile y.notAfter ++ zs := by
  have whole : zs.dropWhile y.notAfter = zs := by
    cases zs with
    | nil => rfl
    | cons z zs =>
      have later : ¬ z.readTo ≤ y.readTo := Nat.not_le.2 (late z List.mem_cons_self)
      exact List.dropWhile_cons_of_neg (by simpa [notAfter] using later)
  rw [List.dropWhile_append, whole]
  split
  · rename_i none
    rw [List.isEmpty_iff.1 none, List.nil_append]
  · rfl

/-- Illegal characters that are met behind all the faults are the last errors. -/
theorem inOrder_append (late : ∀ y ∈ ys, ∀ z ∈ zs, y.readTo < z.readTo) (xs : List Notice) :
    inOrder (xs ++ zs) ys = inOrder xs ys ++ zs := by
  induction ys generalizing xs with
  | nil => rfl
  | cons y ys ih =>
    obtain ⟨first, others⟩ := List.forall_mem_cons.1 late
    rw [inOrder, inOrder, takeWhile_append_of_late first, dropWhile_append_of_late first,
      ih others, List.append_assoc]
    rfl

end Parse.Notice

/-! ### Places of items -/

variable {source : String}

namespace Item

theorem start_le_stop_of_mem_stream {i : Item} (h : i ∈ stream source) :
    i.span.start ≤ i.span.stop := by
  rcases List.mem_append.1 h with h | h
  · exact Nat.le_of_lt (span_of_mem_ofSource h).1
  · rw [List.mem_singleton.1 h]
    exact Nat.le_refl _

theorem start_lt_stop_of_illegal {e : IllegalChar} (h : .illegal e ∈ stream source) :
    e.span.start < e.span.stop := by
  rcases List.mem_append.1 h with h | h
  · exact (span_of_mem_ofSource h).1
  · cases List.mem_singleton.1 h

theorem pairwise_stream (source : String) :
    (stream source).Pairwise fun i j => i.span.stop ≤ j.span.start := by
  refine List.pairwise_append.2 ⟨pairwise_ofSource source, List.pairwise_singleton _ _, ?_⟩
  intro i hi j hj
  rw [List.mem_singleton.1 hj]
  exact (span_of_mem_ofSource hi).2

/-- Items without a token are illegal characters. -/
theorem eq_map_illegal {items : List Item} (h : items.filterMap token? = []) :
    items = (items.filterMap illegal?).map .illegal := by
  induction items with
  | nil => rfl
  | cons i items ih =>
    cases i with
    | token t => cases h
    | illegal e => exact congrArg (.illegal e :: ·) (ih h)

/-- Behind the last token of a text there is no illegal character. -/
theorem stream_ends {seen : List Item} {t : Token} {illegal : List IllegalChar}
    (h : stream source = seen ++ .token t :: illegal.map .illegal) :
    illegal = [] ∧ t = .ofEnd source ∧ seen = ofSource source := by
  rcases List.eq_nil_or_concat illegal with rfl | ⟨before, e, rfl⟩
  · obtain ⟨items, last⟩ := List.append_inj' h rfl
    cases last
    exact ⟨rfl, rfl, items.symm⟩
  · have split : stream source = (seen ++ .token t :: before.map .illegal) ++ [.illegal e] := by
      rw [h]
      simp
    cases (List.append_inj' split rfl).2

end Item

/-! ### Illegal characters before a token -/

namespace Parse

/-- The end of the text is no illegal character. -/
theorem illegalBefore_stream (n : Nat) (source : String) :
    illegalBefore n (Item.stream source) = illegalBefore n (Item.ofSource source) := by
  rw [Item.stream]
  generalize Item.ofSource source = items
  induction items generalizing n with
  | nil =>
    cases n with
    | zero => rfl
    | succ n => cases n <;> rfl
  | cons i items ih =>
    cases n with
    | zero => rfl
    | succ n =>
      cases i with
      | token t => exact ih n
      | illegal e => exact congrArg (e :: ·) (ih (n + 1))

theorem illegalBefore_map_illegal_append (n : Nat) (illegal : List IllegalChar)
    (items : List Item) :
    illegalBefore (n + 1) (illegal.map .illegal ++ items) =
      illegal ++ illegalBefore (n + 1) items := by
  induction illegal with
  | nil => rfl
  | cons e illegal ih => exact congrArg (e :: ·) ih

end Parse

/-! ### What a walker has recorded -/

namespace Walker

open Parse (Notice)

variable {w : Walker} {seen : List Item} {notices : List Notice} {ts : List Token}

/-- Before the token ahead the walker has taken the items `seen`, and the errors that it has
recorded are those about them and the given notices. -/
structure Records (source : String) (seen : List Item) (notices : List Notice) (w : Walker) :
    Prop where
  split : Item.stream source = seen ++ .token w.ahead :: w.reader.cursor.ahead
  errors : w.errors =
    (Notice.inOrder ((seen.filterMap Item.illegal?).map .ofIllegal) notices).map Notice.error
  early : ∀ x ∈ notices, x.readTo ≤ w.ahead.span.start

/-- An error that is recorded is noticed at the token ahead. -/
theorem Records.record (h : Records source seen notices w) (e : ParseError) :
    Records source seen (notices ++ [⟨w.ahead.span.start, e⟩]) (w.record e) where
  split := h.split
  errors := by
    have sorted := Item.pairwise_stream source
    rw [h.split, List.pairwise_append] at sorted
    have early : ∀ x ∈ (seen.filterMap Item.illegal?).map Notice.ofIllegal,
        x.readTo ≤ w.ahead.span.start := by
      intro x hx
      obtain ⟨e, he, rfl⟩ := List.mem_map.1 hx
      obtain ⟨i, hi, hie⟩ := List.mem_filterMap.1 he
      cases i <;> cases hie
      exact sorted.2.2 _ hi _ List.mem_cons_self
    rw [Notice.inOrder_concat early, List.map_append, ← h.errors]
    rfl
  early := List.forall_mem_append.2 ⟨h.early, by simp [Walker.record]⟩

/-- Going on, a walker records the illegal characters that it passes. -/
theorem Records.advance (h : Records source seen notices w) (same : w.reader.source = source) :
    ∃ more, Records source more notices w.advance := by
  have takes := w.reader.takeToken_takes
  rw [same] at takes
  obtain ⟨split, errors, early⟩ := h
  have sorted := Item.pairwise_stream source
  have here : .token w.ahead ∈ Item.stream source := by simp [split]
  have length := Item.start_le_stop_of_mem_stream here
  simp only [Walker.advance]
  generalize w.reader.takeToken = taken at takes
  cases takes with
  | token t after illegal ahead _ =>
    rw [ahead] at split
    have behind : ∀ i ∈ illegal.map Item.illegal ++ .token t :: after.cursor.ahead,
        w.ahead.span.start ≤ i.span.start := by
      rw [split, List.pairwise_append, List.pairwise_cons] at sorted
      intro i hi
      exact Nat.le_trans length (sorted.2.1.1 i hi)
    have late : ∀ y ∈ notices, ∀ z ∈ illegal.map Notice.ofIllegal, y.readTo < z.readTo := by
      intro y hy z hz
      obtain ⟨e, he, rfl⟩ := List.mem_map.1 hz
      have mem : Item.illegal e ∈ illegal.map Item.illegal := List.mem_map_of_mem he
      have inside : Item.illegal e ∈ Item.stream source := by
        rw [split]
        exact List.mem_append_right _ (List.mem_cons_of_mem _ (List.mem_append_left _ mem))
      have place : w.ahead.span.start ≤ e.span.start := behind _ (List.mem_append_left _ mem)
      exact Nat.lt_of_le_of_lt (Nat.le_trans (early y hy) place)
        (Item.start_lt_stop_of_illegal inside)
    refine ⟨seen ++ .token w.ahead :: illegal.map .illegal, ?_, ?_, ?_⟩
    · rw [split]
      simp
    · have passed : (seen ++ .token w.ahead :: illegal.map Item.illegal).filterMap Item.illegal? =
          seen.filterMap Item.illegal? ++ illegal := by
        rw [List.filterMap_append, List.filterMap_cons_none rfl,
          Item.filterMap_illegal?_map_illegal]
      rw [passed, List.map_append, Notice.inOrder_append late, List.map_append, ← errors,
        List.map_map]
      rfl
    · intro x hx
      exact Nat.le_trans (early x hx)
        (behind _ (List.mem_append_right _ List.mem_cons_self))
  | ended after illegal ahead none_ahead _ =>
    rw [ahead] at split
    obtain ⟨rfl, last, -⟩ := Item.stream_ends split
    refine ⟨seen, ?_, ?_, ?_⟩
    · rw [none_ahead, ← last]
      exact split
    · rw [List.map_nil, List.append_nil]
      exact errors
    · rw [← last]
      exact early

theorem Records.iterate (h : Records source seen notices w) (stands : Stands source ts w)
    (n : Nat) : ∃ more, Records source more notices (Walker.advance^[n] w) := by
  induction n generalizing seen ts w with
  | zero => exact ⟨seen, h⟩
  | succ n ih =>
    obtain ⟨more, records⟩ := h.advance stands.source_eq
    exact ih records stands.advance

/-- A new walker has recorded the illegal characters before the second token. -/
theorem records_ofSource (source : String) : ∃ seen, Records source seen [] (ofSource source) := by
  have takes := (Reader.ofSource source).takeToken_takes
  rw [Reader.cursor_ofSource] at takes
  have first : ∃ seen, Records source seen [] (fresh source).advance := by
    simp only [Walker.advance, fresh]
    generalize (Reader.ofSource source).takeToken = taken at takes
    cases takes with
    | token t after illegal split _ =>
      refine ⟨illegal.map .illegal, split, ?_, by simp⟩
      rw [Item.filterMap_illegal?_map_illegal, Notice.inOrder, List.map_map, List.nil_append]
      rfl
    | ended after illegal split none_ahead _ =>
      have last : Item.token (.ofEnd source) ∈ illegal.map Item.illegal := by
        rw [← split]
        exact List.mem_append_right _ List.mem_cons_self
      obtain ⟨e, -, other⟩ := List.mem_map.1 last
      cases other
  obtain ⟨seen, records⟩ := first
  exact records.advance (coming_advance_fresh source).1

/-! ### Before any statement -/

/-- Taking a token passes the illegal characters before it. -/
theorem illegalBefore_takeToken (n : Nat) (r : Reader) :
    Parse.illegalBefore (n + 1) r.cursor.ahead =
      r.takeToken.illegal ++ Parse.illegalBefore n r.takeToken.after.cursor.ahead := by
  have takes := r.takeToken_takes
  generalize r.takeToken = taken at takes
  cases takes with
  | token t after illegal split _ =>
    rw [split, Parse.illegalBefore_map_illegal_append]
    rfl
  | ended after illegal split none_ahead _ =>
    have none_behind (n : Nat) : Parse.illegalBefore n [] = [] := by cases n <;> rfl
    rw [split, none_ahead, none_behind, ← List.append_nil (illegal.map _),
      Parse.illegalBefore_map_illegal_append, none_behind]

/-- **Walkers begin as parsers do.** A new walker has recorded what is known of a source text before
any statement is read: its illegal characters before the second token. -/
theorem errors_ofSource (source : String) :
    (ofSource source).errors = (Parser.ofSource source).errors := by
  have start : (Reader.ofSource source).cursor.ahead = Item.stream source :=
    congrArg Cursor.ahead (Reader.cursor_ofSource source)
  have first := illegalBefore_takeToken 1 (.ofSource source)
  have second := illegalBefore_takeToken 0 (Reader.ofSource source).takeToken.after
  have known : Parse.illegalBefore 2 (Item.ofSource source) =
      (Reader.ofSource source).takeToken.illegal ++
        (Reader.ofSource source).takeToken.after.takeToken.illegal := by
    rw [← Parse.illegalBefore_stream, ← start, first, second, Parse.illegalBefore,
      List.append_nil]
  rw [Parser.errors, Parser.ofSource, if_neg Bool.false_ne_true, known, List.map_append]
  rfl

/-! ### Statements -/

/-- What the descent makes of a statement that begins with the tokens `ts`, and what a walker makes
of it that stands there. -/
inductive Moves (ts : List Token) (w : Walker) :
    Except Parse.Descent.Halt (Stmt × List Token) → Outcome Stmt w → Prop
  | read (s : Stmt) (n : Nat) (le : (Walker.advance^[n] w).bound ≤ w.bound) :
      Moves ts w (.ok (s, ts.drop n)) (.read s (Walker.advance^[n] w) le)
  | failed (e : ParseError) (n : Nat) (le : ((Walker.advance^[n] w).record e).bound ≤ w.bound) :
      Moves ts w
        (.error (.failed ⟨(Walker.advance^[n] w).ahead.span.start, e⟩ (ts.drop n)))
        (.failed ((Walker.advance^[n] w).record e) le)

theorem takeSemicolon_cases (stands : Stands source ts w) :
    ∃ n, Parse.Descent.takeSemicolon ts = ts.drop n ∧ w.takeSemicolon = Walker.advance^[n] w := by
  have ahead := stands.ahead
  have stays (other : w.ahead.kind ≠ .semicolon) : w.takeSemicolon = w := if_neg other
  cases ts with
  | nil => exact ⟨0, rfl, stays (by rw [ahead]; nofun)⟩
  | cons c ts =>
    cases ts with
    | nil => exact ⟨0, rfl, stays (by rw [ahead]; nofun)⟩
    | cons t ts =>
      obtain rfl : w.ahead = t := ahead
      by_cases semicolon : w.ahead.kind = .semicolon
      · exact ⟨1, if_pos semicolon, if_pos semicolon⟩
      · exact ⟨0, if_neg semicolon, stays semicolon⟩

/-- Every statement is read with its semicolon. -/
theorem body_moves (goal : Parse.Goal) (stands : Stands source ts w) :
    Moves ts w
      (Parse.Descent.body (.ofEnd source) (Parse.Descent.draftOf goal) (Parse.Descent.slotOf goal)
        ts)
      (body (Parse.Descent.draftOf goal) (Parse.Descent.slotOf goal) w) := by
  have walks := follows source ts .lowest w stands
  rw [Parse.Descent.body, body]
  generalize Parse.Descent.expression (.ofEnd source) .lowest ts = taken at walks
  generalize w.expression .lowest = outcome at walks
  cases walks with
  | read x n le passes left at_ clean =>
    have stands' : Stands source x.left (Walker.advance^[n] w) := left ▸ stands.iterate n
    obtain ⟨m, tokens, walker⟩ := takeSemicolon_cases stands'
    rw [left, List.drop_drop, ← left] at tokens
    rw [iterate_iterate] at walker
    have less : (Walker.advance^[n] w).takeSemicolon.bound ≤ w.bound :=
      Nat.le_trans (bound_takeSemicolon_le _) le
    have result : Moves ts w (.ok (goal.complete x.value, Parse.Descent.takeSemicolon x.left))
        (.read (goal.complete x.value) (Walker.advance^[n] w).takeSemicolon less) := by
      rw [tokens]
      simp only [walker]
      exact .read _ _ _
    cases goal <;> exact result
  | failed e n le passes located => exact .failed e n le

/-- What is made of a statement further on is made of it from before. -/
theorem Moves.later {left : Except Parse.Descent.Halt (Stmt × List Token)} {us : List Token}
    {m : Nat} {right : Outcome Stmt (Walker.advance^[m] w)}
    (h : Moves us (Walker.advance^[m] w) left right) (place : us = ts.drop m)
    (le : (Walker.advance^[m] w).bound ≤ w.bound) : Moves ts w left (right.within le) := by
  subst place
  have state (n : Nat) := iterate_iterate m n w
  cases h with
  | read s n less =>
    have result : Moves ts w (.ok (s, ts.drop (m + n))) (.read s (Walker.advance^[m + n] w) _) :=
      .read s (m + n) (state n ▸ Nat.le_trans less le)
    simp only [Outcome.within, state, List.drop_drop]
    exact result
  | failed e n less =>
    have result : Moves ts w _ (.failed ((Walker.advance^[m + n] w).record e) _) :=
      .failed e (m + n) (state n ▸ Nat.le_trans less le)
    simp only [Outcome.within, state, List.drop_drop]
    exact result

/-- A failure at the place to which the walker has gone on. -/
theorem Moves.stuck {m : Nat} (stands : Stands source ts w)
    (less : (Walker.advance^[m] w).bound ≤ w.bound) (e : ParseError) :
    Moves ts w (Parse.Descent.fail (.ofEnd source) e (ts.drop m))
      (((Walker.advance^[m] w).fail e).within less) := by
  rw [Parse.Descent.fail, Parse.Descent.peek, ← (stands.iterate m).ahead]
  exact .failed e m _

theorem letStatement_moves {t : Token} (stands : Stands source (t :: ts) w)
    (kind : t.kind = .kwLet) :
    Moves (t :: ts) w (Parse.Descent.statement (.ofEnd source) t ts) w.statement := by
  have current : w.current = t := stands.current
  rw [Parse.Descent.statement, statement, current]
  simp only [kind]
  rcases expect_cases stands (by decide : Token.Kind.ident ≠ .eof) with
    ⟨name, us, le, rfl, -, taken, moved⟩ | ⟨-, missing, stopped⟩
  · rw [taken, moved]
    have stands' : Stands source (name :: us) w.advance := stands.advance
    dsimp only [Outcome.andThen, bind, Except.bind]
    rcases expect_cases stands' (by decide : Token.Kind.assign ≠ .eof) with
      ⟨assign, vs, le', rfl, -, taken', moved'⟩ | ⟨-, missing, stopped⟩
    · have inner := body_moves (.letStmt t (.ofToken name)) stands'.advance.advance
      have place : (assign :: vs).tail = (t :: name :: assign :: vs).drop 3 := rfl
      rw [taken', moved']
      dsimp only [Outcome.andThen]
      rw [Outcome.within_within, Outcome.within_within]
      exact inner.later (m := 3) place _
    · rw [missing, stopped]
      exact .stuck (m := 1) stands _ _
  · rw [missing, stopped]
    exact .stuck (m := 0) stands (Nat.le_refl _) _

theorem statement_moves {t : Token} (stands : Stands source (t :: ts) w) :
    Moves (t :: ts) w (Parse.Descent.statement (.ofEnd source) t ts) w.statement := by
  by_cases hl : t.kind = .kwLet
  · exact letStatement_moves stands hl
  · have current : w.current = t := stands.current
    by_cases hr : t.kind = .kwReturn
    · have inner := body_moves (.returnStmt t) stands.advance
      rw [Parse.Descent.statement, statement, current]
      simp only [hr]
      exact inner.later (m := 1) rfl _
    · have inner := body_moves (.exprStmt t) stands
      rw [Parse.Descent.statement_of_expr _ hl hr, statement, current]
      split
      · exact absurd ‹_› hl
      · exact absurd ‹_› hr
      · exact inner

/-! ### Programs -/

/-- What is left of a statement is skipped, with the semicolon. -/
theorem synchronize_stands (stands : Stands source ts w) :
    ∃ n, w.synchronize.advance = Walker.advance^[n] w ∧
      Parse.afterSemicolon ts = ts.drop n := by
  induction ts generalizing w with
  | nil =>
    have ended : w.current.kind = .eof := stands.current_eof_iff.2 rfl
    rw [synchronize, dif_neg fun inside => inside.2 ended]
    exact ⟨1, rfl, rfl⟩
  | cons t ts ih =>
    have current : w.current = t := stands.current
    have genuine : t.kind ≠ .eof := stands.genuine t List.mem_cons_self
    rw [synchronize, current]
    by_cases semicolon : t.kind = .semicolon
    · rw [dif_neg fun inside => inside.1 semicolon]
      exact ⟨1, rfl, by simp [Parse.afterSemicolon, semicolon]⟩
    · rw [dif_pos ⟨semicolon, genuine⟩]
      obtain ⟨n, moved, skipped⟩ := ih stands.advance
      exact ⟨n + 1, moved, (Parse.Descent.afterSemicolon_cons semicolon).trans skipped⟩

/-- A walker reads the rest of a program as the descent does, and records the errors of it. -/
theorem statements_records (stands : Stands source ts w) (records : Records source seen notices w) :
    ∃ ss more after le seen', Parse.Descent.program (.ofEnd source) ts = .ok (ss, more) ∧
      w.statements = .read ss after le ∧ Stands source [] after ∧
      Records source seen' (notices ++ more) after := by
  induction size : ts.length using Nat.strongRecOn generalizing ts w seen notices with
  | ind k ih =>
    subst size
    cases ts with
    | nil =>
      have ended : w.current.kind = .eof := stands.current_eof_iff.2 rfl
      rw [Parse.Descent.program, statements, dif_pos ended]
      exact ⟨[], [], w, Nat.le_refl _, seen, rfl, rfl, stands, by simpa using records⟩
    | cons t ts =>
      have genuine : w.current.kind ≠ .eof := by simp [stands.current_eof_iff]
      have moves := statement_moves stands
      rw [statements, dif_neg genuine]
      generalize read : Parse.Descent.statement (.ofEnd source) t ts = taken at moves
      generalize w.statement = outcome at moves
      cases moves with
      | read s n le =>
        have here := stands.iterate n
        obtain ⟨_, recorded⟩ := records.iterate stands n
        obtain ⟨_, recorded⟩ := recorded.advance here.source_eq
        obtain ⟨ss, more, after, le', last, others, walked, ended, recorded⟩ :=
          ih _ (Parse.Descent.length_of_ok read) here.advance recorded rfl
        have less := Nat.le_trans le' (Nat.le_trans (bound_advance_le _) le)
        rw [Parse.Descent.program_of_ok read, others]
        simp only [walked]
        exact ⟨s :: ss, more, after, less, last, rfl, rfl, ended, recorded⟩
      | failed e n le =>
        have here := (stands.iterate n).record e
        obtain ⟨m, moved, skipped⟩ := synchronize_stands here
        obtain ⟨_, recorded⟩ := records.iterate stands n
        obtain ⟨_, recorded⟩ := (recorded.record e).iterate here m
        have behind := here.iterate m
        rw [← moved] at behind recorded
        rw [← skipped] at behind
        obtain ⟨ss, more, after, le', last, others, walked, ended, recorded⟩ :=
          ih _ (Parse.Descent.length_of_failed read) behind recorded rfl
        have less := Nat.le_trans le' (Nat.le_trans (bound_advance_le _)
          (Nat.le_trans (bound_synchronize_le _) le))
        rw [Parse.Descent.program_of_failed read, others]
        simp only [walked]
        rw [List.append_assoc] at recorded
        exact ⟨ss, _ :: more, after, less, last, rfl, rfl, ended, recorded⟩

/-- At the end all items have been taken. -/
theorem Records.errors_of_ended (h : Records source seen notices w) (ended : Stands source [] w) :
    w.errors =
      (Notice.inOrder ((IllegalChar.ofSource source).map .ofIllegal) notices).map Notice.error := by
  have none_ahead : w.reader.cursor.ahead.filterMap Item.token? = [] :=
    (List.cons.inj ended.coming).2
  have split := h.split
  rw [Item.eq_map_illegal none_ahead] at split
  obtain ⟨-, -, all⟩ := Item.stream_ends split
  rw [h.errors, all]
  rfl

/-- **Walkers read as the machine does.** A walker reads every source text to its end, without
misusing a draft, as the program of its parse; and it records the errors of the parse, in their
order. -/
theorem statements_ofSource (source : String) :
    ∃ after le, (ofSource source).statements =
        .read (Parse.ofSource source).program.statements after le ∧
      after.errors = (Parse.ofSource source).errors := by
  obtain ⟨_, records⟩ := records_ofSource source
  obtain ⟨ss, notices, after, le, _, program, walked, ended, recorded⟩ :=
    statements_records (stands_ofSource source) records
  rw [Parse.Descent.program_eq] at program
  cases program
  exact ⟨after, le, walked, recorded.errors_of_ended ended⟩

end Walker

end MonkeyFrontEnd
