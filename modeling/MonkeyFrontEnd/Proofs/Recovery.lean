import MonkeyFrontEnd.Proofs.Attempt
import MonkeyFrontEnd.Proofs.Lexing.Places
import MonkeyFrontEnd.Proofs.Notices

/-!
# Recovery from faults

The attempts at statements divide the tokens of a source text into segments. Each segment gives one
statement or one fault, and a fault costs exactly the tokens up to the next semicolon
(`Segment`). Hence no stretch of tokens between two semicolons is blamed twice, and the faults are
reported in the order of their places.
-/

set_option autoImplicit false

namespace MonkeyFrontEnd.Parse

open Grammar

/-- What an attempt takes, before the tokens `rest`: with a statement at most one semicolon, as the
last token; with a fault everything through the first semicolon. -/
inductive Attempt.Segment (rest : List Token) : Attempt → Prop
  | stmt {taken : List Token} {s : Stmt} (nonempty : taken ≠ []) (clean : Clean taken.dropLast) :
      Segment rest ⟨taken, .stmt s⟩
  | fault {taken : List Token} {f : Fault} {found next : Token} (nonempty : taken ≠ [])
      (through : taken = throughSemicolon (taken ++ rest)) :
      Segment rest ⟨taken, .fault f found next⟩

/-- The stretch of the source in which an error lies: as many semicolons stand before it. -/
def stretch (source : String) (e : ParseError) : Nat :=
  (Token.ofSource source).countP fun t => t.kind = .semicolon ∧ t.span.start < e.span.start

variable {last : Token} {ts rest taken : List Token} {a : Attempt} {as : List Attempt}

/-- A derived statement has no semicolon but the last token. -/
theorem clean_dropLast {run : List Token} {s : Stmt} (h : DerivesStmt run s) :
    Clean run.dropLast := by
  obtain ⟨body, ending, rfl, -, clean, rfl | ⟨t, -, rfl⟩⟩ := h.exists_body
  · rw [List.append_nil]
    exact fun u hu => clean u (List.dropLast_subset _ hu)
  · rw [List.dropLast_concat]
    exact clean

theorem Attempt.Fits.segment (h : a.Fits last rest) : a.Segment rest := by
  have nonempty := h.taken_ne_nil
  cases h with
  | stmt derived apart => exact .stmt nonempty (Parse.clean_dropLast derived)
  | fault _ _ _ through => exact .fault nonempty through

/-! ### Counting -/

theorem length_stmts_add_length_errors (as : List Attempt) :
    (Attempt.stmts as).length + (Attempt.errors as).length = as.length := by
  induction as with
  | nil => rfl
  | cons a as ih =>
    obtain ⟨taken, s | ⟨f, found, next⟩⟩ := a
    · simp only [Attempt.stmts_stmt, Attempt.errors_stmt, List.length_cons]
      omega
    · simp only [Attempt.stmts_fault, Attempt.errors_fault, List.length_cons]
      omega

/-- Every attempt takes a token. -/
theorem Attempt.Row.length_le (row : Row last (Fits last) ts as) : as.length ≤ ts.length := by
  induction row with
  | nil => exact Nat.le_refl _
  | cons fits _ _ ih =>
    have positive := List.length_pos_iff.2 fits.taken_ne_nil
    rw [List.length_cons, List.length_append]
    omega

/-! ### Faults and semicolons -/

/-- The tokens up to the first semicolon end in it, unless there is none. -/
theorem throughSemicolon_cases (ts : List Token) :
    (Clean ts ∧ afterSemicolon ts = []) ∨
      ∃ init t, throughSemicolon ts = init ++ [t] ∧ t.kind = .semicolon := by
  induction ts with
  | nil => exact .inl ⟨fun t ht => absurd ht List.not_mem_nil, rfl⟩
  | cons t ts ih =>
    by_cases ht : t.kind = .semicolon
    · exact .inr ⟨[], t, by simp [throughSemicolon, ht], ht⟩
    · have first : Clean [t] := by simpa [Clean] using ht
      rw [← List.singleton_append, throughSemicolon_append first, afterSemicolon_append first]
      rcases ih with ⟨clean, nothing⟩ | ⟨init, u, through, hu⟩
      · exact .inl ⟨first.append clean, nothing⟩
      · exact .inr ⟨[t] ++ init, u, by rw [through, List.append_assoc], hu⟩

theorem mem_throughSemicolon_cons (t : Token) (ts : List Token) :
    t ∈ throughSemicolon (t :: ts) := by
  by_cases ht : t.kind = .semicolon <;> simp [throughSemicolon, ht]

/-- Where tokens are left behind a fault, it was found at or before a semicolon, which is the last
token that was taken. -/
theorem Attempt.Fits.exists_semicolon {f : Fault} {found next : Token}
    (h : Fits last rest ⟨taken, .fault f found next⟩) (more : rest ≠ []) :
    ∃ init t, taken = init ++ [t] ∧ t.kind = .semicolon ∧ found ∈ taken := by
  cases h with
  | @fault _ read ahead _ nonempty split clean through =>
    have behind : rest = afterSemicolon (taken ++ rest) := by
      have whole := throughSemicolon_append_afterSemicolon (taken ++ rest)
      rw [← through] at whole
      exact (List.append_cancel_left whole).symm
    rcases throughSemicolon_cases (taken ++ rest) with ⟨-, nothing⟩ | ⟨init, t, ends, ht⟩
    · exact absurd (behind.trans nothing) more
    · refine ⟨init, t, through.trans ends, ht, ?_⟩
      cases ahead with
      | nil =>
        -- everything would have been read without meeting a semicolon
        rw [split, List.append_nil, ← List.append_nil read, afterSemicolon_append clean] at behind
        exact absurd behind more
      | cons u ahead =>
        rw [through, split, throughSemicolon_append clean]
        exact List.mem_append_right _ (mem_throughSemicolon_cons u ahead)

/-- An error stands at a token of the row, or at the end of the input. -/
theorem Attempt.Row.exists_place (row : Row last (Fits last) ts as) :
    ∀ e ∈ errors as, ∃ t ∈ ts ++ [last], e.span = t.span := by
  induction row with
  | nil => simp
  | @cons rest a as fits _ _ ih =>
    have later : ∀ e ∈ errors as, ∃ t ∈ a.taken ++ rest ++ [last], e.span = t.span := by
      intro e he
      obtain ⟨t, ht, place⟩ := ih e he
      exact ⟨t, by rw [List.append_assoc]; exact List.mem_append_right _ ht, place⟩
    cases fits with
    | stmt => exact later
    | @fault taken read ahead f _ split =>
      intro e he
      rcases List.mem_cons.1 he with rfl | he
      · refine ⟨ahead.headD last, ?_, f.span_error _⟩
        simp only [split]
        cases ahead <;> simp
      · exact later e he

/-- A semicolon of `ts` stands at or behind the error `x`, and before the error `y`. -/
def Divided (ts : List Token) (x y : ParseError) : Prop :=
  ∃ t ∈ ts, t.kind = .semicolon ∧ x.span.start ≤ t.span.start ∧ t.span.start < y.span.start

/-- Any two faults are divided by a semicolon. -/
theorem Attempt.Row.pairwise_errors (row : Row last (Fits last) ts as)
    (sorted : (ts ++ [last]).Pairwise fun t u => t.span.start < u.span.start) :
    (errors as).Pairwise (Divided ts) := by
  induction row with
  | nil => exact .nil
  | @cons rest a as fits _ others ih =>
    rw [List.append_assoc, List.pairwise_append] at sorted
    obtain ⟨inside, behind, across⟩ := sorted
    have later : (errors as).Pairwise (Divided (a.taken ++ rest)) := by
      refine (ih behind).imp ?_
      rintro x y ⟨t, ht, between⟩
      exact ⟨t, List.mem_append_right _ ht, between⟩
    cases a with
    | mk taken event =>
      cases event with
      | stmt s => exact later
      | fault f found next =>
        rw [errors_fault, List.pairwise_cons]
        refine ⟨fun y hy => ?_, later⟩
        have more : rest ≠ [] := by
          rintro rfl
          have := others.length_le
          rw [List.length_nil, Nat.le_zero, List.length_eq_zero_iff] at this
          subst this
          cases hy
        obtain ⟨init, t, rfl, ht, found_mem⟩ := fits.exists_semicolon more
        obtain ⟨u, hu, place⟩ := others.exists_place y hy
        have last_mem : t ∈ init ++ [t] := List.mem_append_right _ (List.mem_singleton_self t)
        refine ⟨t, List.mem_append_left _ last_mem, ht, ?_, place ▸ across t last_mem u hu⟩
        rw [Fault.span_error]
        rcases List.mem_append.1 found_mem with earlier | same
        · have := (List.pairwise_append.1 inside).2.2 found earlier t (List.mem_singleton_self t)
          omega
        · cases List.mem_singleton.1 same
          exact Nat.le_refl _

theorem stretch_lt {source : String} {x y : ParseError}
    (h : Divided (Token.ofSource source) x y) : stretch source x < stretch source y := by
  obtain ⟨t, ht, semicolon, behind, before⟩ := h
  obtain ⟨init, rest, split⟩ := List.append_of_mem ht
  have more : ∀ u : Token, decide (u.kind = .semicolon ∧ u.span.start < x.span.start) = true →
      decide (u.kind = .semicolon ∧ u.span.start < y.span.start) = true := by
    intro u hu
    simp only [decide_eq_true_eq] at hu ⊢
    exact ⟨hu.1, by omega⟩
  have left := List.countP_mono_left (l := init) fun u _ => more u
  have right := List.countP_mono_left (l := rest) fun u _ => more u
  have old : decide (t.kind = .semicolon ∧ t.span.start < x.span.start) = false :=
    decide_eq_false (by omega)
  have new : decide (t.kind = .semicolon ∧ t.span.start < y.span.start) = true :=
    decide_eq_true ⟨semicolon, before⟩
  unfold stretch
  rw [split, List.countP_append, List.countP_append, List.countP_cons, List.countP_cons, old, new]
  simp only [Bool.false_eq_true, if_false, if_true]
  omega

/-- What increases along a list takes each value at most once. -/
theorem countP_le_one {α : Type} {f : α → Nat} {xs : List α}
    (h : xs.Pairwise fun x y => f x < f y) (k : Nat) : xs.countP (f · = k) ≤ 1 := by
  induction xs with
  | nil => simp
  | cons x xs ih =>
    rw [List.pairwise_cons] at h
    by_cases hk : f x = k
    · have none : xs.countP (f · = k) = 0 := by
        rw [List.countP_eq_zero]
        intro y hy
        have := h.1 y hy
        simp only [decide_eq_true_eq]
        omega
      rw [List.countP_cons, none]
      split <;> omega
    · simpa [List.countP_cons, hk] using ih h.2

/-- **Recovery.** The attempts at statements divide the tokens of a source text into segments, each
with one statement or one fault, and these are the statements and the faults of the program. In no
stretch between semicolons is there more than one fault, and their places increase. -/
theorem segments_ofSource (source : String) :
    Attempt.Row (.ofEnd source) Attempt.Segment (Token.ofSource source)
      (Attempt.ofSource source) ∧
    (Attempt.ofSource source).flatMap Attempt.taken = Token.ofSource source ∧
    (Parse.ofSource source).program.statements = Attempt.stmts (Attempt.ofSource source) ∧
    (Parse.ofSource source).faults = Attempt.errors (Attempt.ofSource source) ∧
    (Parse.ofSource source).program.statements.length + (Parse.ofSource source).faults.length =
      (Attempt.ofSource source).length ∧
    (Attempt.ofSource source).length ≤ (Token.ofSource source).length ∧
    (∀ k, (Parse.ofSource source).faults.countP (stretch source · = k) ≤ 1) ∧
    (Parse.ofSource source).faults.Pairwise fun x y => x.span.start < y.span.start := by
  have row := Attempt.row_ofSource source
  have divided := row.pairwise_errors (Token.pairwise_start source)
  rw [faults_eq_errors, statements_ofSource]
  refine ⟨row.imp fun _ _ => Attempt.Fits.segment, row.flatMap_taken, rfl, rfl,
    length_stmts_add_length_errors _, row.length_le, ?_, ?_⟩
  · exact countP_le_one (divided.imp stretch_lt)
  · refine divided.imp ?_
    rintro x y ⟨t, -, -, behind, before⟩
    exact Nat.lt_of_le_of_lt behind before

end MonkeyFrontEnd.Parse
