import Mathlib.Data.List.DropRight
import MonkeyFrontEnd.Command.Session
import MonkeyFrontEnd.Proofs.Appearance
import MonkeyFrontEnd.Proofs.RoundTrip

/-!
# Sessions in two parts

What a session answers to a line depends on whether tokens are echoed, and a line either ends the
session, or turns the echo on or off, or leaves it as it is (`Session.reply_of_goesOn`). So a
session over two lists of lines is the one over the first list and, behind it, one over the second
list, which begins with the echo on if the first list has turned it an odd number of times
(`Session.run_append`). A line counts as its editor hands it over (`LineEditor.entered?`), and all
of this holds whatever the editor does to lines with backspaces. The text with which a program is
answered has none, and is answered with itself (`Session.reply_text`).
-/

set_option autoImplicit false

namespace MonkeyFrontEnd.Command

namespace LineEditor

/-- What is answered when the line is entered: the line as it was edited, without the white space at
its ends. -/
def entered? (editor : LineEditor) (line : String) : Option String :=
  (editor.edit? line).map Text.trim

/-- The line is a request to end the session. -/
def Quits (editor : LineEditor) (line : String) : Prop :=
  editor.entered? line = some ":quit" ∨ editor.entered? line = some ":q"

/-- The line can be edited, and is no request to end the session. -/
def GoesOn (editor : LineEditor) (line : String) : Prop :=
  ∃ text, editor.entered? line = some text ∧ text ≠ ":quit" ∧ text ≠ ":q"

/-- The line turns the echo of tokens on or off. -/
def togglesEcho (editor : LineEditor) (line : String) : Bool :=
  editor.entered? line = some ":tokens"

/-- The echo of tokens has been turned an odd number of times by the lines. -/
def oddToggles (editor : LineEditor) (lines : List String) : Bool :=
  lines.countP editor.togglesEcho % 2 = 1

/-- A line without backspaces is only trimmed. -/
theorem entered?_eq {editor : LineEditor} {line : String} (h : '\x08' ∉ line.toList) :
    editor.entered? line = some (Text.trim line) := by
  rw [entered?, editor.edit?_eq h, Option.map_some]

end LineEditor

namespace Session

open LineEditor

variable {editor : LineEditor} {s : Session} {line text : String} {lines as bs : List String}

/-! ### Single lines -/

theorem reply_of_entered? (h : editor.entered? line = some text) :
    s.reply editor line = s.answer text := by
  obtain ⟨edited, applied, rfl⟩ := Option.map_eq_some_iff.1 h
  rw [reply, applied]

theorem quits_or_broken (h : ¬ editor.GoesOn line) :
    editor.Quits line ∨ editor.entered? line = none := by
  cases entered : editor.entered? line with
  | none => exact .inr rfl
  | some text =>
    refine .inl (Classical.not_not.1 fun stays => h ⟨text, entered, ?_, ?_⟩)
    · rintro rfl
      exact stays (.inl entered)
    · rintro rfl
      exact stays (.inr entered)

theorem reply_of_broken (h : editor.entered? line = none) : s.reply editor line = .brokenOff := by
  rw [reply, Option.map_eq_none_iff.1 h]

theorem reply_of_quits (h : editor.Quits line) : s.reply editor line = .quit := by
  rcases h with h | h <;> rw [reply_of_entered? h] <;> rfl

/-- A line after which the session goes on turns the echo or leaves it as it is. -/
theorem reply_of_goesOn (h : editor.GoesOn line) :
    ∃ out, s.reply editor line = .next ⟨s.echo ^^ editor.togglesEcho line⟩ out := by
  obtain ⟨text, entered, quit, q⟩ := h
  have toggles : editor.togglesEcho line = decide (text = ":tokens") := by
    simp [togglesEcho, entered]
  rw [reply_of_entered? entered, toggles, answer]
  by_cases blank : text = ""
  · subst blank
    exact ⟨[], by simp⟩
  by_cases asked : text = ":help" ∨ text = ":h"
  · rcases asked with rfl | rfl <;> exact ⟨help, by simp⟩
  rw [not_or] at asked
  by_cases tokens : text = ":tokens"
  · subst tokens
    exact ⟨["token echo " ++ if s.echo then "off" else "on"], by simp⟩
  · exact ⟨(if s.echo then [tokensEcho text] else []) ++ programEcho text,
      by simp [blank, quit, q, asked, tokens]⟩

/-! ### Lists of lines -/

theorem oddToggles_cons (line : String) (lines : List String) :
    editor.oddToggles (line :: lines) = (editor.togglesEcho line ^^ editor.oddToggles lines) := by
  rw [oddToggles, oddToggles, List.countP_cons]
  rcases Nat.mod_two_eq_zero_or_one (lines.countP editor.togglesEcho) with even | odd
  · cases editor.togglesEcho line <;> simp [even, Nat.add_mod]
  · cases editor.togglesEcho line <;> simp [odd, Nat.add_mod]

/-- Lines after which the session goes on leave nothing behind but the state of the echo. -/
theorem run_append (h : ∀ line ∈ as, editor.GoesOn line) (bs : List String) :
    s.run editor (as ++ bs) =
        (run editor ⟨s.echo ^^ editor.oddToggles as⟩ bs).after (s.run editor as).lines ∧
      (s.run editor as).failure = none := by
  induction as generalizing s with
  | nil => simp [run, Report.after, oddToggles]
  | cons line as ih =>
    obtain ⟨first, others⟩ := List.forall_mem_cons.1 h
    obtain ⟨out, next⟩ := reply_of_goesOn (s := s) first
    obtain ⟨runs, failure⟩ := ih (s := ⟨s.echo ^^ editor.togglesEcho line⟩) others
    rw [List.cons_append, run, next, run, next]
    simp only [runs, failure, Report.after, oddToggles_cons, Bool.xor_assoc, List.append_assoc,
      and_self]

theorem run_append_congr {cs : List String} (h : ∀ line ∈ as, editor.GoesOn line)
    (same : ∀ s : Session, s.run editor bs = s.run editor cs) :
    s.run editor (as ++ bs) = s.run editor (as ++ cs) := by
  rw [(run_append h bs).1, (run_append h cs).1, same]

/-- Nothing is answered behind a request to end the session. -/
theorem run_append_quits (h : ∀ line ∈ as, editor.GoesOn line) (quits : editor.Quits line)
    (bs : List String) : s.run editor (as ++ line :: bs) = s.run editor as := by
  rw [← List.append_nil as, List.append_assoc, List.nil_append]
  exact run_append_congr h fun s => by simp only [run, reply_of_quits quits]

/-- Nothing is answered behind a line after which the session does not go on. -/
theorem run_append_ending (h : ∀ line ∈ as, editor.GoesOn line) (ending : ¬ editor.GoesOn line)
    (bs : List String) : s.run editor (as ++ line :: bs) = s.run editor (as ++ [line]) := by
  refine run_append_congr h fun s => ?_
  rcases quits_or_broken ending with quits | broken
  · simp only [run, reply_of_quits quits]
  · simp only [run, reply_of_broken broken]

/-- A session whose lines can all be edited comes to its end. -/
theorem failure_run (h : ∀ line ∈ lines, (editor.entered? line).isSome) :
    (s.run editor lines).failure = none := by
  induction lines generalizing s with
  | nil => rfl
  | cons line lines ih =>
    obtain ⟨editable, others⟩ := List.forall_mem_cons.1 h
    by_cases on : editor.GoesOn line
    · obtain ⟨out, next⟩ := reply_of_goesOn (s := s) on
      rw [run, next]
      exact ih others
    · rcases quits_or_broken on with quits | broken
      · rw [run, reply_of_quits quits]
      · rw [broken] at editable
        cases editable

/-! ### Programs as lines -/

theorem isWhiteSpace_of_isBlank {c : Char} (h : isBlank c) : Text.isWhiteSpace c := by
  simp only [isBlank, Bool.or_eq_true, decide_eq_true_eq] at h
  rcases h with (((rfl | rfl) | rfl) | rfl) | rfl <;> decide

theorem isWhiteSpace_getLast_trim (some_char : (Text.trim text).toList ≠ []) :
    Text.isWhiteSpace ((Text.trim text).toList.getLast some_char) = false := by
  have trimmed : (Text.trim text).toList =
      (text.toList.dropWhile Text.isWhiteSpace).rdropWhile Text.isWhiteSpace :=
    String.toList_ofList
  simp only [trimmed] at some_char ⊢
  exact Bool.eq_false_iff.2 (List.rdropWhile_last_not _ _ some_char)

/-- A line that is read without errors is a statement at least, if something is left of it. -/
theorem statements_ne_nil (read : (Parse.ofSource (Text.trim text)).errors = [])
    (nonempty : Text.trim text ≠ "") :
    (Parse.ofSource (Text.trim text)).program.statements ≠ [] := by
  intro none
  have some_char : (Text.trim text).toList ≠ [] :=
    fun none => nonempty (String.toList_eq_nil_iff.1 none)
  have blank := Parse.isBlank_of_statements_eq_nil read none _ (List.getLast_mem some_char)
  have visible := isWhiteSpace_getLast_trim some_char
  rw [isWhiteSpace_of_isBlank blank] at visible
  cases visible

theorem programEcho_text {p : Program} (h : p.Canonical) : programEcho p.text = [p.text] := by
  obtain ⟨ss, read, erased⟩ := Program.exists_read h
  have same : Program.text ⟨ss⟩ = p.text :=
    calc Program.text ⟨ss⟩
        = (Program.erase ⟨ss⟩).text := (Program.text_erase _).symm
      _ = p.restored.text := by rw [Program.erase, erased, Program.restored]
      _ = p.text := Program.text_restored p
  rw [programEcho, read, List.isEmpty_nil, if_pos rfl, same]

/-- The text of a program is answered with itself. -/
theorem reply_text {p : Program} (h : p.Canonical) (some_statement : p.statements ≠ []) :
    initial.reply editor p.text = .next initial [p.text] := by
  have neat := Program.neat_text h some_statement
  have entered : editor.entered? p.text = some p.text := by
    rw [entered?_eq (neat.not_mem rfl), neat.trim_eq]
  have nonempty : p.text ≠ "" := fun empty => neat.ne_nil (by rw [empty]; rfl)
  have no_colon : ':' ∉ p.text.toList := neat.not_mem rfl
  have no_request : ∀ word : String, ':' ∈ word.toList → p.text ≠ word :=
    fun word colon same => no_colon (same ▸ colon)
  rw [reply_of_entered? entered, answer, if_neg nonempty, programEcho_text h]
  simp [no_request ":quit" (by decide), no_request ":q" (by decide), no_request ":help" (by decide),
    no_request ":h" (by decide), no_request ":tokens" (by decide), initial]

/-- Requests are not answered with one line while tokens are not echoed. -/
theorem echo_of_answer (h : initial.answer line = .next initial [text]) :
    line ≠ "" ∧ programEcho line = [text] := by
  rw [answer] at h
  split at h
  · cases h
  split at h
  · cases h
  split at h
  · cases h
  split at h
  · cases h
  rename_i nonempty _ _ _
  exact ⟨nonempty, by simpa [initial] using h⟩

/-- What is echoed without tokens is the text of a program. -/
theorem exists_program_of_reply (h : initial.reply editor line = .next initial [text]) :
    ∃ p : Program, p.Canonical ∧ p.statements ≠ [] ∧ text = p.text := by
  rw [reply] at h
  cases applied : editor.edit? line with
  | none => simp [applied] at h
  | some edited =>
    rw [applied] at h
    obtain ⟨nonempty, echo⟩ := echo_of_answer h
    rw [programEcho] at echo
    split at echo
    · rename_i read
      have same := List.singleton_inj.1 echo
      exact ⟨_, Parse.canonical_ofSource _,
        statements_ne_nil (List.isEmpty_iff.1 read) nonempty, same.symm⟩
    · cases echo

end Session

/-! ### Whole sessions -/

open Session LineEditor

/-- A session over the given lines that begins in the given state; `sessionReport` is the one that
begins without echo. -/
def sessionFrom (editor : LineEditor) (s : Session) (user : String) (lines : List String) :
    Report :=
  (s.run editor lines).after (greeting user)

variable {editor : LineEditor} {as : List String}

theorem stdout_sessionFrom (s : Session) (user : String) (lines : List String) :
    (sessionFrom editor s user lines).outcome.stdout =
      Text.unlines (greeting user) ++ Text.unlines (s.run editor lines).lines :=
  Text.unlines_append _ _

/-- A session over lines after which it goes on, and over further lines. -/
theorem outcome_sessionReport (h : ∀ line ∈ as, editor.GoesOn line) (user : String)
    (bs : List String) :
    (sessionReport editor user (as ++ bs)).outcome =
      { (sessionFrom editor ⟨editor.oddToggles as⟩ user bs).outcome with
        stdout := (sessionReport editor user as).outcome.stdout ++
          Text.unlines (run editor ⟨editor.oddToggles as⟩ bs).lines } := by
  obtain ⟨whole, -⟩ := run_append (s := initial) h bs
  have begun : initial.run editor (as ++ bs) =
      (run editor ⟨editor.oddToggles as⟩ bs).after (initial.run editor as).lines := by
    rw [whole, initial, Bool.false_xor]
  rw [sessionReport, begun]
  simp only [sessionReport, sessionFrom, Report.outcome, Report.after, Text.unlines_append,
    String.append_assoc]

/-- **Sessions in two parts.** Whatever edits the lines: if the session goes on after each line of
`as`, then the one over `as` and `bs` prints what the one over `as` prints and, behind it, what one
over `bs` prints after the greeting, where tokens are echoed from the beginning if `as` has an odd
number of requests for that; it ends as the one over `bs` does, with status 0 if all lines can be
edited. Lines behind one after which the session does not go on have no effect, nor has a request to
end it. What a line without errors is answered with is a line again, and is answered with itself. -/
theorem sessions_compose (editor : LineEditor) :
    (∀ user as bs, (∀ line ∈ as, editor.GoesOn line) →
      ∃ rest,
        (sessionFrom editor ⟨editor.oddToggles as⟩ user bs).outcome.stdout =
          Text.unlines (greeting user) ++ rest ∧
        (sessionReport editor user (as ++ bs)).outcome =
          { (sessionFrom editor ⟨editor.oddToggles as⟩ user bs).outcome with
            stdout := (sessionReport editor user as).outcome.stdout ++ rest } ∧
        ((∀ line ∈ bs, (editor.entered? line).isSome) →
          (sessionReport editor user (as ++ bs)).outcome.exit = 0)) ∧
    (∀ user as line bs, (∀ line ∈ as, editor.GoesOn line) →
      (editor.Quits line →
        sessionReport editor user (as ++ line :: bs) = sessionReport editor user as) ∧
      (¬ editor.GoesOn line →
        sessionReport editor user (as ++ line :: bs) = sessionReport editor user (as ++ [line]))) ∧
    ∀ line text, initial.reply editor line = .next initial [text] →
      '\n' ∉ text.toList ∧ initial.reply editor text = .next initial [text] := by
  refine ⟨fun user as bs h => ?_, fun user as line bs h => ⟨fun quits => ?_, fun ending => ?_⟩,
    fun line text echoed => ?_⟩
  · have whole := outcome_sessionReport h user bs
    refine ⟨_, stdout_sessionFrom _ user bs, whole, fun editable => ?_⟩
    have failure : (run editor ⟨editor.oddToggles as⟩ bs).failure = none := failure_run editable
    rw [whole]
    simp only [sessionFrom, Report.outcome, Report.after, failure]
    rfl
  · rw [sessionReport, run_append_quits h quits, sessionReport]
  · rw [sessionReport, run_append_ending h ending, sessionReport]
  · obtain ⟨p, canonical, some_statement, rfl⟩ := exists_program_of_reply echoed
    have neat := Program.neat_text canonical some_statement
    exact ⟨neat.not_mem rfl, reply_text canonical some_statement⟩

/-- A session in which an incomplete line and a request for tokens stand before a program. -/
theorem sessions_compose_toggled :
    (∀ line ∈ ["let", ":tokens"], GoesOn .backspaces line) ∧
      (∀ line ∈ ["-a"], (entered? .backspaces line).isSome) ∧
      Quits .backspaces " :q" ∧ initial.reply .backspaces "-a" = .next initial ["(-a)"] ∧
      (∃ rest,
        (sessionFrom .backspaces ⟨true⟩ "u" ["-a"]).outcome.stdout =
          Text.unlines (greeting "u") ++ rest ∧
        (sessionReport .backspaces "u" ["let", ":tokens", "-a"]).outcome =
          { (sessionFrom .backspaces ⟨true⟩ "u" ["-a"]).outcome with
            stdout :=
              (sessionReport .backspaces "u" ["let", ":tokens"]).outcome.stdout ++ rest } ∧
        (sessionReport .backspaces "u" ["let", ":tokens", "-a"]).outcome.exit = 0) ∧
      ¬ GoesOn .backspaces " :q" ∧
      sessionReport .backspaces "u" ["let", ":tokens", " :q", "-a"] =
        sessionReport .backspaces "u" ["let", ":tokens"] ∧
      sessionReport .backspaces "u" ["let", ":tokens", " :q", "-a"] =
        sessionReport .backspaces "u" ["let", ":tokens", " :q"] ∧
      initial.reply .backspaces "(-a)" = .next initial ["(-a)"] := by
  have on : ∀ line ∈ ["let", ":tokens"], GoesOn .backspaces line := by
    have first : GoesOn .backspaces "let" := ⟨"let", by decide, by decide, by decide⟩
    have second : GoesOn .backspaces ":tokens" := ⟨":tokens", by decide, by decide, by decide⟩
    simp [first, second]
  have editable : ∀ line ∈ ["-a"], (entered? .backspaces line).isSome := by decide
  have quits : Quits .backspaces " :q" := .inr (by decide)
  have echoed : initial.reply .backspaces "-a" = .next initial ["(-a)"] := by decide
  have ending : ¬ GoesOn .backspaces " :q" := by
    rintro ⟨text, entered, -, q⟩
    exact q (Option.some_inj.1 (entered.symm.trans (by decide)))
  have odd : oddToggles .backspaces ["let", ":tokens"] = true := by decide
  obtain ⟨parts, ended, again⟩ := sessions_compose .backspaces
  obtain ⟨rest, alone, whole, exit⟩ := parts "u" ["let", ":tokens"] ["-a"] on
  rw [odd] at alone whole
  obtain ⟨end_here, nothing_behind⟩ := ended "u" ["let", ":tokens"] " :q" ["-a"] on
  exact ⟨on, editable, quits, echoed, ⟨rest, alone, whole, exit editable⟩,
    ending, end_here quits, nothing_behind ending, (again _ _ echoed).2⟩

/-- It is the edited line that counts: a line which takes back what stood behind `:q` ends the
session. -/
theorem not_sessions_compose_unedited :
    ¬ ∀ user as bs,
      (∀ line ∈ as, Text.trim line ≠ ":quit" ∧ Text.trim line ≠ ":q") →
      (as.countP fun line => Text.trim line = ":tokens") % 2 = 0 →
      ∃ rest,
        (sessionReport .backspaces user bs).outcome.stdout = Text.unlines (greeting user) ++ rest ∧
        (sessionReport .backspaces user (as ++ bs)).outcome.stdout =
          (sessionReport .backspaces user as).outcome.stdout ++ rest ∧
        (sessionReport .backspaces user (as ++ bs)).outcome.exit = 0 := by
  intro composes
  have quits : Quits .backspaces ":qx\x08" := .inr (by decide)
  have ended : ∀ bs, (sessionReport .backspaces "u" (":qx\x08" :: bs)).outcome.stdout =
      Text.unlines (greeting "u") := fun bs => by
    rw [sessionReport, run, reply_of_quits quits]
    rfl
  have answered : (sessionReport .backspaces "u" ["1"]).outcome.stdout =
      Text.unlines (greeting "u") ++ "1\n" := by
    have echo : initial.run .backspaces ["1"] = ⟨["1"], none⟩ := by decide
    rw [sessionReport, echo, Report.outcome, Report.after, Text.unlines_append]
    rfl
  obtain ⟨rest, alone, behind, -⟩ := composes "u" [":qx\x08"] ["1"] (by decide) (by decide)
  rw [answered, String.append_right_inj] at alone
  rw [List.singleton_append, ended, ended, ← alone] at behind
  have nothing : "" = "1\n" := (String.append_right_inj _).1 (String.append_empty.trans behind)
  exact absurd nothing (by decide)

end MonkeyFrontEnd.Command
