import MonkeyFrontEnd.Proofs.Attempt
import MonkeyFrontEnd.Proofs.Notices

/-!
# Source texts without errors

A source text is read without errors exactly if it has no illegal characters and the grammar
derives its tokens, and then its program is the one that the grammar derives. So the grammar is
not ambiguous: what tokens are read as is the only thing that can be derived from them.
-/

set_option autoImplicit false

namespace MonkeyFrontEnd.Parse

open Grammar

variable {last : Token} {ts : List Token} {ss : List Stmt}

/-- The machine reads a program that the grammar derives, statement by statement. -/
theorem run_of_derivesProgram (last : Token) (h : DerivesProgram ts ss) :
    State.run last .start ts = ss.map .stmt := by
  induction h with
  | nil => rfl
  | @cons run rest s ss first apart others ih =>
    obtain ⟨t, us, split, read⟩ := statement_of_derives first apart others.head_ne
    rw [split, run_eq_attempt, attempt, read]
    simp only [ih, List.map_cons]

/-- Attempts that all succeed make a program of the grammar. -/
theorem derivesProgram_of_row {as : List Attempt} (row : Attempt.Row last (Attempt.Fits last) ts as)
    (success : Attempt.errors as = []) : DerivesProgram ts (Attempt.stmts as) := by
  induction row with
  | nil => exact .nil
  | cons fits _ _ ih =>
    cases fits with
    | stmt derived apart => exact .cons derived apart (ih success)
    | fault => cases success

theorem ofSource_of_derivesProgram {source : String} (legal : IllegalChar.ofSource source = [])
    (h : DerivesProgram (Token.ofSource source) ss) : Parse.ofSource source = ⟨⟨ss⟩, []⟩ := by
  have read : events source = ss.map .stmt := run_of_derivesProgram _ h
  have program : (Parse.ofSource source).program = ⟨ss⟩ := by
    rw [ofSource, read, List.filterMap_map]
    simp [Function.comp_def, Event.stmt?]
  have errors : (Parse.ofSource source).errors = [] := by
    rw [errors_eq_nil_iff, faults_ofSource, read, List.filterMap_map]
    exact ⟨legal, by simp [Function.comp_def, Event.error?]⟩
  calc Parse.ofSource source
      = ⟨(Parse.ofSource source).program, (Parse.ofSource source).errors⟩ := rfl
    _ = ⟨⟨ss⟩, []⟩ := by rw [program, errors]

theorem derivesProgram_of_errors_eq_nil {source : String}
    (h : (Parse.ofSource source).errors = []) :
    DerivesProgram (Token.ofSource source) (Parse.ofSource source).program.statements := by
  have success := (errors_eq_nil_iff.1 h).2
  rw [faults_eq_errors] at success
  rw [statements_ofSource]
  exact derivesProgram_of_row (Attempt.row_ofSource source) success

/-- **Completeness.** A text without illegal characters whose tokens the grammar derives is read
without errors, as the very statements that are derived; conversely every text that is read without
errors is of this kind. Its statements are the only ones that the grammar derives from its
tokens. -/
theorem ofSource_eq_iff_derivesProgram (source : String) :
    (∀ ss, Parse.ofSource source = ⟨⟨ss⟩, []⟩ ↔
      IllegalChar.ofSource source = [] ∧ DerivesProgram (Token.ofSource source) ss) ∧
    ((Parse.ofSource source).errors = [] →
      ∃ ss, DerivesProgram (Token.ofSource source) ss ∧
        ∀ ss', DerivesProgram (Token.ofSource source) ss' → ss' = ss) := by
  refine ⟨fun ss => ⟨?_, fun h => ofSource_of_derivesProgram h.1 h.2⟩, ?_⟩
  · intro h
    have clean : (Parse.ofSource source).errors = [] := by rw [h]
    have derived := derivesProgram_of_errors_eq_nil clean
    rw [h] at derived
    exact ⟨(errors_eq_nil_iff.1 clean).1, derived⟩
  · intro clean
    refine ⟨_, derivesProgram_of_errors_eq_nil clean, fun ss' h => ?_⟩
    rw [ofSource_of_derivesProgram (errors_eq_nil_iff.1 clean).1 h]

/-- Neighbours without semicolons, operators that look alike, and brackets that change nothing. -/
theorem derivesProgram_unique_example :
    (Parse.ofSource "let x = a - -b * c (x)\nreturn !x == 1 < 2").errors = [] ∧
      ∃ ss, DerivesProgram (Token.ofSource "let x = a - -b * c (x)\nreturn !x == 1 < 2") ss ∧
        ∀ ss', DerivesProgram (Token.ofSource "let x = a - -b * c (x)\nreturn !x == 1 < 2") ss' →
          ss' = ss := by
  have clean : (Parse.ofSource "let x = a - -b * c (x)\nreturn !x == 1 < 2").errors = [] := by
    decide
  exact ⟨clean, (ofSource_eq_iff_derivesProgram _).2 clean⟩

end MonkeyFrontEnd.Parse
