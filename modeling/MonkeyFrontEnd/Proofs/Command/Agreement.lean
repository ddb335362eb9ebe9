import MonkeyFrontEnd.Proofs.Appearance
import MonkeyFrontEnd.Proofs.Command.Checking
import MonkeyFrontEnd.Proofs.Command.Listing
import MonkeyFrontEnd.Proofs.Notices
import MonkeyFrontEnd.Proofs.Tree.Encoding

/-!
# Commands on one file

Reading a program, checking it and listing its tokens are separate commands, and each counts for
itself. Still they agree on every file (`commands_agree`): the illegal characters that are listed
between the tokens are those among the errors of the program, and a listed statement is one line.
-/

set_option autoImplicit false

namespace MonkeyFrontEnd.Command

/-- How a run of the program ends: its exit status, and the failure that it reports. -/
def Outcome.ending (o : Outcome) : Nat × Option String :=
  (o.exit, o.failure)

/-- The ending of a command that has counted `n` faults of a kind. -/
def endingOf (n : Nat) (kind : String) : Nat × Option String :=
  if n = 0 then (0, none) else (1, some (toString n ++ " " ++ kind))

/-- The closing line of a listing of tokens. -/
def lexSummary (tokens illegal : Nat) : String :=
  toString tokens ++ " tokens, " ++ toString illegal ++ " errors"

/-- The closing line of a listing of statements. -/
def parseSummary (p : Parse) : String :=
  toString p.program.statements.length ++ " statements, " ++ toString p.errors.length ++ " errors"

/-- What the commands say about a file with the text `source`. -/
structure Agreement (s : Surroundings) (file source : String) : Prop where
  parse_ending : ∀ json, ((Command.parse file json).report s).outcome.ending =
    endingOf (Parse.ofSource source).errors.length "parse errors"
  check_ending : ((Command.check [file]).report s).outcome.ending =
    endingOf (Parse.ofSource source).errors.length "errors found"
  lex_ending : ((Command.lex file).report s).outcome.ending =
    endingOf (Parse.ofSource source).illegals.length "lexer errors"
  illegals_le : (Parse.ofSource source).illegals.length ≤ (Parse.ofSource source).errors.length
  /-- The numbers under the list of tokens. -/
  lex_counts : ∃ listed, ((Command.lex file).report s).outcome.stdout =
    Text.unlines (listed ++ ["", lexSummary (Token.stream source).length
      (Parse.ofSource source).illegals.length])
  /-- There is one line for each statement. -/
  parse_counts : ∃ listed,
    listed.length = (Parse.ofSource source).program.statements.length ∧
    (∀ line ∈ listed, '\n' ∉ line.toList) ∧
    ((Command.parse file false).report s).outcome.stdout =
      Text.unlines (["Parsing: " ++ file, "", "AST:"] ++ listed ++
        ["", parseSummary (Parse.ofSource source)])
  /-- There is one item for each statement in what is printed as JSON. -/
  json_counts : ∃ text items,
    items.length = (Parse.ofSource source).program.statements.length ∧
    Json.read? text = some (.ofFields [("statements", .array items)]) ∧
    ((Command.parse file true).report s).outcome.stdout =
      Text.unlines ["Parsing: " ++ file, "", text, "", parseSummary (Parse.ofSource source)]
  check_sound : (Parse.ofSource source).errors = [] →
    ((Command.check [file]).report s).outcome.stdout =
      Text.unlines ["Checking: " ++ file,
        "  ok (" ++ toString (Parse.ofSource source).program.statements.length ++ " statements)",
        "", "Check complete: no issues found"]
  check_faulty : (Parse.ofSource source).errors ≠ [] → ∃ listed,
    ((Command.check [file]).report s).outcome.stdout =
      Text.unlines (listed ++ ["", "Check complete: " ++
        toString (Parse.ofSource source).errors.length ++ " error(s)"])

variable {s : Surroundings} {file source : String}

/-! ### Endings -/

theorem ending_failIfPositive (lines : List String) (n : Nat) (kind : String) :
    (Report.outcome ⟨lines, failIfPositive n kind⟩).ending = endingOf n kind := by
  by_cases h : n = 0
  · subst h
    rfl
  · have positive : 0 < n := Nat.pos_of_ne_zero h
    rw [failIfPositive, if_pos positive, endingOf, if_neg h]
    rfl

theorem failure_checkClosing (n : Nat) :
    (checkClosing n).failure = failIfPositive n "errors found" := by
  have reason : toString n ++ " errors found" = toString n ++ " " ++ "errors found" := by
    rw [String.append_assoc]
    rfl
  rw [checkClosing, failIfPositive, ← reason]
  split <;> rfl

theorem check_of_ok (readable : s.files file = .ok source) :
    (Command.check [file]).report s =
      (checkClosing (Parse.ofSource source).errors.length).after (checkBlock file source) := by
  simp [report, checkReport, checkFrom, readable]

/-! ### What is counted -/

theorem not_mem_statementLabel {st : Stmt} (h : st ∈ (Parse.ofSource source).program.statements) :
    '\n' ∉ (statementLabel st).toList := by
  obtain ⟨run, derived, spelled⟩ := Parse.exists_spelled_run source st h
  cases derived with
  | letStmt => exact (spelled _ List.mem_cons_self).neat.not_mem rfl
  | returnStmt => exact (spelled _ List.mem_cons_self).neat.not_mem rfl
  | exprStmt => exact (by decide : '\n' ∉ "expr".toList)

/-- A statement that was read is listed in one line. -/
theorem not_mem_statementLine {st : Stmt} (h : st ∈ (Parse.ofSource source).program.statements) :
    '\n' ∉ (statementLine st).toList := by
  have label := not_mem_statementLabel h
  have text : '\n' ∉ st.text.toList :=
    (Stmt.neat_text (Parse.canonical_ofSource source st h)).not_mem rfl
  simp [statementLine, Text.alignLeft, Text.spaces, label, text]

/-! ### Agreement -/

/-- **The commands agree.** Every command but the listing of tokens fails exactly if the program of
the file has errors, and reports their number; that one fails exactly if there are illegal
characters among them. The tokens are counted with the one that marks the end of the text. The
number of statements is that of the lines that list them, and that of the items in JSON. -/
theorem commands_agree (readable : s.files file = .ok source) : Agreement s file source where
  parse_ending json := by
    simp only [report, parseReport, readable, parseSource, ending_failIfPositive]
  check_ending := by
    rw [check_of_ok readable, Report.after, failure_checkClosing, ending_failIfPositive]
  lex_ending := by
    simp only [report, lexReport, readable, lexSource_eq, ending_failIfPositive,
      Parse.illegals_ofSource]
  illegals_le := List.length_filterMap_le _ _
  lex_counts := by
    refine ⟨["Tokenizing: " ++ file, ""] ++ (Item.stream source).map itemRow, ?_⟩
    simp only [report, lexReport, readable, lexSource_eq, Report.outcome, Parse.illegals_ofSource,
      lexSummary]
  parse_counts := by
    refine ⟨(Parse.ofSource source).program.statements.map statementLine, List.length_map _, ?_, ?_⟩
    · intro line hline
      obtain ⟨st, hst, rfl⟩ := List.mem_map.1 hline
      exact not_mem_statementLine hst
    · simp only [report, parseReport, readable, parseSource, programLines, Report.outcome,
        parseSummary]
      rfl
  json_counts := by
    refine ⟨_, _, List.length_map _, Json.read?_indented (Program.writable_toJson _), ?_⟩
    simp only [report, parseReport, readable, parseSource, programLines, Report.outcome,
      parseSummary]
    rfl
  check_sound sound := by
    rw [check_of_ok readable, checkBlock, sound]
    rfl
  check_faulty faulty := by
    have positive := List.length_pos_of_ne_nil faulty
    rw [check_of_ok readable, checkClosing, if_pos positive]
    exact ⟨_, rfl⟩

theorem commands_agree_twoFiles :
    twoFiles.files "bad" = .ok "let 5; #" ∧ Agreement twoFiles "bad" "let 5; #" ∧
      (Parse.ofSource "let 5; #").errors.length = 2 ∧
      (Parse.ofSource "let 5; #").illegals.length = 1 ∧
      (Token.stream "let 5; #").length = 4 ∧
      twoFiles.files "good" = .ok "x" ∧ (Parse.ofSource "x").errors = [] ∧
      (Parse.ofSource "x").program.statements.length = 1 ∧
      ((Command.check ["good"]).report twoFiles).outcome.stdout =
        Text.unlines ["Checking: good", "  ok (1 statements)", "",
          "Check complete: no issues found"] := by
  have bad : twoFiles.files "bad" = .ok "let 5; #" := rfl
  have good : twoFiles.files "good" = .ok "x" := rfl
  have sound : (Parse.ofSource "x").errors = [] := by decide
  exact ⟨bad, commands_agree bad, by decide, by decide, by decide, good, sound, by decide,
    (commands_agree good).check_sound sound⟩

end MonkeyFrontEnd.Command
