import Mathlib.Algebra.GroupWithZero.Nat
import MonkeyFrontEnd.Command.Run

/-!
# Files that are checked together

A check goes through its files in order and keeps nothing of a file but the number of its errors
(`checkFrom_append`). So what is printed of a file depends on that file alone, the closing lines and
the exit status depend on the sum of the errors, and a file that cannot be read decides how the
check ends, whatever stands before or behind it (`check_files_apart`).
-/

set_option autoImplicit false

namespace MonkeyFrontEnd.Command

/-- The number of errors in files, each given with its name and text. -/
def totalErrors (texts : List (String × String)) : Nat :=
  (texts.map fun p => (Parse.ofSource p.2).errors.length).sum

/-- What is printed of a file with the given name and text. -/
def checkText (p : String × String) : String :=
  Text.unlines (checkBlock p.1 p.2)

/-- The closing lines of a check that comes to its end. -/
def closingText (total : Nat) : String :=
  if 0 < total then "\n" ++ "Check complete: " ++ toString total ++ " error(s)" ++ "\n"
  else "\n" ++ "Check complete: no issues found" ++ "\n"

variable {files : Files} {texts texts' : List (String × String)}

theorem unlines_flatMap {α : Type} (f : α → List String) (xs : List α) :
    Text.unlines (xs.flatMap f) = String.join (xs.map fun x => Text.unlines (f x)) := by
  induction xs with
  | nil => rfl
  | cons x xs ih => rw [List.flatMap_cons, Text.unlines_append, ih, List.map_cons, String.join_cons]

theorem totalErrors_perm (h : texts.Perm texts') : totalErrors texts = totalErrors texts' :=
  (h.map _).sum_nat

/-- Files that can be read are checked one by one; those behind them see only how many errors there
were. -/
theorem checkFrom_append (known : ∀ p ∈ texts, files p.1 = .ok p.2) (total : Nat)
    (rest : List String) :
    checkFrom files total (texts.map Prod.fst ++ rest) =
      (checkFrom files (total + totalErrors texts) rest).after
        (texts.flatMap fun p => checkBlock p.1 p.2) := by
  induction texts generalizing total with
  | nil => rfl
  | cons p texts ih =>
    obtain ⟨here, others⟩ := List.forall_mem_cons.1 known
    rw [List.map_cons, List.cons_append, checkFrom, here]
    simp only [ih others, Report.after, totalErrors, List.map_cons, List.sum_cons, Nat.add_assoc,
      List.flatMap_cons, List.append_assoc]

/-- A file that cannot be read ends the check. -/
theorem checkFrom_error {name : String} {e : ReadError} (h : files name = .error e) (total : Nat)
    (rest : List String) :
    checkFrom files total (name :: rest) =
      ⟨[], some (.reported ("Failed to read " ++ name ++ ": " ++ e.message))⟩ := by
  rw [checkFrom, h]

theorem outcome_checkClosing (total : Nat) (texts : List (String × String)) :
    ((checkClosing total).after (texts.flatMap fun p => checkBlock p.1 p.2)).outcome =
      ⟨if 0 < total then 1 else 0, String.join (texts.map checkText) ++ closingText total,
        if 0 < total then some (toString total ++ " errors found") else none⟩ := by
  have blocks : Text.unlines (texts.flatMap fun p => checkBlock p.1 p.2) =
      String.join (texts.map checkText) := unlines_flatMap _ texts
  have closing : Text.unlines (checkClosing total).lines = closingText total := by
    by_cases h : 0 < total
    · simp only [checkClosing, closingText, if_pos h, Text.unlines_cons, Text.unlines_nil,
        String.empty_append, String.append_empty, String.append_assoc]
    · simp only [checkClosing, closingText, if_neg h, Text.unlines_cons, Text.unlines_nil,
        String.empty_append, String.append_empty, String.append_assoc]
  rw [Report.outcome, Report.after, Text.unlines_append, blocks, closing]
  by_cases h : 0 < total
  · simp [checkClosing, h, Failure.exit, Failure.reason?]
  · simp [checkClosing, h]

/-- The outcome of a check of files that can all be read. -/
theorem outcome_check {s : Surroundings} (known : ∀ p ∈ texts, s.files p.1 = .ok p.2)
    (some_file : texts ≠ []) :
    ((Command.check (texts.map Prod.fst)).report s).outcome =
      ⟨if 0 < totalErrors texts then 1 else 0,
        String.join (texts.map checkText) ++ closingText (totalErrors texts),
        if 0 < totalErrors texts then some (toString (totalErrors texts) ++ " errors found")
        else none⟩ := by
  have checked := checkFrom_append known 0 []
  rw [List.append_nil, Nat.zero_add, checkFrom] at checked
  have names : (texts.map Prod.fst).isEmpty = false := by simpa using some_file
  rw [report, checkReport, names, ← outcome_checkClosing, ← checked]
  rfl

/-- **Files are checked apart.** If all files can be read, what is printed is a block for each file,
in order, which depends on the name and the text of that file only, and then the closing lines; the
check fails exactly if there are errors, and the closing lines and the failure tell their number in
all files. So the same files in another order have the same blocks in that order and end the same
way. The first file that cannot be read ends the check at once, whatever files follow: printed are
the blocks of those before it, and the failure is about this file, whatever errors there were. -/
theorem check_files_apart (s : Surroundings) (texts : List (String × String))
    (known : ∀ p ∈ texts, s.files p.1 = .ok p.2) :
    (texts ≠ [] → ∀ texts' : List (String × String), texts'.Perm texts →
      ((Command.check (texts'.map Prod.fst)).report s).outcome =
        ⟨if 0 < totalErrors texts then 1 else 0,
          String.join (texts'.map checkText) ++ closingText (totalErrors texts),
          if 0 < totalErrors texts then some (toString (totalErrors texts) ++ " errors found")
          else none⟩) ∧
    ∀ name e rest, s.files name = .error e →
      ((Command.check (texts.map Prod.fst ++ name :: rest)).report s).outcome =
        ⟨1, String.join (texts.map checkText),
          some ("Failed to read " ++ name ++ ": " ++ e.message)⟩ := by
  constructor
  · intro some_file texts' same
    have known' : ∀ p ∈ texts', s.files p.1 = .ok p.2 := fun p hp => known p (same.subset hp)
    have some_file' : texts' ≠ [] := fun none => some_file (List.nil_perm.1 (none ▸ same))
    rw [outcome_check known' some_file', totalErrors_perm same]
  · intro name e rest unreadable
    have names : (texts.map Prod.fst ++ name :: rest).isEmpty = false := by simp
    rw [report, checkReport, names, if_neg Bool.false_ne_true, checkFrom_append known,
      checkFrom_error unreadable, Report.after, List.append_nil, Report.outcome, unlines_flatMap]
    rfl

/-- Surroundings with one file that is in order and one with two errors. -/
def twoFiles : Surroundings where
  files name :=
    if name = "good" then .ok "x" else if name = "bad" then .ok "let 5; #" else .error .notFound
  input := ""
  environment _ := none

/-- The files, one of them given twice. -/
def namedTwice : List (String × String) :=
  [("bad", "let 5; #"), ("good", "x"), ("bad", "let 5; #")]

theorem check_files_apart_twice :
    (∀ p ∈ namedTwice, twoFiles.files p.1 = .ok p.2) ∧ twoFiles.files "gone" = .error .notFound ∧
      ((Command.check ["bad", "bad", "good"]).report twoFiles).outcome =
        ⟨1, checkText ("bad", "let 5; #") ++ (checkText ("bad", "let 5; #") ++
          checkText ("good", "x")) ++ "\nCheck complete: 4 error(s)\n", some "4 errors found"⟩ ∧
      ((Command.check ["bad", "good", "bad", "gone", "good"]).report twoFiles).outcome =
        ⟨1, String.join (namedTwice.map checkText),
          some "Failed to read gone: No such file or directory (os error 2)"⟩ := by
  have known : ∀ p ∈ namedTwice, twoFiles.files p.1 = .ok p.2 := by
    simp [namedTwice, twoFiles]
  have gone : twoFiles.files "gone" = .error .notFound := rfl
  have total : totalErrors namedTwice = 4 := by decide
  obtain ⟨complete, stopped⟩ := check_files_apart twoFiles namedTwice known
  refine ⟨known, gone, ?_, stopped "gone" .notFound ["good"] gone⟩
  have sorted := complete (by decide)
    [("bad", "let 5; #"), ("bad", "let 5; #"), ("good", "x")] (by decide)
  have four : Nat.repr 4 = "4" := by decide
  simpa [total, closingText, four] using sorted

end MonkeyFrontEnd.Command
