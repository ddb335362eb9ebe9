import MonkeyFrontEnd.Proofs.Attempt
import MonkeyFrontEnd.Proofs.Lexing.Spelling

/-!
# Canonical programs

Trees may be put together by hand from any names and numbers. `Program.Canonical` says of which of
them the text can be read again: names have to be words that are not reserved, and the spelling of a
number has to be decimal digits of its value. Every program that was read from a text is canonical.
-/

set_option autoImplicit false

namespace MonkeyFrontEnd

open Grammar Parse

/-- Every name is a word that is not reserved, and every number is spelled in decimal digits. The
value of a number is an `Int64`, so that it is at most `2 ^ 63 - 1`. -/
def Expr.Canonical : Expr → Prop
  | .ident i => IsName i.name
  | .int t v => IsNumeral t.literal ∧ v.toInt = Nat.ofDigitChars 10 t.literal.toList 0
  | .unary _ _ e => e.Canonical
  | .binary _ l _ r => l.Canonical ∧ r.Canonical

/-- The name that the statement binds, if it binds one, and its expression are canonical. -/
def Stmt.Canonical : Stmt → Prop
  | .letStmt _ name e => IsName name.name ∧ e.Canonical
  | .returnStmt _ e => e.Canonical
  | .exprStmt _ e => e.Canonical

/-- Every statement is canonical. -/
def Program.Canonical (p : Program) : Prop :=
  ∀ s ∈ p.statements, s.Canonical

/-! ### Programs that were read -/

variable {n : Layer} {ts run : List Token} {e : Expr} {s : Stmt}

theorem Token.Spelled.isName {t : Token} (h : t.Spelled) (kind : t.kind = .ident) :
    IsName t.literal := by
  cases h with
  | name _ h => exact h
  | numeral other => cases kind.symm.trans other
  | fixed h =>
    rw [kind] at h
    cases h

theorem Token.Spelled.isNumeral {t : Token} (h : t.Spelled) (kind : t.kind = .int) :
    IsNumeral t.literal := by
  cases h with
  | name other => cases kind.symm.trans other
  | numeral _ h => exact h
  | fixed h =>
    rw [kind] at h
    cases h

theorem Grammar.Derives.canonical (h : Derives n ts e) (spelled : ∀ t ∈ ts, t.Spelled) :
    e.Canonical := by
  induction h with
  | binary _ _ _ ihl ihr =>
    rw [List.forall_mem_append, List.forall_mem_cons] at spelled
    exact ⟨ihl spelled.1, ihr spelled.2.2⟩
  | next _ ih => exact ih spelled
  | unary _ _ ih => exact ih (List.forall_mem_cons.1 spelled).2
  | @ident t kind => exact (spelled t List.mem_cons_self).isName kind
  | @int t _ kind decimal => exact ⟨(spelled t List.mem_cons_self).isNumeral kind, decimal⟩
  | group _ _ _ ih =>
    rw [List.forall_mem_append, List.forall_mem_cons] at spelled
    exact ih spelled.1.2

theorem Grammar.DerivesStmt.canonical (h : DerivesStmt run s) (spelled : ∀ t ∈ run, t.Spelled) :
    s.Canonical := by
  cases h with
  | letStmt _ named _ value _ =>
    simp only [List.cons_append, List.forall_mem_cons, List.forall_mem_append] at spelled
    obtain ⟨-, name, -, inner, -⟩ := spelled
    exact ⟨name.isName named, value.canonical inner⟩
  | returnStmt _ value _ =>
    rw [List.forall_mem_append, List.forall_mem_cons] at spelled
    exact value.canonical spelled.1.2
  | exprStmt expr _ =>
    rw [List.forall_mem_append] at spelled
    exact expr.canonical spelled.1

/-- Each statement that was read is derived from a run of tokens that are spelled as their kinds
say. -/
theorem Parse.exists_spelled_run (source : String) :
    ∀ s ∈ (Parse.ofSource source).program.statements,
      ∃ run, DerivesStmt run s ∧ ∀ t ∈ run, t.Spelled := by
  intro s hs
  rw [statements_ofSource] at hs
  obtain ⟨run, derived, sub⟩ := (Attempt.row_ofSource source).exists_run s hs
  exact ⟨run, derived, fun t ht => Token.spelled_of_mem_ofSource (sub ht)⟩

/-- Whatever is wrong with a source text, the program that is read from it is canonical. -/
theorem Parse.canonical_ofSource (source : String) :
    (Parse.ofSource source).program.Canonical := by
  intro s hs
  obtain ⟨run, derived, spelled⟩ := exists_spelled_run source s hs
  exact derived.canonical spelled

end MonkeyFrontEnd
