import MonkeyFrontEnd.Proofs.Attempt

/-!
# Where the statements of a program come from

Whatever is wrong with a source text, each statement of its program is derived from a run of the
text's own tokens, the runs follow one another, and the nodes of the statement hold the tokens of
the run: all of them, each once and in their order, but for the brackets and signs that leave no
node (`Stmt.ReadFrom`).
-/

set_option autoImplicit false

namespace MonkeyFrontEnd

open Grammar Parse

/-- The tokens of the expression's nodes, from left to right. -/
def Expr.tokens : Expr → List Token
  | .ident i => [i.token]
  | .int t _ => [t]
  | .unary t _ e => t :: e.tokens
  | .binary t l _ r => l.tokens ++ t :: r.tokens

/-- The tokens of the statement's nodes, from left to right. The token of an expression statement
is that of one of the expression's nodes or an opening bracket, and is not counted again. -/
def Stmt.tokens : Stmt → List Token
  | .letStmt t name e => t :: name.token :: e.tokens
  | .returnStmt t e => t :: e.tokens
  | .exprStmt _ e => e.tokens

/-- The kinds of tokens that no node holds: brackets, the sign of a let statement, and the
semicolon. -/
def Token.Kind.isSilent : Token.Kind → Bool
  | .lparen | .rparen | .assign | .semicolon => true
  | _ => false

/-- The name is the text of its token, which is an identifier. -/
def Identifier.Genuine (i : Identifier) : Prop :=
  i.token.kind = .ident ∧ i.name = i.token.literal

/-- Every node is what its token stands for. -/
def Expr.Genuine : Expr → Prop
  | .ident i => i.Genuine
  | .int t value => t.kind = .int ∧ value.toInt = Nat.ofDigitChars 10 t.literal.toList 0
  | .unary t op e => UnaryOp.ofKind? t.kind = some op ∧ e.Genuine
  | .binary t l op r => l.Genuine ∧ BinaryOp.ofKind? t.kind = some op ∧ r.Genuine

/-- Every node is what its token stands for. -/
def Stmt.Genuine : Stmt → Prop
  | .letStmt t name e => t.kind = .kwLet ∧ name.Genuine ∧ e.Genuine
  | .returnStmt t e => t.kind = .kwReturn ∧ e.Genuine
  | .exprStmt _ e => e.Genuine

/-- The statement is what the tokens `run` say, and holds them. -/
structure Stmt.ReadFrom (run : List Token) (s : Stmt) : Prop where
  derived : DerivesStmt run s
  genuine : s.Genuine
  first : run.head? = some s.token
  second : ∀ t name e, s = .letStmt t name e → run[1]? = some name.token
  inOrder : s.tokens = run.filter fun t => !t.kind.isSilent

/-- The statements are read from runs of the tokens, one run behind the other. -/
inductive Grammar.Found : List Token → List Stmt → Prop
  | none (gap : List Token) : Found gap []
  | more (gap : List Token) {run rest : List Token} {s : Stmt} {ss : List Stmt}
      (read : s.ReadFrom run) (others : Found rest ss) : Found (gap ++ run ++ rest) (s :: ss)

namespace Grammar

variable {n : Layer} {ts run : List Token} {e : Expr} {s : Stmt}

theorem Derives.genuine (h : Derives n ts e) : e.Genuine := by
  induction h with
  | binary _ sign _ ihl ihr => exact ⟨ihl, sign, ihr⟩
  | next _ ih => exact ih
  | unary sign _ ih => exact ⟨sign, ih⟩
  | ident kind => exact ⟨kind, rfl⟩
  | int kind decimal => exact ⟨kind, decimal⟩
  | group _ _ _ ih => exact ih

theorem not_isSilent_of_binary {k : Token.Kind} {op : BinaryOp}
    (h : BinaryOp.ofKind? k = some op) : k.isSilent = false := by
  cases k <;> first | rfl | cases h

theorem not_isSilent_of_unary {k : Token.Kind} {op : UnaryOp}
    (h : UnaryOp.ofKind? k = some op) : k.isSilent = false := by
  cases k <;> first | rfl | cases h

/-- The nodes of a derived tree hold the tokens that it is derived from, without the brackets. -/
theorem Derives.tokens_eq (h : Derives n ts e) :
    e.tokens = ts.filter fun t => !t.kind.isSilent := by
  induction h with
  | binary _ sign _ ihl ihr =>
    simp only [Expr.tokens, ihl, ihr, List.filter_append, List.filter_cons,
      not_isSilent_of_binary sign, Bool.not_false, if_true]
  | next _ ih => exact ih
  | unary sign _ ih =>
    simp only [Expr.tokens, ih, List.filter_cons, not_isSilent_of_unary sign, Bool.not_false,
      if_true]
  | ident kind => simp [Expr.tokens, Identifier.ofToken, kind, Token.Kind.isSilent]
  | int kind => simp [Expr.tokens, kind, Token.Kind.isSilent]
  | group opens _ closes ih => simp [ih, opens, closes, Token.Kind.isSilent]

theorem Terminator.filter_eq {ending : List Token} (h : Terminator ending) :
    (ending.filter fun t => !t.kind.isSilent) = [] := by
  rw [List.filter_eq_nil_iff]
  intro t ht
  simp [h.kind_eq ht, Token.Kind.isSilent]

/-- A derived statement holds the tokens that it is derived from. -/
theorem DerivesStmt.readFrom (h : DerivesStmt run s) : s.ReadFrom run := by
  refine ⟨h, ?_, ?_, ?_, ?_⟩
  · cases h with
    | letStmt head named _ value => exact ⟨head, ⟨named, rfl⟩, value.genuine⟩
    | returnStmt head value => exact ⟨head, value.genuine⟩
    | exprStmt expr => exact expr.genuine
  · cases h <;> rfl
  · rintro t name e rfl
    cases h
    rfl
  · cases h with
    | letStmt head named assigned value ended =>
      rw [List.filter_append, ended.filter_eq, List.append_nil]
      simp [Stmt.tokens, value.tokens_eq, head, named, assigned, Token.Kind.isSilent,
        Identifier.ofToken]
    | returnStmt head value ended =>
      rw [List.filter_append, ended.filter_eq, List.append_nil]
      simp [Stmt.tokens, value.tokens_eq, head, Token.Kind.isSilent]
    | exprStmt expr ended =>
      rw [List.filter_append, ended.filter_eq, List.append_nil]
      exact expr.tokens_eq

theorem Found.append {ss : List Stmt} (h : Found ts ss) (gap : List Token) :
    Found (gap ++ ts) ss := by
  cases h with
  | none => exact .none _
  | more gap' read others =>
    rw [← List.append_assoc, ← List.append_assoc]
    exact .more _ read others

end Grammar

namespace Parse

variable {ts : List Token}

/-- The statements of a row of attempts are found in what the attempts have taken: what the failed
ones took is passed over. -/
theorem found_of_row {last : Token} {as : List Attempt}
    (row : Attempt.Row last (Attempt.Fits last) ts as) :
    Found ts (Attempt.stmts as) := by
  induction row with
  | nil => exact .none _
  | cons fits _ _ ih =>
    cases fits with
    | stmt derived => exact .more [] derived.readFrom ih
    | @fault taken => exact ih.append taken

/-- **Soundness.** The statements of a program are read from runs of the tokens of its source. -/
theorem statements_found (source : String) :
    Found (Token.ofSource source) (Parse.ofSource source).program.statements := by
  rw [statements_ofSource]
  exact found_of_row (Attempt.row_ofSource source)

end Parse

end MonkeyFrontEnd
