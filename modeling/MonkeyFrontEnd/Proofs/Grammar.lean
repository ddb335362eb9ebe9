import MonkeyFrontEnd.Tree
import MonkeyFrontEnd.Operator

/-!
# The grammar

What programs look like, said without a word on how they are read. Expressions come in layers,
each of which chains the operators of one strength to the left and takes its operands from the
layer below; `Derives n ts e` says that the layer `n` derives the tokens `ts` with the tree `e`.
A statement is an expression with or without a head, and may end in one semicolon
(`DerivesStmt`). A program is a row of statements, and the only thing that it asks of neighbours
is that a statement without a semicolon is not followed by an operator that could continue it
(`DerivesProgram`).
-/

set_option autoImplicit false

namespace MonkeyFrontEnd

namespace Grammar

/-- The layers of the expression grammar, from the loosest operators to the operands. -/
inductive Layer
  | equality | comparison | sum | product | unary | primary
  deriving DecidableEq

namespace Layer

/-- The layer's place in the order. -/
def rank : Layer → Nat
  | equality => 0
  | comparison => 1
  | sum => 2
  | product => 3
  | unary => 4
  | primary => 5

/-- The layer that the operands of a layer are taken from. -/
def next : Layer → Layer
  | equality => comparison
  | comparison => sum
  | sum => product
  | product => unary
  | unary => primary
  | primary => primary

instance : LE Layer := ⟨fun m n => m.rank ≤ n.rank⟩

instance (m n : Layer) : Decidable (m ≤ n) := inferInstanceAs (Decidable (m.rank ≤ n.rank))

theorem le_iff {m n : Layer} : m ≤ n ↔ m.rank ≤ n.rank := Iff.rfl

theorem le_refl (n : Layer) : n ≤ n := Nat.le_refl _

theorem le_trans {k m n : Layer} (h : k ≤ m) (h' : m ≤ n) : k ≤ n := Nat.le_trans h h'

theorem le_next (n : Layer) : n ≤ n.next := by
  cases n <;> decide

theorem equality_le (n : Layer) : equality ≤ n := by
  cases n <;> decide

theorem le_primary (n : Layer) : n ≤ primary := by
  cases n <;> decide

theorem rank_next {n : Layer} (h : n ≠ primary) : n.next.rank = n.rank + 1 := by
  cases n <;> first | rfl | exact absurd rfl h

theorem rank_injective {m n : Layer} (h : m.rank = n.rank) : m = n := by
  cases m <;> cases n <;> first | rfl | exact absurd h (by decide)

end Layer

end Grammar

/-- The layer whose operator a binary operator is. -/
def BinaryOp.layer : BinaryOp → Grammar.Layer
  | eq | ne => .equality
  | lt | gt => .comparison
  | add | sub => .sum
  | mul | div => .product

namespace Grammar

/-- `Derives n ts e`: the layer `n` derives the tokens `ts`, and their tree is `e`. -/
inductive Derives : Layer → List Token → Expr → Prop
  | binary {op : BinaryOp} {t : Token} {ts us : List Token} {l r : Expr}
      (left : Derives op.layer ts l) (sign : BinaryOp.ofKind? t.kind = some op)
      (right : Derives op.layer.next us r) :
      Derives op.layer (ts ++ t :: us) (.binary t l op r)
  | next {n : Layer} {ts : List Token} {e : Expr} (h : Derives n.next ts e) : Derives n ts e
  | unary {op : UnaryOp} {t : Token} {ts : List Token} {e : Expr}
      (sign : UnaryOp.ofKind? t.kind = some op) (operand : Derives .unary ts e) :
      Derives .unary (t :: ts) (.unary t op e)
  | ident {t : Token} (kind : t.kind = .ident) : Derives .primary [t] (.ident (.ofToken t))
  | int {t : Token} {value : Int64} (kind : t.kind = .int)
      (decimal : value.toInt = Nat.ofDigitChars 10 t.literal.toList 0) :
      Derives .primary [t] (.int t value)
  | group {opening closing : Token} {ts : List Token} {e : Expr} (opens : opening.kind = .lparen)
      (inner : Derives .equality ts e) (closes : closing.kind = .rparen) :
      Derives .primary (opening :: ts ++ [closing]) e

/-- What may stand at the end of a statement: nothing, or one semicolon. -/
def Terminator (ts : List Token) : Prop :=
  ts = [] ∨ ∃ t : Token, t.kind = .semicolon ∧ ts = [t]

/-- `DerivesStmt ts s`: the tokens `ts` are a statement, and its tree is `s`. -/
inductive DerivesStmt : List Token → Stmt → Prop
  | letStmt {t name assign : Token} {ts ending : List Token} {e : Expr}
      (head : t.kind = .kwLet) (named : name.kind = .ident) (assigned : assign.kind = .assign)
      (value : Derives .equality ts e) (ended : Terminator ending) :
      DerivesStmt (t :: name :: assign :: ts ++ ending) (.letStmt t (.ofToken name) e)
  | returnStmt {t : Token} {ts ending : List Token} {e : Expr} (head : t.kind = .kwReturn)
      (value : Derives .equality ts e) (ended : Terminator ending) :
      DerivesStmt (t :: ts ++ ending) (.returnStmt t e)
  | exprStmt {t : Token} {ts ending : List Token} {e : Expr} (expr : Derives .equality (t :: ts) e)
      (ended : Terminator ending) : DerivesStmt (t :: ts ++ ending) (.exprStmt t e)

/-- A statement of the tokens `run` ends before the tokens `rest`: it has its semicolon, or no
operator follows it that could take it as the left operand. -/
def Apart (run rest : List Token) : Prop :=
  (∃ t ∈ run.getLast?, t.kind = .semicolon) ∨ ∀ t ∈ rest.head?, BinaryOp.ofKind? t.kind = none

/-- `DerivesProgram ts ss`: the tokens `ts` are statements in a row, and their trees are `ss`. -/
inductive DerivesProgram : List Token → List Stmt → Prop
  | nil : DerivesProgram [] []
  | cons {run rest : List Token} {s : Stmt} {ss : List Stmt} (first : DerivesStmt run s)
      (apart : Apart run rest) (others : DerivesProgram rest ss) :
      DerivesProgram (run ++ rest) (s :: ss)

/-! ### Laws of derivations -/

/-- What a layer derives, every looser layer derives. -/
theorem Derives.mono {m n : Layer} {ts : List Token} {e : Expr} (h : Derives n ts e)
    (hmn : m ≤ n) : Derives m ts e := by
  obtain ⟨k, hk⟩ := Nat.exists_eq_add_of_le hmn
  induction k generalizing m with
  | zero => exact Layer.rank_injective hk ▸ h
  | succ k ih =>
    have hm : m ≠ .primary := by
      rintro rfl
      have := Layer.le_primary n
      simp only [Layer.le_iff, Layer.rank] at this hk
      omega
    have step := Layer.rank_next hm
    exact .next (ih (Layer.le_iff.2 (by omega)) (by omega))

theorem Derives.ne_nil {n : Layer} {ts : List Token} {e : Expr} (h : Derives n ts e) :
    ts ≠ [] := by
  induction h with
  | next _ ih => exact ih
  | _ => simp

/-- The kinds of the tokens that expressions are made of. -/
def isExprKind : Token.Kind → Bool
  | .ident | .int | .lparen | .rparen => true
  | .plus | .minus | .bang | .asterisk | .slash | .lt | .gt | .eq | .notEq => true
  | _ => false

theorem isExprKind_of_binary {k : Token.Kind} {op : BinaryOp} (h : BinaryOp.ofKind? k = some op) :
    isExprKind k := by
  cases k <;> first | rfl | cases h

theorem isExprKind_of_unary {k : Token.Kind} {op : UnaryOp} (h : UnaryOp.ofKind? k = some op) :
    isExprKind k := by
  cases k <;> first | rfl | cases h

theorem Derives.isExprKind {n : Layer} {ts : List Token} {e : Expr} (h : Derives n ts e) :
    ∀ t ∈ ts, isExprKind t.kind := by
  induction h with
  | binary _ sign _ ihl ihr =>
    intro t ht
    rcases List.mem_append.1 ht with ht | ht
    · exact ihl t ht
    · rcases List.mem_cons.1 ht with rfl | ht
      · exact isExprKind_of_binary sign
      · exact ihr t ht
  | next _ ih => exact ih
  | unary sign _ ih =>
    intro t ht
    rcases List.mem_cons.1 ht with rfl | ht
    · exact isExprKind_of_unary sign
    · exact ih t ht
  | ident kind => simp [kind, Grammar.isExprKind]
  | int kind => simp [kind, Grammar.isExprKind]
  | group opens _ closes ih =>
    intro t ht
    simp only [List.cons_append, List.mem_cons, List.mem_append, List.not_mem_nil, or_false] at ht
    rcases ht with rfl | ht | rfl
    · simp [opens, Grammar.isExprKind]
    · exact ih t ht
    · simp [closes, Grammar.isExprKind]

/-- No token of an expression is of a kind that expressions are not made of. -/
theorem Derives.kind_ne {n : Layer} {ts : List Token} {e : Expr} (h : Derives n ts e)
    {k : Token.Kind} (hk : Grammar.isExprKind k = false) : ∀ t ∈ ts, t.kind ≠ k := by
  rintro t ht rfl
  have := h.isExprKind t ht
  rw [hk] at this
  cases this

theorem Terminator.kind_eq {ts : List Token} (h : Terminator ts) {t : Token} (ht : t ∈ ts) :
    t.kind = .semicolon := by
  rcases h with rfl | ⟨u, hu, rfl⟩
  · simp at ht
  · rw [List.mem_singleton.1 ht, hu]

/-- No semicolon is among the tokens. -/
def Clean (ts : List Token) : Prop :=
  ∀ t ∈ ts, t.kind ≠ .semicolon

theorem Clean.append {ts us : List Token} (h : Clean ts) (h' : Clean us) : Clean (ts ++ us) := by
  intro t ht
  rcases List.mem_append.1 ht with ht | ht
  · exact h t ht
  · exact h' t ht

theorem Derives.clean {n : Layer} {ts : List Token} {e : Expr} (h : Derives n ts e) : Clean ts :=
  h.kind_ne rfl

/-- A statement has no semicolon but the one at its end. -/
theorem DerivesStmt.exists_body {ts : List Token} {s : Stmt} (h : DerivesStmt ts s) :
    ∃ body ending, ts = body ++ ending ∧ body ≠ [] ∧ Clean body ∧ Terminator ending := by
  cases h with
  | @letStmt t name assign ts ending e head named assigned value ended =>
    refine ⟨t :: name :: assign :: ts, ending, rfl, List.cons_ne_nil _ _, ?_, ended⟩
    have clean : Clean [t, name, assign] := by simp [Clean, head, named, assigned]
    exact clean.append value.clean
  | @returnStmt t ts ending e head value ended =>
    refine ⟨t :: ts, ending, rfl, List.cons_ne_nil _ _, ?_, ended⟩
    have clean : Clean [t] := by simp [Clean, head]
    exact clean.append value.clean
  | exprStmt expr ended => exact ⟨_, _, rfl, expr.ne_nil, expr.clean, ended⟩

/-- A statement begins with no semicolon. -/
theorem DerivesStmt.head_ne {ts : List Token} {s : Stmt} (h : DerivesStmt ts s) :
    ∃ t us, ts = t :: us ∧ t.kind ≠ .semicolon := by
  obtain ⟨body, ending, rfl, nonempty, clean, -⟩ := h.exists_body
  obtain ⟨t, us, rfl⟩ := List.exists_cons_of_ne_nil nonempty
  exact ⟨t, us ++ ending, rfl, clean t List.mem_cons_self⟩

theorem DerivesProgram.head_ne {ts : List Token} {ss : List Stmt} (h : DerivesProgram ts ss) :
    ∀ t ∈ ts.head?, t.kind ≠ .semicolon := by
  cases h with
  | nil => simp
  | cons first =>
    obtain ⟨t, us, rfl, ht⟩ := first.head_ne
    simpa using ht

end Grammar

end MonkeyFrontEnd
