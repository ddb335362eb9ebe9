import MonkeyFrontEnd.Proofs.Canonical
import MonkeyFrontEnd.Proofs.Erasure

/-!
# What trees are written as

The text of a tree is made of lexemes (`Expr.lexemes`, `Stmt.body`, `Program.lexemesOf`). They can
be read off the text again if the tree is canonical, and the grammar derives from their tokens the
tree itself, each node with the token that it calls for (`restored`).
-/

set_option autoImplicit false

namespace MonkeyFrontEnd

open Grammar
open Lexeme (Legal Legible Separate legible_cons legible_append separate_of_head)

/-! ### Operators and brackets -/

/-- The kind of the tokens that stand for the operator. -/
def UnaryOp.kind : UnaryOp → Token.Kind
  | neg => .minus
  | not => .bang

/-- The kind of the tokens that stand for the operator. -/
def BinaryOp.kind : BinaryOp → Token.Kind
  | add => .plus
  | sub => .minus
  | mul => .asterisk
  | div => .slash
  | lt => .lt
  | gt => .gt
  | eq => .eq
  | ne => .notEq

theorem UnaryOp.ofKind?_eq_some_iff {k : Token.Kind} {op : UnaryOp} :
    ofKind? k = some op ↔ k = op.kind := by
  constructor
  · intro h
    cases k <;> cases h <;> rfl
  · rintro rfl
    cases op <;> rfl

theorem BinaryOp.ofKind?_eq_some_iff {k : Token.Kind} {op : BinaryOp} :
    ofKind? k = some op ↔ k = op.kind := by
  constructor
  · intro h
    cases k <;> cases h <;> rfl
  · rintro rfl
    cases op <;> rfl

theorem UnaryOp.spelling?_kind (op : UnaryOp) : op.kind.spelling? = some op.sign := by
  cases op <;> rfl

theorem BinaryOp.spelling?_kind (op : BinaryOp) : op.kind.spelling? = some op.sign := by
  cases op <;> rfl

/-- The token of a kind that leaves no choice of the text. -/
def Token.ofKind (k : Kind) : Token :=
  .synthetic k k.describe

theorem Token.spelled_ofKind {k : Kind} {s : String} (h : k.spelling? = some s) :
    (ofKind k).Spelled := by
  apply Spelled.fixed
  rw [ofKind, synthetic, Kind.describe_of_spelling? h]
  exact h

/-- The token of a name. -/
def Token.ofName (s : String) : Token :=
  .synthetic .ident s

/-- The token of a number. -/
def Token.ofNumeral (s : String) : Token :=
  .synthetic .int s

theorem Token.spelled_ofName {s : String} (h : IsName s) : (ofName s).Spelled :=
  .name rfl h

theorem Token.spelled_ofNumeral {s : String} (h : IsNumeral s) : (ofNumeral s).Spelled :=
  .numeral rfl h

namespace Lexeme

/-- A single blank. -/
def space : Lexeme :=
  ⟨.blank, [' ']⟩

/-- The lexeme of a kind that leaves no choice of the text. -/
def ofKind (k : Token.Kind) : Lexeme :=
  (Token.ofKind k).lexeme

theorem text_ofKind {k : Token.Kind} {s : String} (h : k.spelling? = some s) :
    (ofKind k).text = s.toList := by
  rw [← Token.Kind.describe_of_spelling? h]
  rfl

theorem token?_ofKind {k : Token.Kind} {s : String} (h : k.spelling? = some s) :
    (ofKind k).token? = some (Token.ofKind k) :=
  (Token.spelled_ofKind h).token?_lexeme

theorem spells_ofKind {k : Token.Kind} {s : String} (h : k.spelling? = some s) :
    (ofKind k).shape.Spells (ofKind k).text :=
  (Token.spelled_ofKind h).spells

theorem separate_space (l : Lexeme) : Separate l space :=
  separate_of_head rfl rfl (by decide)

theorem separate_semicolon (l : Lexeme) : Separate l (ofKind .semicolon) :=
  separate_of_head rfl rfl (by decide)

theorem separate_rparen (l : Lexeme) : Separate l (ofKind .rparen) :=
  separate_of_head rfl rfl (by decide)

/-! ### Rows of lexemes -/

variable {ls ms : List Lexeme}

/-- The lexemes in brackets. -/
def bracketed (ls : List Lexeme) : List Lexeme :=
  ofKind .lparen :: (ls ++ [ofKind .rparen])

/-- Two rows of lexemes, with a blank between them. -/
def spaced (ls ms : List Lexeme) : List Lexeme :=
  ls ++ space :: ms

theorem legible_singleton {l : Lexeme} (h : l.shape.Spells l.text) : Legible [l] :=
  legible_cons.2 ⟨h, by simp, ⟨by simp, .nil⟩⟩

/-- Before a lexeme that extends no other one, a row of lexemes may end in any way. -/
theorem Legible.append_cons {m : Lexeme} (h : Legible ls) (h' : Legible (m :: ms))
    (separate : ∀ l, Separate l m) : Legible (ls ++ m :: ms) := by
  refine legible_append.2 ⟨h, h', ?_⟩
  intro l _ x hx
  cases hx
  exact separate l

theorem Legible.bracketed (h : Legible ls) : Legible (bracketed ls) := by
  have closing : Legible [ofKind .rparen] := legible_singleton (spells_ofKind rfl)
  have inner := h.append_cons closing separate_rparen
  exact legible_cons.2 ⟨spells_ofKind rfl, fun m _ c _ => rfl, inner⟩

theorem Legible.spaced (h : Legible ls) (h' : Legible ms) : Legible (spaced ls ms) := by
  have behind : Legible (space :: ms) :=
    legible_cons.2 ⟨⟨' ', rfl, rfl⟩, fun m _ c _ => rfl, h'⟩
  exact h.append_cons behind separate_space

theorem Legal.bracketed (h : Legal ls) : Legal (bracketed ls) :=
  legal_append.2 ⟨legal_lexeme _, legal_append.2 ⟨h, legal_lexeme _⟩⟩

theorem Legal.spaced (h : Legal ls) (h' : Legal ms) : Legal (spaced ls ms) := by
  have blank : Legal [space] := by
    intro l hl
    cases List.mem_singleton.1 hl
    exact nofun
  exact legal_append.2 ⟨h, legal_append.2 ⟨blank, h'⟩⟩

theorem flatMap_text_bracketed (ls : List Lexeme) :
    (bracketed ls).flatMap text = '(' :: (ls.flatMap text ++ [')']) := by
  rw [bracketed, List.flatMap_cons, List.flatMap_append]
  rfl

theorem flatMap_text_spaced (ls ms : List Lexeme) :
    (spaced ls ms).flatMap text = ls.flatMap text ++ ' ' :: ms.flatMap text := by
  rw [spaced, List.flatMap_append]
  rfl

theorem filterMap_token?_bracketed (ls : List Lexeme) :
    (bracketed ls).filterMap token? =
      Token.ofKind .lparen :: ls.filterMap token? ++ [Token.ofKind .rparen] := by
  rw [bracketed, List.filterMap_cons_some (token?_ofKind rfl), List.filterMap_append]
  rfl

theorem filterMap_token?_spaced (ls ms : List Lexeme) :
    (spaced ls ms).filterMap token? = ls.filterMap token? ++ ms.filterMap token? := by
  rw [spaced, List.filterMap_append]
  rfl

end Lexeme

/-! ### Expressions -/

namespace Expr

open Lexeme (bracketed spaced)

/-- What the expression is written as. -/
def lexemes : Expr → List Lexeme
  | .ident i => [(Token.ofName i.name).lexeme]
  | .int t _ => [(Token.ofNumeral t.literal).lexeme]
  | .unary _ op e => bracketed (.ofKind op.kind :: e.lexemes)
  | .binary _ l op r => bracketed (spaced l.lexemes (spaced [.ofKind op.kind] r.lexemes))

/-- The expression with the tokens that its nodes call for, whatever tokens they hold. The spelling
of a number is the one thing that is kept of a token. -/
def restored : Expr → Expr
  | .ident i => .ident (.ofToken (.ofName i.name))
  | .int t v => .int (.ofNumeral t.literal) v
  | .unary _ op e => .unary (.ofKind op.kind) op e.restored
  | .binary _ l op r => .binary (.ofKind op.kind) l.restored op r.restored

/-- The first token of what the expression is written as. -/
def opening : Expr → Token
  | .ident i => .ofName i.name
  | .int t _ => .ofNumeral t.literal
  | .unary .. | .binary .. => .ofKind .lparen

theorem flatMap_text_lexemes (e : Expr) : e.lexemes.flatMap Lexeme.text = e.text.toList := by
  induction e with
  | ident i => simp [lexemes, text, Token.lexeme, Token.ofName, Token.synthetic]
  | int t v => simp [lexemes, text, Token.lexeme, Token.ofNumeral, Token.synthetic]
  | unary t op e ih =>
    rw [lexemes, Lexeme.flatMap_text_bracketed, List.flatMap_cons, ih,
      Lexeme.text_ofKind op.spelling?_kind]
    simp [text, UnaryOp.around]
  | binary t l op r ihl ihr =>
    rw [lexemes, Lexeme.flatMap_text_bracketed, Lexeme.flatMap_text_spaced,
      Lexeme.flatMap_text_spaced, ihl, ihr, List.flatMap_singleton,
      Lexeme.text_ofKind op.spelling?_kind]
    simp [text, BinaryOp.around]

theorem legal_lexemes (e : Expr) : Legal e.lexemes := by
  induction e with
  | ident i => exact Lexeme.legal_lexeme _
  | int t v => exact Lexeme.legal_lexeme _
  | unary t op e ih => exact (Lexeme.legal_append.2 ⟨Lexeme.legal_lexeme _, ih⟩).bracketed
  | binary t l op r ihl ihr => exact (ihl.spaced ((Lexeme.legal_lexeme _).spaced ihr)).bracketed

/-- No expression begins with an equality sign, which would be read together with an exclamation
mark before it. -/
theorem head_lexemes_ne {e : Expr} (h : e.Canonical) :
    ∀ m ∈ e.lexemes.head?, ∀ c ∈ m.text.head?, c ≠ '=' := by
  rintro m hm c hc rfl
  cases e with
  | ident i =>
    cases hm
    obtain ⟨d, r, spelled, start, -⟩ := h.1
    rw [Token.lexeme, Token.ofName, Token.synthetic, spelled] at hc
    cases hc
    exact absurd start (by decide)
  | int t v =>
    cases hm
    have digit := h.1.2 '=' (List.mem_of_mem_head? hc)
    exact absurd digit (by decide)
  | unary t op e =>
    cases hm
    exact absurd hc (by decide)
  | binary t l op r =>
    cases hm
    exact absurd hc (by decide)

theorem separate_lexemes (op : UnaryOp) {e : Expr} (h : e.Canonical) :
    ∀ m ∈ e.lexemes.head?, Separate (.ofKind op.kind) m := by
  intro m hm c hc
  cases op with
  | neg => rfl
  | not => exact if_neg (head_lexemes_ne h m hm c hc)

theorem legible_lexemes {e : Expr} (h : e.Canonical) : Legible e.lexemes := by
  induction e with
  | ident i => exact Lexeme.legible_singleton (Token.spelled_ofName h).spells
  | int t v => exact Lexeme.legible_singleton (Token.spelled_ofNumeral h.1).spells
  | unary t op e ih =>
    have operand : e.Canonical := h
    have signed : Legible (.ofKind op.kind :: e.lexemes) := legible_cons.2
      ⟨Lexeme.spells_ofKind op.spelling?_kind, separate_lexemes op operand, ih operand⟩
    exact signed.bracketed
  | binary t l op r ihl ihr =>
    have sign := Lexeme.legible_singleton (Lexeme.spells_ofKind op.spelling?_kind)
    exact ((ihl h.1).spaced (sign.spaced (ihr h.2))).bracketed

theorem exists_tokens_eq {e : Expr} (h : e.Canonical) :
    ∃ ts, e.lexemes.filterMap Lexeme.token? = e.opening :: ts := by
  cases e with
  | ident i => exact ⟨[], List.filterMap_cons_some (Token.spelled_ofName h).token?_lexeme⟩
  | int t v => exact ⟨[], List.filterMap_cons_some (Token.spelled_ofNumeral h.1).token?_lexeme⟩
  | unary t op e => exact ⟨_, Lexeme.filterMap_token?_bracketed _⟩
  | binary t l op r => exact ⟨_, Lexeme.filterMap_token?_bracketed _⟩

/-- The grammar derives the expression from what it is written as. -/
theorem derives_restored {e : Expr} (h : e.Canonical) :
    Derives .primary (e.lexemes.filterMap Lexeme.token?) e.restored := by
  induction e with
  | ident i =>
    have read := (Token.spelled_ofName h).token?_lexeme
    rw [lexemes, List.filterMap_cons_some read]
    exact .ident rfl
  | int t v =>
    have read := (Token.spelled_ofNumeral h.1).token?_lexeme
    rw [lexemes, List.filterMap_cons_some read]
    exact .int rfl h.2
  | unary t op e ih =>
    have operand := (ih h).mono (Layer.le_primary .unary)
    have whole : Derives .unary (.ofKind op.kind :: e.lexemes.filterMap Lexeme.token?)
        (.unary (.ofKind op.kind) op e.restored) :=
      .unary (UnaryOp.ofKind?_eq_some_iff.2 rfl) operand
    rw [lexemes, Lexeme.filterMap_token?_bracketed,
      List.filterMap_cons_some (Lexeme.token?_ofKind op.spelling?_kind)]
    exact .group rfl (whole.mono (Layer.equality_le _)) rfl
  | binary t l op r ihl ihr =>
    have left := (ihl h.1).mono (Layer.le_primary op.layer)
    have right := (ihr h.2).mono (Layer.le_primary op.layer.next)
    have whole :=
      Derives.binary (t := .ofKind op.kind) left (BinaryOp.ofKind?_eq_some_iff.2 rfl) right
    rw [lexemes, Lexeme.filterMap_token?_bracketed, Lexeme.filterMap_token?_spaced,
      Lexeme.filterMap_token?_spaced,
      List.filterMap_cons_some (Lexeme.token?_ofKind op.spelling?_kind)]
    exact .group rfl (whole.mono (Layer.equality_le _)) rfl

end Expr

end MonkeyFrontEnd
