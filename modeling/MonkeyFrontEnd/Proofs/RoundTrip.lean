import MonkeyFrontEnd.Proofs.ErrorFree
import MonkeyFrontEnd.Proofs.Printing

/-!
# Reading what was written

The text of a canonical program, hand-made or read, is read without errors as that program
(`canonical_roundTrip`). Semicolons keep the statements apart: every statement but the last ends in
one, so that nothing behind it can be taken for its continuation.
-/

set_option autoImplicit false

namespace MonkeyFrontEnd

open Grammar
open Lexeme (Shape Legal Legible spaced legible_cons legal_append)

/-! ### Statements -/

namespace Stmt

/-- What the statement is written as, without its semicolon. -/
def body : Stmt → List Lexeme
  | .letStmt _ name e =>
    spaced [.ofKind .kwLet]
      (spaced [(Token.ofName name.name).lexeme] (spaced [.ofKind .assign] e.lexemes))
  | .returnStmt _ e => spaced [.ofKind .kwReturn] e.lexemes
  | .exprStmt _ e => e.lexemes

/-- The statement with the tokens that it and its nodes call for, whatever tokens they hold. -/
def restored : Stmt → Stmt
  | .letStmt _ name e => .letStmt (.ofKind .kwLet) (.ofToken (.ofName name.name)) e.restored
  | .returnStmt _ e => .returnStmt (.ofKind .kwReturn) e.restored
  | .exprStmt _ e => .exprStmt e.opening e.restored

theorem toList_text (s : Stmt) :
    s.text.toList = s.body.flatMap Lexeme.text ++ if s.isExpr then [] else [';'] := by
  cases s with
  | letStmt t name e =>
    have read := e.flatMap_text_lexemes
    simp [text, letText, body, isExpr, Lexeme.flatMap_text_spaced, read, Lexeme.ofKind,
      Token.lexeme, Token.ofKind, Token.ofName, Token.synthetic, Token.Kind.describe,
      Token.Kind.spelling?]
  | returnStmt t e =>
    have read := e.flatMap_text_lexemes
    simp [text, returnText, body, isExpr, Lexeme.flatMap_text_spaced, read, Lexeme.ofKind,
      Token.lexeme, Token.ofKind, Token.synthetic, Token.Kind.describe, Token.Kind.spelling?]
  | exprStmt t e => simp [text, body, isExpr, e.flatMap_text_lexemes]

theorem legal_body (s : Stmt) : Legal s.body := by
  cases s with
  | letStmt t name e =>
    have value := (Lexeme.legal_lexeme (.ofKind .assign)).spaced e.legal_lexemes
    exact (Lexeme.legal_lexeme _).spaced ((Lexeme.legal_lexeme _).spaced value)
  | returnStmt t e => exact (Lexeme.legal_lexeme _).spaced e.legal_lexemes
  | exprStmt t e => exact e.legal_lexemes

theorem legible_body {s : Stmt} (h : s.Canonical) : Legible s.body := by
  cases s with
  | letStmt t name e =>
    have head : Legible [.ofKind .kwLet] := Lexeme.legible_singleton (Lexeme.spells_ofKind rfl)
    have named := Lexeme.legible_singleton (Token.spelled_ofName h.1).spells
    have sign : Legible [.ofKind .assign] := Lexeme.legible_singleton (Lexeme.spells_ofKind rfl)
    exact head.spaced (named.spaced (sign.spaced (Expr.legible_lexemes h.2)))
  | returnStmt t e =>
    have head : Legible [.ofKind .kwReturn] := Lexeme.legible_singleton (Lexeme.spells_ofKind rfl)
    exact head.spaced (Expr.legible_lexemes h)
  | exprStmt t e => exact Expr.legible_lexemes h

/-- The grammar derives the statement from what it is written as. -/
theorem derives_restored {s : Stmt} {ending : List Token} (h : s.Canonical)
    (ended : Terminator ending) :
    DerivesStmt (s.body.filterMap Lexeme.token? ++ ending) s.restored := by
  cases s with
  | letStmt t name e =>
    have value := (Expr.derives_restored h.2).mono (Layer.equality_le .primary)
    have tokens : (letStmt t name e).body.filterMap Lexeme.token? =
        Token.ofKind .kwLet :: Token.ofName name.name :: Token.ofKind .assign ::
          e.lexemes.filterMap Lexeme.token? := by
      rw [body, Lexeme.filterMap_token?_spaced, Lexeme.filterMap_token?_spaced,
        Lexeme.filterMap_token?_spaced,
        List.filterMap_cons_some (Token.spelled_ofName h.1).token?_lexeme]
      rfl
    rw [tokens]
    exact .letStmt rfl rfl rfl value ended
  | returnStmt t e =>
    have value := (Expr.derives_restored h).mono (Layer.equality_le .primary)
    rw [body, Lexeme.filterMap_token?_spaced]
    exact .returnStmt rfl value ended
  | exprStmt t e =>
    have expr := (Expr.derives_restored h).mono (Layer.equality_le .primary)
    obtain ⟨ts, tokens⟩ := Expr.exists_tokens_eq h
    rw [body, restored]
    rw [tokens] at expr ⊢
    exact .exprStmt expr ended

end Stmt

/-! ### Programs -/

namespace Program

/-- What statements in a row are written as. -/
def lexemesOf : List Stmt → List Lexeme
  | [] => []
  | [s] => s.body ++ if s.isExpr then [] else [.ofKind .semicolon]
  | s :: next :: rest => s.body ++ .ofKind .semicolon :: lexemesOf (next :: rest)

/-- The program with the tokens that its statements and their nodes call for. -/
def restored (p : Program) : Program :=
  ⟨p.statements.map Stmt.restored⟩

variable {ss : List Stmt}

theorem toList_textOf (ss : List Stmt) :
    (textOf ss).toList = (lexemesOf ss).flatMap Lexeme.text := by
  induction ss with
  | nil => rfl
  | cons s ss ih =>
    cases ss with
    | nil =>
      rw [textOf, s.toList_text, lexemesOf, List.flatMap_append]
      cases s.isExpr <;> rfl
    | cons next rest =>
      rw [textOf, String.toList_append, String.toList_append, s.toList_text, ih, lexemesOf,
        List.flatMap_append, List.flatMap_cons]
      cases s.isExpr <;> simp [Lexeme.text_ofKind (k := .semicolon) rfl]

theorem legal_lexemesOf (ss : List Stmt) : Legal (lexemesOf ss) := by
  have semicolon : Legal [.ofKind .semicolon] := Lexeme.legal_lexeme _
  induction ss with
  | nil => exact fun l hl => absurd hl List.not_mem_nil
  | cons s ss ih =>
    cases ss with
    | nil =>
      refine legal_append.2 ⟨s.legal_body, ?_⟩
      cases s.isExpr with
      | true => exact fun l hl => absurd hl List.not_mem_nil
      | false => exact semicolon
    | cons next rest =>
      exact legal_append.2 ⟨s.legal_body, legal_append.2 ⟨semicolon, ih⟩⟩

theorem legible_lexemesOf (h : ∀ s ∈ ss, s.Canonical) : Legible (lexemesOf ss) := by
  have semicolon := Lexeme.spells_ofKind (k := .semicolon) rfl
  induction ss with
  | nil => exact ⟨fun l hl => absurd hl List.not_mem_nil, .nil⟩
  | cons s ss ih =>
    obtain ⟨canonical, others⟩ := List.forall_mem_cons.1 h
    have first := Stmt.legible_body canonical
    cases ss with
    | nil =>
      rw [lexemesOf]
      split
      · rw [List.append_nil]
        exact first
      · exact first.append_cons (Lexeme.legible_singleton semicolon) Lexeme.separate_semicolon
    | cons next rest =>
      have behind : Legible (.ofKind .semicolon :: lexemesOf (next :: rest)) :=
        legible_cons.2 ⟨semicolon, fun m _ c _ => rfl, ih others⟩
      exact first.append_cons behind Lexeme.separate_semicolon

/-- The grammar derives the statements from what they are written as. -/
theorem derives_restored (h : ∀ s ∈ ss, s.Canonical) :
    DerivesProgram ((lexemesOf ss).filterMap Lexeme.token?) (ss.map Stmt.restored) := by
  have semicolon : Terminator [Token.ofKind .semicolon] := .inr ⟨_, rfl, rfl⟩
  induction ss with
  | nil => exact .nil
  | cons s ss ih =>
    obtain ⟨canonical, others⟩ := List.forall_mem_cons.1 h
    have closed := Stmt.derives_restored canonical semicolon
    have apart : ∀ rest, Apart (s.body.filterMap Lexeme.token? ++ [Token.ofKind .semicolon]) rest :=
      fun rest => .inl ⟨_, List.getLast?_concat, rfl⟩
    cases ss with
    | nil =>
      rw [lexemesOf, List.filterMap_append]
      split
      · have first := Stmt.derives_restored canonical (.inl rfl)
        rw [← List.append_nil (List.filterMap _ s.body ++ _)]
        exact .cons first (.inr nofun) .nil
      · rw [← List.append_nil (List.filterMap _ s.body ++ _)]
        exact .cons closed (apart []) .nil
    | cons next rest =>
      have whole := DerivesProgram.cons closed (apart _) (ih others)
      rw [List.append_assoc] at whole
      rw [lexemesOf, List.filterMap_append]
      exact whole

end Program

/-! ### Texts and tokens of restored trees -/

theorem Expr.text_restored (e : Expr) : e.restored.text = e.text := by
  induction e with
  | ident i => rfl
  | int t v => rfl
  | unary t op e ih => rw [restored, text, text, ih]
  | binary t l op r ihl ihr => rw [restored, text, text, ihl, ihr]

theorem Stmt.text_restored (s : Stmt) : s.restored.text = s.text := by
  cases s with
  | letStmt t name e => rw [restored, text, text, e.text_restored]; rfl
  | returnStmt t e => rw [restored, text, text, e.text_restored]
  | exprStmt t e => rw [restored, text, text, e.text_restored]

theorem Program.text_restored (p : Program) : p.restored.text = p.text :=
  textOf_map Stmt.text_restored (fun s => by cases s <;> rfl) _

theorem Token.Spelled.erase_eq {t : Token} {k : Token.Kind} {s : String} (h : t.Spelled)
    (kind : t.kind = k) (fixed : k.spelling? = some s) : t.erase = .ofKind k := by
  subst kind
  cases h with
  | name kind _ => rw [kind] at fixed; cases fixed
  | numeral kind _ => rw [kind] at fixed; cases fixed
  | fixed h => rw [erase, ofKind, Kind.describe_of_spelling? h]

/-- The nodes of a tree that was read hold the tokens that they call for. -/
theorem Grammar.Derives.restored_eq_erase {n : Layer} {ts : List Token} {e : Expr}
    (h : Derives n ts e) (spelled : ∀ t ∈ ts, t.Spelled) : e.restored = e.erase := by
  induction h with
  | binary _ sign _ ihl ihr =>
    rw [List.forall_mem_append, List.forall_mem_cons] at spelled
    obtain ⟨left, here, right⟩ := spelled
    have token := here.erase_eq (BinaryOp.ofKind?_eq_some_iff.1 sign) (BinaryOp.spelling?_kind _)
    rw [Expr.restored, Expr.erase, ihl left, ihr right, token]
  | next _ ih => exact ih spelled
  | unary sign _ ih =>
    rw [List.forall_mem_cons] at spelled
    obtain ⟨here, behind⟩ := spelled
    have token := here.erase_eq (UnaryOp.ofKind?_eq_some_iff.1 sign) (UnaryOp.spelling?_kind _)
    rw [Expr.restored, Expr.erase, ih behind, token]
  | ident kind =>
    simp [Expr.restored, Expr.erase, Identifier.erase, Identifier.ofToken, Token.ofName,
      Token.erase, Token.synthetic, kind]
  | int kind =>
    simp [Expr.restored, Expr.erase, Token.ofNumeral, Token.erase, kind]
  | group _ _ _ ih =>
    rw [List.forall_mem_append, List.forall_mem_cons] at spelled
    exact ih spelled.1.2

/-- Every token of the statement is the one that is called for, but that of an expression statement,
which need not be the first one of what the statement is written as. -/
def Stmt.Faithful (s : Stmt) : Prop :=
  s.restored = s.erase ∨ ∃ t e, s = .exprStmt t e ∧ e.restored = e.erase

theorem Grammar.DerivesStmt.faithful {run : List Token} {s : Stmt} (h : DerivesStmt run s)
    (spelled : ∀ t ∈ run, t.Spelled) : s.Faithful := by
  cases h with
  | letStmt head named _ value _ =>
    simp only [List.cons_append, List.forall_mem_cons, List.forall_mem_append] at spelled
    obtain ⟨first, name, -, inner, -⟩ := spelled
    refine .inl ?_
    rw [Stmt.restored, Stmt.erase, value.restored_eq_erase inner, first.erase_eq head rfl]
    simp [Identifier.erase, Identifier.ofToken, Token.ofName, Token.erase, Token.synthetic, named]
  | returnStmt head value _ =>
    rw [List.forall_mem_append, List.forall_mem_cons] at spelled
    obtain ⟨⟨first, inner⟩, -⟩ := spelled
    refine .inl ?_
    rw [Stmt.restored, Stmt.erase, value.restored_eq_erase inner, first.erase_eq head rfl]
  | exprStmt expr _ =>
    rw [List.forall_mem_append] at spelled
    exact .inr ⟨_, _, rfl, expr.restored_eq_erase spelled.1⟩

/-! ### The round trip -/

namespace Program

variable {p : Program}

/-- What the text of a canonical program is read as. -/
theorem exists_read (h : p.Canonical) :
    ∃ ss, Parse.ofSource p.text = ⟨⟨ss⟩, []⟩ ∧
      ss.map Stmt.erase = p.statements.map Stmt.restored := by
  have legible := legible_lexemesOf h
  have written := toList_textOf p.statements
  obtain ⟨tokens, legal⟩ := legible.ofSource (legal_lexemesOf p.statements) written
  have derived := derives_restored h
  rw [← tokens] at derived
  obtain ⟨ss, placed, erased⟩ := derived.of_map_erase
  exact ⟨ss, Parse.ofSource_of_derivesProgram legal placed, erased⟩

/-- **The text of a program.** Every program that is read from a text is canonical, and its nodes
hold the tokens that they call for. The text of a canonical program is read without errors as the
same program, each node with the token that it calls for, and so has the same text again. -/
theorem canonical_roundTrip :
    (∀ source, (Parse.ofSource source).program.Canonical ∧
      ∀ s ∈ (Parse.ofSource source).program.statements, s.Faithful) ∧
    ∀ p : Program, p.Canonical →
      (Parse.ofSource p.text).errors = [] ∧
      (Parse.ofSource p.text).program.erase = p.restored ∧
      (Parse.ofSource p.text).program.text = p.text := by
  refine ⟨fun source => ⟨Parse.canonical_ofSource source, ?_⟩, fun p h => ?_⟩
  · intro s hs
    obtain ⟨run, derived, spelled⟩ := Parse.exists_spelled_run source s hs
    exact derived.faithful spelled
  · obtain ⟨ss, read, erased⟩ := exists_read h
    have same : (Parse.ofSource p.text).program.erase = p.restored := by
      rw [read, erase, restored, erased]
    refine ⟨by rw [read], same, ?_⟩
    calc (Parse.ofSource p.text).program.text
        = (Parse.ofSource p.text).program.erase.text := (text_erase _).symm
      _ = p.restored.text := by rw [same]
      _ = p.text := text_restored p

/-- A program put together from tokens that do not belong to it. -/
def handMade : Program :=
  let t := Token.endAt 7
  ⟨[.exprStmt t (.unary t .not (.ident ⟨t, "x1"⟩)),
    .exprStmt t (.binary t (.int ⟨.comma, "007", ⟨1, 0⟩⟩ 7) .eq (.ident ⟨t, "a"⟩)),
    .letStmt t ⟨t, "_y"⟩ (.unary t .neg (.unary t .neg (.ident ⟨t, "b"⟩)))]⟩

theorem handMade_roundTrip :
    handMade.Canonical ∧ handMade.text = "(!x1);(007 == a);let _y = (-(-b));" ∧
      (Parse.ofSource handMade.text).errors = [] ∧
      (Parse.ofSource handMade.text).program.erase = handMade.restored ∧
      (Parse.ofSource handMade.text).program.text = handMade.text := by
  have canonical : handMade.Canonical := by
    have x1 : IsName "x1" := ⟨Shape.spells_word rfl rfl, by decide⟩
    have a : IsName "a" := ⟨Shape.spells_word rfl rfl, by decide⟩
    have y : IsName "_y" := ⟨Shape.spells_word rfl rfl, by decide⟩
    have b : IsName "b" := ⟨Shape.spells_word rfl rfl, by decide⟩
    have seven : IsNumeral "007" := Shape.spells_number (by decide) rfl
    have none : ∀ s ∈ ([] : List Stmt), s.Canonical := by simp
    simp only [Canonical, handMade, List.forall_mem_cons]
    exact ⟨x1, ⟨⟨seven, by decide⟩, a⟩, ⟨y, b⟩, none⟩
  exact ⟨canonical, by decide, canonical_roundTrip.2 handMade canonical⟩

end Program

end MonkeyFrontEnd
