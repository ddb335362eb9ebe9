import MonkeyFrontEnd.Proofs.Grammar
import MonkeyFrontEnd.Tree.Text

/-!
# Trees and derivations without places

`erase` forgets where the tokens of a tree stood. The grammar never looks at places: tokens that
derive a tree after their places are forgotten derive it as they are, with places
(`DerivesProgram.of_map_erase`).
-/

set_option autoImplicit false

namespace MonkeyFrontEnd

/-- The name without its place. -/
def Identifier.erase (i : Identifier) : Identifier :=
  { i with token := i.token.erase }

/-- The expression without places. -/
def Expr.erase : Expr → Expr
  | .ident i => .ident i.erase
  | .int t v => .int t.erase v
  | .unary t op e => .unary t.erase op e.erase
  | .binary t l op r => .binary t.erase l.erase op r.erase

/-- The statement without places. -/
def Stmt.erase : Stmt → Stmt
  | .letStmt t name e => .letStmt t.erase name.erase e.erase
  | .returnStmt t e => .returnStmt t.erase e.erase
  | .exprStmt t e => .exprStmt t.erase e.erase

/-- The program without places. -/
def Program.erase (p : Program) : Program :=
  ⟨p.statements.map Stmt.erase⟩

@[simp] theorem Expr.text_erase (e : Expr) : e.erase.text = e.text := by
  induction e with
  | ident i => rfl
  | int t v => rfl
  | unary t op e ih => rw [erase, text, text, ih]
  | binary t l op r ihl ihr => rw [erase, text, text, ihl, ihr]

@[simp] theorem Stmt.text_erase (s : Stmt) : s.erase.text = s.text := by
  cases s <;> simp [erase, text, Identifier.erase, letText]

@[simp] theorem Stmt.isExpr_erase (s : Stmt) : s.erase.isExpr = s.isExpr := by
  cases s <;> rfl

/-- Texts of programs are made of the texts of their statements. -/
theorem Program.textOf_map {f : Stmt → Stmt} (text : ∀ s, (f s).text = s.text)
    (isExpr : ∀ s, (f s).isExpr = s.isExpr) (ss : List Stmt) :
    textOf (ss.map f) = textOf ss := by
  induction ss with
  | nil => rfl
  | cons s ss ih =>
    cases ss with
    | nil => exact text s
    | cons next rest =>
      rw [List.map_cons] at ih ⊢
      rw [List.map_cons, textOf, ih, textOf, text, isExpr]

@[simp] theorem Program.text_erase (p : Program) : p.erase.text = p.text :=
  textOf_map Stmt.text_erase Stmt.isExpr_erase _

@[simp] theorem Program.literal_erase (p : Program) : p.erase.literal = p.literal := by
  obtain ⟨_ | ⟨s, ss⟩⟩ := p
  · rfl
  · cases s <;> rfl

namespace Grammar

variable {n : Layer} {us : List Token} {e : Expr} {s : Stmt} {ss : List Stmt}

theorem Derives.of_map_erase (h : Derives n (us.map Token.erase) e) :
    ∃ e', Derives n us e' ∧ e'.erase = e := by
  generalize hts : us.map Token.erase = ts at h
  induction h generalizing us with
  | binary _ sign _ ihl ihr =>
    obtain ⟨left, rest, rfl, hl, hrest⟩ := List.map_eq_append_iff.1 hts
    obtain ⟨t, right, rfl, rfl, hr⟩ := List.map_eq_cons_iff.1 hrest
    obtain ⟨l, dl, rfl⟩ := ihl hl
    obtain ⟨r, dr, rfl⟩ := ihr hr
    exact ⟨_, .binary dl sign dr, rfl⟩
  | next _ ih =>
    obtain ⟨e, d, rfl⟩ := ih hts
    exact ⟨e, .next d, rfl⟩
  | unary sign _ ih =>
    obtain ⟨t, rest, rfl, rfl, hrest⟩ := List.map_eq_cons_iff.1 hts
    obtain ⟨e, d, rfl⟩ := ih hrest
    exact ⟨_, .unary sign d, rfl⟩
  | ident kind =>
    obtain ⟨t, rfl, rfl⟩ := List.map_eq_singleton_iff.1 hts
    exact ⟨_, .ident kind, rfl⟩
  | int kind decimal =>
    obtain ⟨t, rfl, rfl⟩ := List.map_eq_singleton_iff.1 hts
    exact ⟨_, .int kind decimal, rfl⟩
  | group opens _ closes ih =>
    obtain ⟨front, back, rfl, hfront, hback⟩ := List.map_eq_append_iff.1 hts
    obtain ⟨opening, inner, rfl, rfl, hinner⟩ := List.map_eq_cons_iff.1 hfront
    obtain ⟨closing, rfl, rfl⟩ := List.map_eq_singleton_iff.1 hback
    obtain ⟨e, d, rfl⟩ := ih hinner
    exact ⟨e, .group opens d closes, rfl⟩

theorem Terminator.of_map_erase (h : Terminator (us.map Token.erase)) : Terminator us := by
  rcases h with h | ⟨t, ht, h⟩
  · exact .inl (List.map_eq_nil_iff.1 h)
  · obtain ⟨u, rfl, rfl⟩ := List.map_eq_singleton_iff.1 h
    exact .inr ⟨u, ht, rfl⟩

theorem DerivesStmt.of_map_erase (h : DerivesStmt (us.map Token.erase) s) :
    ∃ s', DerivesStmt us s' ∧ s'.erase = s := by
  generalize hts : us.map Token.erase = ts at h
  cases h with
  | letStmt head named assigned value ended =>
    obtain ⟨front, ending, rfl, hfront, rfl⟩ := List.map_eq_append_iff.1 hts
    obtain ⟨t, behind, rfl, rfl, hbehind⟩ := List.map_eq_cons_iff.1 hfront
    obtain ⟨name, rest, rfl, rfl, hrest⟩ := List.map_eq_cons_iff.1 hbehind
    obtain ⟨assign, inner, rfl, rfl, rfl⟩ := List.map_eq_cons_iff.1 hrest
    obtain ⟨e, d, rfl⟩ := value.of_map_erase
    exact ⟨_, .letStmt head named assigned d ended.of_map_erase, rfl⟩
  | returnStmt head value ended =>
    obtain ⟨front, ending, rfl, hfront, rfl⟩ := List.map_eq_append_iff.1 hts
    obtain ⟨t, inner, rfl, rfl, rfl⟩ := List.map_eq_cons_iff.1 hfront
    obtain ⟨e, d, rfl⟩ := value.of_map_erase
    exact ⟨_, .returnStmt head d ended.of_map_erase, rfl⟩
  | exprStmt expr ended =>
    obtain ⟨front, ending, rfl, hfront, rfl⟩ := List.map_eq_append_iff.1 hts
    rw [← hfront] at expr
    obtain ⟨t, inner, rfl, rfl, rfl⟩ := List.map_eq_cons_iff.1 hfront
    obtain ⟨e, d, rfl⟩ := expr.of_map_erase
    exact ⟨_, .exprStmt d ended.of_map_erase, rfl⟩

theorem Apart.of_map_erase {run rest : List Token}
    (h : Apart (run.map Token.erase) (rest.map Token.erase)) : Apart run rest := by
  rcases h with ⟨t, ht, semicolon⟩ | free
  · rw [List.getLast?_map] at ht
    obtain ⟨u, hu, rfl⟩ := Option.map_eq_some_iff.1 ht
    exact .inl ⟨u, hu, semicolon⟩
  · refine .inr fun t ht => free t.erase ?_
    rw [List.head?_map]
    exact Option.mem_map_of_mem _ ht

/-- Tokens derive what they derive without their places. -/
theorem DerivesProgram.of_map_erase (h : DerivesProgram (us.map Token.erase) ss) :
    ∃ ss', DerivesProgram us ss' ∧ ss'.map Stmt.erase = ss := by
  generalize hts : us.map Token.erase = ts at h
  induction h generalizing us with
  | nil =>
    rw [List.map_eq_nil_iff] at hts
    subst hts
    exact ⟨[], .nil, rfl⟩
  | cons first apart _ ih =>
    obtain ⟨run, rest, rfl, rfl, rfl⟩ := List.map_eq_append_iff.1 hts
    obtain ⟨s, d, rfl⟩ := first.of_map_erase
    obtain ⟨ss, others, rfl⟩ := ih rfl
    exact ⟨_, .cons d apart.of_map_erase others, rfl⟩

end Grammar

end MonkeyFrontEnd
