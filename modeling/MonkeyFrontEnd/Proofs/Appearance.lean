import MonkeyFrontEnd.Proofs.ErrorFree
import MonkeyFrontEnd.Proofs.Lexing.Alphabet
import MonkeyFrontEnd.Proofs.Lexing.Tiling
import MonkeyFrontEnd.Proofs.Printing
import MonkeyFrontEnd.Text.WhiteSpace

/-!
# What the text of a program looks like

The text of a canonical program without statements is empty. Every other one is `Neat`: it consists
of characters that tokens are written with, and of spaces, but not at its ends. So it has no line
feed, nothing is trimmed off it, and it does not begin with a colon. Conversely, a text that is read
without errors and has no statements is blank.
-/

set_option autoImplicit false

namespace MonkeyFrontEnd

/-- The characters that texts of trees consist of. -/
def isPrinted (c : Char) : Bool :=
  c = ' ' || isTokenChar c

/-- A text of such characters that neither begins nor ends with a space. -/
structure Neat (cs : List Char) : Prop where
  printed : ∀ c ∈ cs, isPrinted c
  opens : ∃ c ∈ cs.head?, isTokenChar c
  closes : ∃ c ∈ cs.getLast?, isTokenChar c

namespace Neat

variable {c : Char} {as bs cs : List Char} {s : String}

theorem of_forall (nonempty : cs ≠ []) (h : ∀ c ∈ cs, isTokenChar c) : Neat cs where
  printed c hc := by simp [isPrinted, h c hc]
  opens := ⟨cs.head nonempty, List.head?_eq_some_head nonempty, h _ (List.head_mem nonempty)⟩
  closes := ⟨cs.getLast nonempty, List.getLast?_eq_some_getLast nonempty,
    h _ (List.getLast_mem nonempty)⟩

theorem singleton (h : isTokenChar c) : Neat [c] :=
  of_forall (List.cons_ne_nil c []) (List.forall_mem_singleton.2 h)

theorem ne_nil (h : Neat cs) : cs ≠ [] := by
  rintro rfl
  obtain ⟨c, hc, -⟩ := h.opens
  cases hc

/-- Between two texts that are neat there may be any characters that trees are written with. -/
theorem enclose (ha : Neat as) (hb : ∀ c ∈ bs, isPrinted c) (hc : Neat cs) :
    Neat (as ++ bs ++ cs) where
  printed := List.forall_mem_append.2 ⟨List.forall_mem_append.2 ⟨ha.printed, hb⟩, hc.printed⟩
  opens := by
    rw [List.append_assoc, List.head?_append_of_ne_nil _ ha.ne_nil]
    exact ha.opens
  closes := by
    rw [List.getLast?_append_of_ne_nil _ hc.ne_nil]
    exact hc.closes

theorem not_mem (h : Neat cs) (other : isPrinted c = false) : c ∉ cs := by
  intro hc
  rw [h.printed c hc] at other
  cases other

theorem isWhiteSpace_of_isTokenChar (h : isTokenChar c) : Text.isWhiteSpace c = false :=
  forall_isTokenChar (P := fun c => Text.isWhiteSpace c = false) (by decide) h

/-- A neat text has no white space at its ends. -/
theorem trim_eq (h : Neat s.toList) : Text.trim s = s := by
  obtain ⟨c, hc, first⟩ := h.opens
  obtain ⟨d, hd, last⟩ := h.closes
  obtain ⟨r, hr⟩ := List.head?_eq_some_iff.1 hc
  obtain ⟨r', hr'⟩ := List.getLast?_eq_some_iff.1 hd
  have front : s.toList.dropWhile Text.isWhiteSpace = s.toList := by
    rw [hr, List.dropWhile_cons_of_neg]
    simp [isWhiteSpace_of_isTokenChar first]
  have back : s.toList.reverse.dropWhile Text.isWhiteSpace = s.toList.reverse := by
    rw [hr', List.reverse_concat, List.dropWhile_cons_of_neg]
    simp [isWhiteSpace_of_isTokenChar last]
  rw [Text.trim, front, Text.trimEnd, back, List.reverse_reverse, String.ofList_toList]

end Neat

/-! ### Trees -/

theorem Token.Spelled.isTokenChar {t : Token} (h : t.Spelled) :
    ∀ c ∈ t.literal.toList, isTokenChar c := by
  have spells : t.kind.shape.Spells t.literal.toList := h.spells
  have legal : t.kind.shape ≠ .illegal := Lexeme.legal_lexeme t t.lexeme List.mem_cons_self
  refine spells.isTokenChar ?_ legal
  intro blank
  have kind := h.kind?_lexeme
  rw [lexeme, blank] at kind
  cases kind

theorem Token.Spelled.neat {t : Token} (h : t.Spelled) : Neat t.literal.toList :=
  .of_forall h.spells.ne_nil h.isTokenChar

theorem isPrinted_sign_unary (op : UnaryOp) : ∀ c ∈ op.sign.toList, isPrinted c := by
  cases op <;> exact List.all_eq_true.1 rfl

theorem isPrinted_sign_binary (op : BinaryOp) : ∀ c ∈ op.sign.toList, isPrinted c := by
  cases op <;> exact List.all_eq_true.1 rfl

theorem isPrinted_space : ∀ c ∈ [' '], isPrinted c :=
  List.all_eq_true.1 rfl

theorem Expr.neat_text {e : Expr} (h : e.Canonical) : Neat e.text.toList := by
  have opening : Neat ['('] := .singleton rfl
  have closing : Neat [')'] := .singleton rfl
  induction e with
  | ident i => exact (Token.spelled_ofName h).neat
  | int t v => exact (Token.spelled_ofNumeral h.1).neat
  | unary t op e ih =>
    have parts : (Expr.unary t op e).text.toList =
        ['('] ++ (op.sign.toList ++ e.text.toList) ++ [')'] := by
      simp [text, UnaryOp.around]
    rw [parts]
    exact opening.enclose
      (List.forall_mem_append.2 ⟨isPrinted_sign_unary op, (ih h).printed⟩) closing
  | binary t l op r ihl ihr =>
    have parts : (Expr.binary t l op r).text.toList =
        ['('] ++ (l.text.toList ++ ([' '] ++ (op.sign.toList ++ ([' '] ++ r.text.toList)))) ++
          [')'] := by
      simp [text, BinaryOp.around]
    have right := List.forall_mem_append.2 ⟨isPrinted_space, (ihr h.2).printed⟩
    have signed := List.forall_mem_append.2 ⟨isPrinted_sign_binary op, right⟩
    have spaced := List.forall_mem_append.2 ⟨isPrinted_space, signed⟩
    rw [parts]
    exact opening.enclose
      (List.forall_mem_append.2 ⟨(ihl h.1).printed, spaced⟩) closing

theorem Stmt.neat_text {s : Stmt} (h : s.Canonical) : Neat s.text.toList := by
  have semicolon : Neat [';'] := .singleton rfl
  cases s with
  | letStmt t name e =>
    have head : Neat "let".toList := .of_forall (by decide) (List.all_eq_true.1 rfl)
    have parts : (Stmt.letStmt t name e).text.toList = "let".toList ++
        ([' '] ++ (name.name.toList ++ (" = ".toList ++ e.text.toList))) ++ [';'] := by
      simp [text, letText]
    have sign : ∀ c ∈ " = ".toList, isPrinted c := List.all_eq_true.1 rfl
    have value := List.forall_mem_append.2 ⟨sign, (Expr.neat_text h.2).printed⟩
    have named := List.forall_mem_append.2 ⟨(Token.spelled_ofName h.1).neat.printed, value⟩
    rw [parts]
    exact head.enclose (List.forall_mem_append.2 ⟨isPrinted_space, named⟩) semicolon
  | returnStmt t e =>
    have head : Neat "return".toList := .of_forall (by decide) (List.all_eq_true.1 rfl)
    have parts : (Stmt.returnStmt t e).text.toList =
        "return".toList ++ ([' '] ++ e.text.toList) ++ [';'] := by
      simp [text, returnText]
    rw [parts]
    exact head.enclose
      (List.forall_mem_append.2 ⟨isPrinted_space, (Expr.neat_text h).printed⟩) semicolon
  | exprStmt t e => exact Expr.neat_text h

/-- The text of a program that has statements is neat. -/
theorem Program.neat_text {p : Program} (h : p.Canonical) (some_statement : p.statements ≠ []) :
    Neat p.text.toList := by
  obtain ⟨ss⟩ := p
  rw [Program.text]
  induction ss with
  | nil => exact absurd rfl some_statement
  | cons s ss ih =>
    obtain ⟨first, others⟩ := List.forall_mem_cons.1 h
    cases ss with
    | nil => exact Stmt.neat_text first
    | cons next rest =>
      have separator : ∀ c ∈ (if s.isExpr then ";" else "").toList, isPrinted c := by
        cases s.isExpr <;> exact List.all_eq_true.1 rfl
      rw [textOf, String.toList_append, String.toList_append]
      exact (Stmt.neat_text first).enclose separator (ih others (List.cons_ne_nil next rest))

/-! ### Texts without statements -/

theorem Item.isBlank_of_ofSource_eq_nil {source : String} (h : ofSource source = []) :
    ∀ c ∈ source.toList, isBlank c := by
  have tiles : Tiles 0 source.toList [] := tiles_iff.2 h.symm
  intro c hc
  obtain ⟨before, behind, split⟩ := List.append_of_mem hc
  simpa using tiles.covered before c behind split

/-- A text that is read as no statement, without errors, consists of blanks. -/
theorem Parse.isBlank_of_statements_eq_nil {source : String}
    (read : (Parse.ofSource source).errors = [])
    (none : (Parse.ofSource source).program.statements = []) :
    ∀ c ∈ source.toList, isBlank c := by
  have derived := derivesProgram_of_errors_eq_nil read
  rw [none] at derived
  have tokens : Token.ofSource source = [] := by
    generalize Token.ofSource source = ts at derived
    cases derived
    rfl
  have legal : IllegalChar.ofSource source = [] := (errors_eq_nil_iff.1 read).1
  refine Item.isBlank_of_ofSource_eq_nil (List.eq_nil_iff_forall_not_mem.2 fun i hi => ?_)
  cases i with
  | token t => exact absurd (List.filterMap_eq_nil_iff.1 tokens _ hi) (Option.some_ne_none t)
  | illegal e => exact absurd (List.filterMap_eq_nil_iff.1 legal _ hi) (Option.some_ne_none e)

end MonkeyFrontEnd
