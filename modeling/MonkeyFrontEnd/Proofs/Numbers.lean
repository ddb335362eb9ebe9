import Mathlib.Data.List.Induction
import Mathlib.Data.Nat.Digits.Defs
import MonkeyFrontEnd.Proofs.ErrorFree
import MonkeyFrontEnd.Proofs.Printing

/-!
# Numbers behind signs

A text that consists of unary operators and digits behind them is read as one expression, which
nests the operators around the number, if the number is at most the largest 64-bit integer. If it is
larger, the digits are the only thing that is wrong with the text, however many operators stand
before them: the sign of a number is no part of it, so that nothing is read as the least 64-bit
integer.
-/

set_option autoImplicit false

namespace MonkeyFrontEnd

open Grammar Parse
open Lexeme (Legal Legible Separate legible_cons legal_append)
open Text (byteCount)

/-- The number that decimal digits stand for. -/
def decimalValue (digits : List Char) : Nat :=
  Nat.ofDigits 10 (digits.reverse.map fun c => c.toNat - '0'.toNat)

/-- The token of a unary operator at the byte offset `start`. -/
def UnaryOp.tokenAt (start : Nat) (op : UnaryOp) : Token :=
  ⟨op.kind, op.sign, ⟨start, start + 1⟩⟩

/-- The tokens of unary operators one behind the other, the first at the byte offset `start`. -/
def Token.signs (start : Nat) : List UnaryOp → List Token
  | [] => []
  | op :: ops => op.tokenAt start :: signs (start + 1) ops

/-- The expression with unary operators before it, the first at the byte offset `start`. -/
def Expr.signed (start : Nat) (e : Expr) : List UnaryOp → Expr
  | [] => e
  | op :: ops => .unary (op.tokenAt start) op (signed (start + 1) e ops)

variable {ops : List UnaryOp} {digits : List Char} {start : Nat} {e : Expr} {t last : Token}
  {source u d : String}

/-! ### Digits -/

theorem decimalValue_concat (digits : List Char) (c : Char) :
    decimalValue (digits ++ [c]) = 10 * decimalValue digits + (c.toNat - '0'.toNat) := by
  simp only [decimalValue, List.reverse_append, List.reverse_singleton, List.singleton_append,
    List.map_cons, Nat.ofDigits_cons]
  exact Nat.add_comm _ _

theorem ofDigitChars_eq_decimalValue (digits : List Char) :
    Nat.ofDigitChars 10 digits 0 = decimalValue digits := by
  induction digits using List.reverseRecOn with
  | nil => rfl
  | append_singleton digits c ih =>
    rw [Nat.ofDigitChars_append, Nat.ofDigitChars_cons, Nat.ofDigitChars_nil, ih,
      decimalValue_concat]

/-! ### The text -/

namespace Lexeme

/-- Unary operators one behind the other, and digits behind them. -/
def signedDigits (digits : List Char) : List UnaryOp → List Lexeme
  | [] => [⟨.number, digits⟩]
  | op :: ops => ofKind op.kind :: signedDigits digits ops

theorem flatMap_text_signedDigits (digits : List Char) (ops : List UnaryOp) :
    (signedDigits digits ops).flatMap text =
      (ops.flatMap fun op => op.sign.toList) ++ digits := by
  induction ops with
  | nil => simp [signedDigits]
  | cons op ops ih =>
    rw [signedDigits, List.flatMap_cons, List.flatMap_cons, ih, text_ofKind op.spelling?_kind,
      List.append_assoc]

/-- Neither signs nor digits are equality signs, which an exclamation mark would take. -/
theorem head_signedDigits_ne (hd : ∀ c ∈ digits, c.isDigit) (ops : List UnaryOp) :
    ∀ m ∈ (signedDigits digits ops).head?, ∀ c ∈ m.text.head?, c ≠ '=' := by
  rintro m hm c hc rfl
  cases ops with
  | nil =>
    cases hm
    exact absurd (hd '=' (List.mem_of_mem_head? hc)) (by decide)
  | cons op ops =>
    cases hm
    cases op <;> exact absurd hc (by decide)

theorem legible_signedDigits (nonempty : digits ≠ []) (hd : ∀ c ∈ digits, c.isDigit)
    (ops : List UnaryOp) : Legible (signedDigits digits ops) := by
  induction ops with
  | nil => exact legible_singleton ⟨nonempty, hd⟩
  | cons op ops ih =>
    refine legible_cons.2 ⟨spells_ofKind op.spelling?_kind, ?_, ih⟩
    intro m hm c hc
    cases op with
    | neg => rfl
    | not => exact if_neg (head_signedDigits_ne hd ops m hm c hc)

end Lexeme

/-- The token of the digits `d` at the byte offset `start`. -/
def Token.digitsAt (start : Nat) (d : String) : Token :=
  ⟨.int, d, ⟨start, start + d.utf8ByteSize⟩⟩

theorem ofLexemes_signedDigits (d : String) (ops : List UnaryOp) (start : Nat) :
    Item.ofLexemes start (Lexeme.signedDigits d.toList ops) =
      (Token.signs start ops ++ [Token.digitsAt (start + ops.length) d]).map .token := by
  induction ops generalizing start with
  | nil =>
    have here : Item.ofLexemes start (Lexeme.signedDigits d.toList []) = [.token ⟨.int,
        String.ofList d.toList, ⟨start, start + byteCount d.toList⟩⟩] := rfl
    rw [here, String.ofList_toList, Text.byteCount_toList]
    rfl
  | cons op ops ih =>
    have first : (Lexeme.ofKind op.kind).item? start = some (.token (op.tokenAt start)) := by
      cases op <;> rfl
    have size : byteCount (Lexeme.ofKind op.kind).text = 1 := by
      cases op <;> rfl
    have place : start + 1 + ops.length = start + (op :: ops).length := by
      simp only [List.length_cons]
      omega
    rw [Lexeme.signedDigits, Item.ofLexemes, first, size, ih, place]
    rfl

theorem filterMap_token?_map_token (ts : List Token) :
    (ts.map Item.token).filterMap Item.token? = ts := by
  rw [List.filterMap_map]
  exact List.filterMap_some

theorem filterMap_illegal?_map_token (ts : List Token) :
    (ts.map Item.token).filterMap Item.illegal? = [] := by
  rw [List.filterMap_map]
  exact List.filterMap_eq_nil_iff.2 fun _ _ => rfl

/-- The tokens of a text that consists of unary operators and digits behind them. -/
theorem tokens_signedDigits (nonempty : d ≠ "") (digits : ∀ c ∈ d.toList, c.isDigit)
    (ops : List UnaryOp) :
    Token.ofSource (String.join (ops.map UnaryOp.sign) ++ d) =
        Token.signs 0 ops ++ [Token.digitsAt ops.length d] ∧
      IllegalChar.ofSource (String.join (ops.map UnaryOp.sign) ++ d) = [] := by
  have text : (String.join (ops.map UnaryOp.sign) ++ d).toList =
      (Lexeme.signedDigits d.toList ops).flatMap Lexeme.text := by
    rw [Lexeme.flatMap_text_signedDigits, String.toList_append, String.toList_join,
      List.flatMap_map]
  have nonempty' : d.toList ≠ [] := mt String.toList_eq_nil_iff.1 nonempty
  have items : Item.ofSource (String.join (ops.map UnaryOp.sign) ++ d) =
      (Token.signs 0 ops ++ [Token.digitsAt ops.length d]).map .token := by
    rw [Item.ofSource, text,
      Lexeme.split_flatMap_text (Lexeme.legible_signedDigits nonempty' digits ops),
      ofLexemes_signedDigits, Nat.zero_add]
  rw [Token.ofSource, IllegalChar.ofSource, items]
  exact ⟨filterMap_token?_map_token _, filterMap_illegal?_map_token _⟩

/-! ### The expression -/

theorem ofKind?_tokenAt (start : Nat) (op : UnaryOp) :
    UnaryOp.ofKind? (op.tokenAt start).kind = some op :=
  UnaryOp.ofKind?_eq_some_iff.2 rfl

theorem derives_signed (h : Derives .unary [t] e) (ops : List UnaryOp) (start : Nat) :
    Derives .unary (Token.signs start ops ++ [t]) (e.signed start ops) := by
  induction ops generalizing start with
  | nil => exact h
  | cons op ops ih => exact .unary (ofKind?_tokenAt start op) (ih (start + 1))

/-- Unary operators open a frame each, and what stands behind them is read next. -/
theorem run_signs (floor : Level) (ops : List UnaryOp) (ts : List Token) (start : Nat)
    (outer : List Frame) :
    ∃ outer', Reading.run floor (.operandDue outer) (Token.signs start ops ++ ts) =
      Reading.run floor (.operandDue outer') ts := by
  induction ops generalizing start outer with
  | nil => exact ⟨outer, rfl⟩
  | cons op ops ih =>
    obtain ⟨outer', run⟩ := ih (start + 1) (.unary (op.tokenAt start) op :: outer)
    refine ⟨outer', ?_⟩
    rw [← run, Token.signs, List.cons_append]
    simp only [Reading.run, operandStep_unary (ofKind?_tokenAt start op)]

/-- The first of the tokens begins no statement but an expression. -/
theorem exists_signs_append (kind : t.kind = .int) (start : Nat) (value : Int64)
    (ops : List UnaryOp) :
    ∃ ts, Token.signs start ops ++ [t] = ((Expr.int t value).signed start ops).token :: ts ∧
      heading ((Expr.int t value).signed start ops).token ts =
        .ok (.exprStmt ((Expr.int t value).signed start ops).token,
          ((Expr.int t value).signed start ops).token :: ts) := by
  cases ops with
  | nil => refine ⟨[], rfl, heading_expr ?_ ?_ _⟩ <;> simp [Expr.signed, Expr.token, kind]
  | cons op ops =>
    refine ⟨Token.signs (start + 1) ops ++ [t], rfl, heading_expr ?_ ?_ _⟩ <;> cases op <;> nofun

/-! ### Reading -/

/-- A text of signs consists of operators. -/
theorem exists_ops (signs : ∀ c ∈ u.toList, c = '-' ∨ c = '!') :
    ∃ ops : List UnaryOp, String.join (ops.map UnaryOp.sign) = u := by
  have chars : ∀ cs : List Char, (∀ c ∈ cs, c = '-' ∨ c = '!') →
      ∃ ops : List UnaryOp, (ops.map UnaryOp.sign).flatMap String.toList = cs := by
    intro cs h
    induction cs with
    | nil => exact ⟨[], rfl⟩
    | cons c cs ih =>
      rw [List.forall_mem_cons] at h
      obtain ⟨ops, rfl⟩ := ih h.2
      rcases h.1 with rfl | rfl
      · exact ⟨.neg :: ops, rfl⟩
      · exact ⟨.not :: ops, rfl⟩
  obtain ⟨ops, hops⟩ := chars u.toList signs
  refine ⟨ops, String.toList_inj.1 ?_⟩
  rw [String.toList_join, hops]

theorem utf8ByteSize_signs (ops : List UnaryOp) :
    (String.join (ops.map UnaryOp.sign)).utf8ByteSize = ops.length := by
  rw [← Text.byteCount_toList, String.toList_join, List.flatMap_map]
  induction ops with
  | nil => rfl
  | cons op ops ih =>
    have size : byteCount op.sign.toList = 1 := by
      cases op <;> rfl
    rw [List.flatMap_cons, Text.byteCount_append, ih, size, List.length_cons, Nat.add_comm]

/-- Whether digits have a value depends on the number that they stand for only. -/
theorem Parse.intValue?_cases (d : String) :
    (decimalValue d.toList ≤ 9223372036854775807 →
      ∃ value : Int64, intValue? d = some value ∧ value.toInt = decimalValue d.toList) ∧
    (9223372036854775807 < decimalValue d.toList → intValue? d = none) := by
  rw [← ofDigitChars_eq_decimalValue]
  have limit : Int64.maxValue.toInt = 9223372036854775807 := rfl
  constructor
  · intro small
    have le : (Nat.ofDigitChars 10 d.toList 0 : Int) ≤ Int64.maxValue.toInt := by omega
    have found : intValue? d = some (Int64.ofNat (Nat.ofDigitChars 10 d.toList 0)) := if_pos le
    exact ⟨_, found, intValue?_eq_some_iff.1 found⟩
  · intro large
    exact if_neg (by omega)

/-- Unary operators and digits behind them, of which the number is not too large. -/
theorem Parse.ofSource_small (nonempty : d ≠ "") (digits : ∀ c ∈ d.toList, c.isDigit)
    (ops : List UnaryOp) {value : Int64} (hv : value.toInt = decimalValue d.toList) :
    Parse.ofSource (String.join (ops.map UnaryOp.sign) ++ d) =
      ⟨⟨[.exprStmt ((Expr.int (.digitsAt ops.length d) value).signed 0 ops).token
        ((Expr.int (.digitsAt ops.length d) value).signed 0 ops)]⟩, []⟩ := by
  obtain ⟨tokens, legal⟩ := tokens_signedDigits nonempty digits ops
  apply ofSource_of_derivesProgram legal
  have number : Derives .primary [Token.digitsAt ops.length d]
      (.int (.digitsAt ops.length d) value) := by
    apply Derives.int rfl
    rw [hv, ← ofDigitChars_eq_decimalValue]
    rfl
  have whole := derives_signed (number.mono (Layer.le_primary .unary)) ops 0
  obtain ⟨ts, split, -⟩ := exists_signs_append (t := .digitsAt ops.length d) rfl 0 value ops
  rw [tokens]
  rw [split] at whole ⊢
  have stmt := DerivesStmt.exprStmt (whole.mono (Layer.equality_le _)) (.inl rfl)
  have program := DerivesProgram.cons stmt (.inr (by simp)) .nil
  rwa [List.append_nil, List.append_nil] at program

/-- Unary operators and digits behind them, of which the number is too large. -/
theorem Parse.ofSource_large (nonempty : d ≠ "") (digits : ∀ c ∈ d.toList, c.isDigit)
    (ops : List UnaryOp) (large : intValue? d = none) :
    Parse.ofSource (String.join (ops.map UnaryOp.sign) ++ d) =
      ⟨⟨[]⟩, [.integerTooLarge d ⟨ops.length, ops.length + d.utf8ByteSize⟩]⟩ := by
  obtain ⟨tokens, legal⟩ := tokens_signedDigits nonempty digits ops
  generalize String.join (ops.map UnaryOp.sign) ++ d = source at tokens legal ⊢
  obtain ⟨ts, split, headed⟩ := exists_signs_append (t := .digitsAt ops.length d) rfl 0 0 ops
  obtain ⟨outer, run⟩ := run_signs .lowest ops [.digitsAt ops.length d] 0 []
  have read : expression .lowest (Token.signs 0 ops ++ [.digitsAt ops.length d]) =
      .error (.integerTooLarge, [.digitsAt ops.length d]) := by
    rw [expression, run]
    simp only [Reading.run, operandStep, Token.digitsAt, large]
  have met : events source =
      [.fault .integerTooLarge (.digitsAt ops.length d) (.ofEnd source)] := by
    rw [split] at read
    rw [events, tokens, split, run_eq_attempt, attempt, statement, headed]
    simp only [read]
    rfl
  rw [Parse.ofSource, met, legal]
  rfl

/-- **The limit of numbers.** Digits behind any number of signs are read as the nest of the signs'
operators around their number, if this is at most the largest 64-bit integer. Otherwise nothing is
read, and the only error is that the number does not fit, even if it is negated and the least 64-bit
integer would come of it. -/
theorem Parse.signed_digits_limit (signs : ∀ c ∈ u.toList, c = '-' ∨ c = '!') (nonempty : d ≠ "")
    (digits : ∀ c ∈ d.toList, c.isDigit) :
    ∃ ops : List UnaryOp, String.join (ops.map UnaryOp.sign) = u ∧
      (decimalValue d.toList ≤ 9223372036854775807 →
        ∃ value : Int64, value.toInt = decimalValue d.toList ∧
          Parse.ofSource (u ++ d) =
            ⟨⟨[.exprStmt ((Expr.int (.digitsAt u.utf8ByteSize d) value).signed 0 ops).token
              ((Expr.int (.digitsAt u.utf8ByteSize d) value).signed 0 ops)]⟩, []⟩) ∧
      (9223372036854775807 < decimalValue d.toList →
        Parse.ofSource (u ++ d) = ⟨⟨[]⟩,
          [.integerTooLarge d ⟨u.utf8ByteSize, u.utf8ByteSize + d.utf8ByteSize⟩]⟩) := by
  obtain ⟨ops, rfl⟩ := exists_ops signs
  obtain ⟨small, large⟩ := intValue?_cases d
  refine ⟨ops, rfl, ?_, ?_⟩
  · intro le
    obtain ⟨value, -, hv⟩ := small le
    rw [utf8ByteSize_signs]
    exact ⟨value, hv, ofSource_small nonempty digits ops hv⟩
  · intro lt
    rw [utf8ByteSize_signs]
    exact ofSource_large nonempty digits ops (large lt)

/-- The largest number with zeros before it, and the next one, which would be the least 64-bit
integer with its sign. -/
theorem Parse.signed_digits_limit_reached :
    (∀ c ∈ "!-".toList, c = '-' ∨ c = '!') ∧
    (∀ c ∈ "009223372036854775807".toList, c.isDigit) ∧
    (Parse.ofSource ("!-" ++ "009223372036854775807")).errors = [] ∧
    (∀ c ∈ "9223372036854775808".toList, c.isDigit) ∧
    Parse.ofSource ("!-" ++ "9223372036854775808") =
      ⟨⟨[]⟩, [.integerTooLarge "9223372036854775808" ⟨2, 21⟩]⟩ := by
  have signs : ∀ c ∈ "!-".toList, c = '-' ∨ c = '!' := by simp
  have largest : ∀ c ∈ "009223372036854775807".toList, c.isDigit := List.all_eq_true.1 rfl
  have next : ∀ c ∈ "9223372036854775808".toList, c.isDigit := List.all_eq_true.1 rfl
  obtain ⟨_, -, small, -⟩ := signed_digits_limit signs (by decide) largest
  obtain ⟨_, -, -, large⟩ := signed_digits_limit signs (by decide) next
  obtain ⟨value, -, read⟩ := small (by decide)
  refine ⟨signs, largest, ?_, next, large (by decide)⟩
  rw [read]

end MonkeyFrontEnd
