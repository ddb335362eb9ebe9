import MonkeyFrontEnd.Proofs.Descent
import MonkeyFrontEnd.Proofs.Walker.Standing

/-!
# Walkers follow the descent

Where the descent is given the tokens that are left, a walker stands at them and goes on as the
descent takes them. The two are compared function by function (`Walks`): they read the same value,
the walker has gone on as often as tokens were taken, and it has passed no semicolon and not the end
of the text. After a failure it has recorded the one error that the descent notices, and this error
is about one of the two tokens that the walker stands at (`Located`).
-/

set_option autoImplicit false

namespace MonkeyFrontEnd.Walker

open Grammar (Clean)
open Parse (Descent.Halt Descent.Result Descent.peek)

variable {source : String} {w : Walker} {ts us : List Token} {m n : Nat} {floor : Level}

/-- The first `n` of the tokens can be passed: they are there, and no semicolon is among them. -/
structure Passes (ts : List Token) (n : Nat) : Prop where
  short : n ≤ ts.length
  clean : Clean (ts.take n)

theorem Passes.zero (ts : List Token) : Passes ts 0 :=
  ⟨Nat.zero_le _, by simp [Clean]⟩

theorem Passes.cons {t : Token} (clean : t.kind ≠ .semicolon) (h : Passes ts n) :
    Passes (t :: ts) (n + 1) where
  short := Nat.succ_le_succ h.short
  clean := by
    rw [List.take_succ_cons, Clean, List.forall_mem_cons]
    exact ⟨clean, h.clean⟩

theorem Passes.add (h : Passes ts m) (h' : Passes (ts.drop m) n) : Passes ts (m + n) where
  short := by
    have here := h.short
    have there := h'.short
    rw [List.length_drop] at there
    omega
  clean := by
    rw [List.take_add]
    exact h.clean.append h'.clean

/-- The error is about a token that the walker stands at: about the current one, if that is at
fault, and about the one ahead, if another one is due behind the current one. -/
inductive Located (w : Walker) : ParseError → Prop
  | noOperand : Located w (.noOperand w.current.kind w.current.span)
  | integerTooLarge : Located w (.integerTooLarge w.current.literal w.current.span)
  | unexpected (kind : Token.Kind) (other : w.ahead.kind ≠ kind)
      (clean : w.current.kind ≠ .semicolon) (inside : w.current.kind ≠ .eof) :
      Located w (.unexpectedToken kind w.ahead.kind w.ahead.span)

/-- What the descent makes of the tokens `ts`, and what a walker makes of them that stands there. -/
inductive Walks (ts : List Token) (w : Walker) :
    Except Descent.Halt (Descent.Result Expr ts) → Outcome Expr w → Prop
  | read (x : Descent.Result Expr ts) (n : Nat) (le : (advance^[n] w).bound ≤ w.bound)
      (passes : Passes ts n) (left : x.left = ts.drop n) {c : Token} {rest : List Token}
      (at_ : x.left = c :: rest) (clean : c.kind ≠ .semicolon) :
      Walks ts w (.ok x) (.read x.value (advance^[n] w) le)
  | failed (e : ParseError) (n : Nat) (le : ((advance^[n] w).record e).bound ≤ w.bound)
      (passes : Passes ts n) (located : Located (advance^[n] w) e) :
      Walks ts w (.error (.failed ⟨(advance^[n] w).ahead.span.start, e⟩ (ts.drop n)))
        (.failed ((advance^[n] w).record e) le)

/-- What is made of tokens further on is made of those before them, which are passed. -/
theorem Walks.later {left : Except Descent.Halt (Descent.Result Expr us)}
    {right : Outcome Expr (advance^[m] w)} (h : Walks us (advance^[m] w) left right)
    (place : us = ts.drop m) (passes : Passes ts m) (le : us.length ≤ ts.length)
    (le' : (advance^[m] w).bound ≤ w.bound) :
    Walks ts w (left.bind fun x => .ok (x.within le)) (right.within le') := by
  subst place
  cases h with
  | read x n less passes' left at_ clean =>
    have split : x.left = ts.drop (m + n) := by rw [left, List.drop_drop]
    have state := iterate_iterate m n w
    have result := Walks.read (x.within le) (m + n) (state ▸ Nat.le_trans less le')
      (passes.add passes') split at_ clean
    simp only [Outcome.within, state]
    exact result
  | failed e n less passes' located =>
    have state := iterate_iterate m n w
    have result := Walks.failed e (m + n) (state ▸ Nat.le_trans less le') (passes.add passes')
      (state ▸ located)
    simp only [Outcome.within, state, List.drop_drop]
    exact result

/-- Wherever the tokens `ts` are left, a walker reads expressions as the descent does. -/
def Follows (source : String) (ts : List Token) : Prop :=
  ∀ floor w, Stands source ts w →
    Walks ts w (Parse.Descent.expression (.ofEnd source) floor ts) (w.expression floor)

theorem kind_ne_semicolon_of_unary {k : Token.Kind} {op : UnaryOp}
    (h : UnaryOp.ofKind? k = some op) : k ≠ .semicolon := by
  rintro rfl
  cases h

theorem kind_ne_semicolon_of_binary {k : Token.Kind} {op : BinaryOp}
    (h : BinaryOp.ofKind? k = some op) : k ≠ .semicolon := by
  rintro rfl
  cases h

/-! ### Operands -/

/-- What an operand is read as, by what the current token is. -/
inductive Begins (w : Walker) : Outcome Expr w → Prop
  | unary (op : UnaryOp) (sign : UnaryOp.ofKind? w.current.kind = some op) :
      Begins w (((w.advance.expression .unary).andThen fun right after _ =>
        after.attached (.unary w.current op none) .right right after.completeExpr).within
          w.bound_advance_le)
  | ident (kind : w.current.kind = .ident) : Begins w (w.done (.ident (.ofToken w.current)))
  | int (value : Int64) (kind : w.current.kind = .int)
      (whole : Parse.intValue? w.current.literal = some value) :
      Begins w (w.done (.int w.current value))
  | tooLarge (kind : w.current.kind = .int) (whole : Parse.intValue? w.current.literal = none) :
      Begins w (w.fail (.integerTooLarge w.current.literal w.current.span))
  | group (kind : w.current.kind = .lparen) :
      Begins w (((w.advance.expression .lowest).andThen fun inner after _ =>
        (after.expectAhead .rparen).andThen fun _ after _ => after.done inner).within
          w.bound_advance_le)
  | other (sign : UnaryOp.ofKind? w.current.kind = none) (ident : w.current.kind ≠ .ident)
      (int : w.current.kind ≠ .int) (group : w.current.kind ≠ .lparen) :
      Begins w (w.fail (.noOperand w.current.kind w.current.span))

theorem operand_begins (w : Walker) : Begins w w.operand := by
  rw [operand]
  split
  · exact .unary _ ‹_›
  · split
    · exact .ident ‹_›
    · cases whole : Parse.intValue? w.current.literal with
      | some value => exact .int value ‹_› whole
      | none => exact .tooLarge ‹_› whole
    · exact .group ‹_›
    · exact .other ‹_› ‹_› ‹_› ‹_›

/-- A failure at the place to which the walker has gone on. -/
theorem Walks.stuck {e : ParseError} (passes : Passes ts n) (stands : Stands source ts w)
    (less : (advance^[n] w).bound ≤ w.bound) (located : Located (advance^[n] w) e) :
    Walks ts w (Parse.Descent.fail (.ofEnd source) e (ts.drop n))
      (((advance^[n] w).fail e).within less) := by
  rw [Parse.Descent.fail, Parse.Descent.peek, ← (stands.iterate n).ahead]
  exact .failed e n _ passes located

/-- A failure at the place where the walker stands. -/
theorem Walks.here {e : ParseError} (stands : Stands source ts w) (located : Located w e) :
    Walks ts w (Parse.Descent.fail (.ofEnd source) e ts) (w.fail e) :=
  .stuck (n := 0) (.zero ts) stands (Nat.le_refl _) located

/-- A value that is read from the current token alone. -/
theorem Walks.token {t : Token} {k : Token.Kind} (e : Expr) (kind : t.kind = k)
    (other : k ≠ .semicolon) :
    Walks (t :: ts) w (.ok ⟨e, t :: ts, Nat.le_refl _⟩) (w.done e) :=
  .read (w := w) ⟨e, t :: ts, Nat.le_refl _⟩ 0 (Nat.le_refl _) (.zero _) rfl rfl (kind ▸ other)

/-- The token ahead, where one of a certain kind is due: the walker goes on to it, or it is the one
at fault. -/
theorem expect_cases {c : Token} (stands : Stands source (c :: ts) w) {kind : Token.Kind}
    (inside : kind ≠ .eof) :
    (∃ t us le, ts = t :: us ∧ t.kind = kind ∧
      Parse.Descent.expectPeek (.ofEnd source) kind (c :: ts) = .ok ⟨t, t :: us, le⟩ ∧
      w.expectAhead kind = .read t w.advance w.bound_advance_le) ∨
    w.ahead.kind ≠ kind ∧
      Parse.Descent.expectPeek (.ofEnd source) kind (c :: ts) =
        Parse.Descent.fail (.ofEnd source) (.unexpectedToken kind w.ahead.kind w.ahead.span)
          (c :: ts) ∧
      w.expectAhead kind = w.fail (.unexpectedToken kind w.ahead.kind w.ahead.span) := by
  have ahead := stands.ahead
  cases ts with
  | nil =>
    replace ahead : w.ahead = .ofEnd source := ahead
    have other : w.ahead.kind ≠ kind := ahead ▸ inside.symm
    exact .inr ⟨other, by rw [ahead]; rfl, if_neg other⟩
  | cons t us =>
    obtain rfl : w.ahead = t := ahead
    by_cases due : w.ahead.kind = kind
    · exact .inl ⟨w.ahead, us, Nat.le_succ _, rfl, due, if_pos due, if_pos due⟩
    · exact .inr ⟨due, if_neg due, if_neg due⟩

/-- Behind an expression in parentheses the closing one is due. -/
theorem group_walks {c : Token} {rest : List Token} (e : Expr) (le : (c :: rest).length ≤ ts.length)
    (at_ : ts.drop n = c :: rest) (clean : c.kind ≠ .semicolon) (passes : Passes ts n)
    (stands : Stands source ts w) (less : (advance^[n] w).bound ≤ w.bound) :
    Walks ts w
      ((Parse.Descent.expectPeek (.ofEnd source) .rparen (c :: rest)).bind fun close =>
        .ok ⟨e, close.left, Nat.le_trans close.le le⟩)
      ((((advance^[n] w).expectAhead .rparen).andThen fun _ after _ => after.done e).within
        less) := by
  have place := stands.iterate n
  rw [at_] at place
  have current : (advance^[n] w).current = c := place.current
  have inside : c.kind ≠ .eof := place.genuine c List.mem_cons_self
  rcases expect_cases place (by decide : Token.Kind.rparen ≠ .eof) with
    ⟨u, us, le', rfl, closed, taken, moved⟩ | ⟨other, missing, stopped⟩
  · have next : ts.drop (n + 1) = u :: us := by rw [← List.tail_drop, at_, List.tail_cons]
    have passes' : Passes ts (n + 1) := passes.add (at_ ▸ .cons clean (.zero _))
    have less' : (advance^[n + 1] w).bound ≤ w.bound := by
      rw [Function.iterate_succ_apply']
      exact Nat.le_trans (bound_advance_le _) less
    have result := Walks.read ⟨e, u :: us, Nat.le_trans le' le⟩ (n + 1) less' passes' next.symm rfl
      (by simp [closed])
    simp only [Function.iterate_succ_apply'] at result
    rw [taken, moved]
    exact result
  · have stuck := Walks.stuck passes stands less
      (.unexpected .rparen other (current ▸ clean) (current ▸ inside))
    rw [at_] at stuck
    rw [missing, stopped]
    exact stuck

theorem operand_walks (shorter : ∀ us, us.length < ts.length → Follows source us)
    (stands : Stands source ts w) :
    Walks ts w (Parse.Descent.operand (.ofEnd source) ts) w.operand := by
  have begins := w.operand_begins
  generalize w.operand = outcome at begins
  cases begins with
  | unary op sign =>
    obtain ⟨us, rfl⟩ := stands.exists_cons (kind_ne_eof_of_unary sign)
    have inner := shorter us (by simp) .unary _ stands.advance
    rw [Parse.Descent.operand]
    simp only [sign]
    generalize Parse.Descent.expression (.ofEnd source) .unary us = taken at inner
    generalize w.advance.expression .unary = outcome at inner
    have clean := kind_ne_semicolon_of_unary sign
    cases inner with
    | read x n le passes left at_ clean' =>
      exact .read ⟨.unary w.current op x.value, x.left, _⟩ (n + 1) _ (passes.cons clean) left at_
        clean'
    | failed e n le passes located => exact .failed e (n + 1) _ (passes.cons clean) located
  | ident kind =>
    obtain ⟨us, rfl⟩ := stands.exists_cons (by simp [kind])
    rw [Parse.Descent.operand]
    simp only [kind]
    exact .token _ kind (by decide)
  | int value kind whole =>
    obtain ⟨us, rfl⟩ := stands.exists_cons (by simp [kind])
    rw [Parse.Descent.operand]
    simp only [kind, whole]
    exact .token _ kind (by decide)
  | tooLarge kind whole =>
    obtain ⟨us, rfl⟩ := stands.exists_cons (by simp [kind])
    rw [Parse.Descent.operand]
    simp only [kind, whole]
    exact .here stands .integerTooLarge
  | group kind =>
    obtain ⟨us, rfl⟩ := stands.exists_cons (by simp [kind])
    have inner := shorter us (by simp) .lowest _ stands.advance
    rw [Parse.Descent.operand]
    simp only [kind]
    generalize Parse.Descent.expression (.ofEnd source) .lowest us = taken at inner
    generalize w.advance.expression .lowest = outcome at inner
    have clean : w.current.kind ≠ .semicolon := by simp [kind]
    cases inner with
    | @read x n le passes left c rest at_ clean' =>
      obtain ⟨e, left', le⟩ := x
      obtain rfl : left' = c :: rest := at_
      have place : (w.current :: us).drop (n + 1) = c :: rest := left.symm
      dsimp only [Outcome.andThen]
      rw [Outcome.within_within]
      exact group_walks e (Nat.le_succ_of_le le) place clean' (passes.cons clean) stands _
    | failed e n le passes located => exact .failed e (n + 1) _ (passes.cons clean) located
  | other sign ident int group =>
    have located : Located w (.noOperand w.current.kind w.current.span) := .noOperand
    have failed := Walks.here stands located
    cases ts with
    | nil =>
      have current : w.current = .ofEnd source := stands.current
      rw [current] at failed
      rw [Parse.Descent.operand, current]
      exact failed
    | cons t ts =>
      obtain rfl : w.current = t := stands.current
      rw [Parse.Descent.operand]
      simp only [sign]
      exact failed

/-! ### Operators -/

theorem ofKind_eq (k : Token.Kind) :
    Level.ofKind k = ((BinaryOp.ofKind? k).map BinaryOp.level).getD .lowest := by
  cases k <;> rfl

theorem operators_done (e : Expr)
    (stops : ∀ op, BinaryOp.ofKind? w.ahead.kind = some op → ¬ floor < op.level) :
    w.operators floor e = w.done e := by
  rw [operators, dif_neg]
  rintro ⟨-, tighter⟩
  rw [ofKind_eq] at tighter
  cases sign : BinaryOp.ofKind? w.ahead.kind with
  | none =>
    rw [sign] at tighter
    exact Nat.not_lt_zero _ tighter
  | some op =>
    rw [sign] at tighter
    exact stops op sign tighter

theorem operators_more {op : BinaryOp} (e : Expr)
    (sign : BinaryOp.ofKind? w.ahead.kind = some op) (tighter : floor < op.level) :
    w.operators floor e =
      ((w.advance.advance.expression op.level).andThen fun right after _ =>
        after.operators floor (.binary w.ahead e op right)).within
          (Nat.le_trans w.advance.bound_advance_le w.bound_advance_le) := by
  have level : Level.ofKind w.ahead.kind = op.level := by
    rw [ofKind_eq, sign]
    rfl
  have joined_eq : w.advance.joined e =
      ((w.advance.advance.expression op.level).andThen fun right after _ =>
        after.done (.binary w.ahead e op right)).within w.advance.bound_advance_le := by
    rw [joined]
    split
    · rename_i sign'
      cases sign.symm.trans sign'
    · rename_i op' sign'
      cases sign.symm.trans sign'
      rw [show w.advance.current = w.ahead from rfl, level]
      rfl
  rw [operators, dif_pos ⟨kind_ne_semicolon_of_binary sign, level ▸ tighter⟩, joined_eq,
    Outcome.within_andThen, Outcome.andThen_andThen, Outcome.within_within]
  simp only [done_andThen]

/-- Operators are read as the descent reads them, behind an operand of which the last token is the
current one. -/
theorem operators_walks (shorter : ∀ us, us.length < ts.length → Follows source us)
    (stands : Stands source ts w) (e : Expr) {c : Token} {rest : List Token} (at_ : ts = c :: rest)
    (clean : c.kind ≠ .semicolon) :
    Walks ts w (Parse.Descent.operators (.ofEnd source) floor e ts) (w.operators floor e) := by
  induction size : ts.length using Nat.strongRecOn generalizing ts w rest e c with
  | ind n ih =>
    subst at_ size
    have here (e : Expr) : Walks (c :: rest) w (.ok ⟨e, c :: rest, Nat.le_refl _⟩) (w.done e) :=
      .token e rfl clean
    cases rest with
    | nil =>
      have ahead : w.ahead = .ofEnd source := stands.ahead
      rw [Parse.Descent.operators, operators_done]
      · exact here e
      · intro op sign
        rw [ahead] at sign
        cases sign
      · simp
    | cons t rest =>
      have ahead : w.ahead = t := stands.ahead
      rw [Parse.Descent.operators]
      cases sign : BinaryOp.ofKind? t.kind with
      | none =>
        rw [operators_done]
        · exact here e
        · intro op sign'
          rw [ahead] at sign'
          cases sign.symm.trans sign'
      | some op =>
        dsimp only
        by_cases tighter : floor < op.level
        · have inner := shorter rest (by simp only [List.length_cons]; omega) op.level _
            stands.advance.advance
          rw [if_pos tighter, operators_more e (ahead ▸ sign) tighter]
          generalize Parse.Descent.expression (.ofEnd source) op.level rest = taken at inner
          generalize w.advance.advance.expression op.level = outcome at inner
          have two : Passes (c :: t :: rest) 2 := .cons clean
            (.cons (kind_ne_semicolon_of_binary sign) (.zero rest))
          cases inner with
          | read x m le passes left at_ clean' =>
            have less := x.le
            have place : x.left = (c :: t :: rest).drop (m + 2) := left
            have stands' : Stands source x.left (advance^[m + 2] w) :=
              place ▸ stands.iterate (m + 2)
            have others := ih x.left.length (by simp only [List.length_cons]; omega)
              (fun us h => shorter us (by simp only [List.length_cons]; omega)) stands'
              (.binary t e op x.value) at_ clean' rfl
            have passes' : Passes (c :: t :: rest) (m + 2) := Nat.add_comm 2 m ▸ two.add passes
            rw [ahead]
            dsimp only [Outcome.andThen]
            rw [Outcome.within_within]
            exact others.later place passes' _ _
          | failed e m le passes located =>
            have passes' : Passes (c :: t :: rest) (m + 2) := Nat.add_comm 2 m ▸ two.add passes
            exact .failed e (m + 2) _ passes' located
        · rw [if_neg tighter, operators_done]
          · exact here e
          · intro op' sign'
            rw [ahead] at sign'
            cases sign.symm.trans sign'
            exact tighter

/-- Wherever a walker stands, it reads expressions as the descent does. -/
theorem follows (source : String) (ts : List Token) : Follows source ts := by
  induction size : ts.length using Nat.strongRecOn generalizing ts with
  | ind n ih =>
    have shorter : ∀ us, us.length < ts.length → Follows source us :=
      fun us h => ih us.length (size ▸ h) us rfl
    intro floor w stands
    have first := operand_walks shorter stands
    rw [Parse.Descent.expression, expression]
    generalize Parse.Descent.operand (.ofEnd source) ts = taken at first
    generalize w.operand = outcome at first
    cases first with
    | read x n le passes left at_ clean =>
      have less := x.le
      have stands' : Stands source x.left (advance^[n] w) := left ▸ stands.iterate n
      have others : Walks x.left _ _ (operators floor x.value (advance^[n] w)) :=
        operators_walks (fun us h => shorter us (by omega)) stands' x.value at_ clean
      exact others.later left passes _ le
    | failed e n le passes located => exact .failed e n _ passes located

end MonkeyFrontEnd.Walker
