import MonkeyFrontEnd.Parse.Expression
import MonkeyFrontEnd.Proofs.Grammar

/-!
# What reading an expression returns is derived by the grammar

`Pending floor outer seen n` is the invariant of the stack of frames: it says which tokens the
frames were made from, and which layer the operand has to come from that they wait for. An operand
that has just been read is always a primary one, because `close` runs only when an operator or a
bracket follows. The run lemma `Reading.Reads.run` says that an expression is returned with the
tokens behind it, that it is derived by the tokens before them, and that no operator follows that
could still have joined it.
-/

set_option autoImplicit false

namespace MonkeyFrontEnd

open Grammar

/-- The layer of the operands that only operators tighter than the level may be part of. -/
def Level.above : Level → Layer
  | lowest => .equality
  | equality => .comparison
  | comparison => .sum
  | sum => .product
  | product => .unary
  | unary => .unary

theorem BinaryOp.above_level (op : BinaryOp) : op.level.above = op.layer.next := by
  cases op <;> rfl

theorem Level.above_le_layer {floor : Level} {op : BinaryOp} :
    floor.above ≤ op.layer ↔ floor < op.level := by
  cases floor <;> cases op <;> decide

theorem BinaryOp.layer_le_layer {op op' : BinaryOp} :
    op.layer ≤ op'.layer ↔ op.level ≤ op'.level := by
  cases op <;> cases op' <;> decide

theorem BinaryOp.rank_level (op : BinaryOp) : op.level.rank = op.layer.rank + 1 := by
  cases op <;> rfl

theorem BinaryOp.not_unary_le_layer (op : BinaryOp) : ¬ Layer.unary ≤ op.layer := by
  cases op <;> decide

theorem Level.not_le {a b : Level} : ¬ a ≤ b ↔ b < a := Nat.not_le

theorem Level.above_le_unary (level : Level) : level.above ≤ .unary := by
  cases level <;> decide

theorem BinaryOp.lowest_lt_level (op : BinaryOp) : Level.lowest < op.level := by
  cases op <;> decide

/-- A row of digits has a value exactly if some 64-bit integer equals it. -/
theorem Parse.intValue?_eq_some_iff {digits : String} {value : Int64} :
    intValue? digits = some value ↔ value.toInt = Nat.ofDigitChars 10 digits.toList 0 := by
  generalize hn : Nat.ofDigitChars 10 digits.toList 0 = n
  have small : (n : Int) ≤ Int64.maxValue.toInt → (Int64.ofNat n).toInt = n := fun h =>
    Int64.toInt_ofNat_of_lt (by rw [Int64.toInt_maxValue] at h; omega)
  simp only [intValue?, hn]
  constructor
  · intro h
    split at h
    · rename_i le
      cases h
      exact small le
    · cases h
  · intro h
    have le : (n : Int) ≤ Int64.maxValue.toInt := h ▸ Int64.toInt_le value
    rw [if_pos le]
    exact congrArg some (Int64.toInt_inj.1 ((small le).trans h.symm))

namespace Parse

/-- `Pending floor outer seen n`: the frames `outer` hold the tokens `seen`, and wait for an operand
of the layer `n`. -/
inductive Pending (floor : Level) : List Frame → List Token → Layer → Prop
  | nil : Pending floor [] [] floor.above
  | unary {outer : List Frame} {seen : List Token} {n : Layer} {t : Token} {op : UnaryOp}
      (h : Pending floor outer seen n) (sign : UnaryOp.ofKind? t.kind = some op) :
      Pending floor (.unary t op :: outer) (seen ++ [t]) .unary
  | binary {outer : List Frame} {seen ts : List Token} {n : Layer} {l : Expr} {t : Token}
      {op : BinaryOp} (h : Pending floor outer seen n) (left : Derives op.layer ts l)
      (fits : n ≤ op.layer) (sign : BinaryOp.ofKind? t.kind = some op) :
      Pending floor (.binary l t op :: outer) (seen ++ ts ++ [t]) op.layer.next
  | paren {outer : List Frame} {seen : List Token} {n : Layer} {t : Token}
      (h : Pending floor outer seen n) (opens : t.kind = .lparen) :
      Pending floor (.paren :: outer) (seen ++ [t]) .equality

variable {floor : Level} {outer : List Frame} {seen ts us : List Token} {n : Layer} {e : Expr}
  {t : Token} {r : Reading}

/-- No frame waits for an operand that a unary operation could not be. -/
theorem Pending.le_unary (h : Pending floor outer seen n) : n ≤ .unary := by
  cases h with
  | nil => exact floor.above_le_unary
  | unary => decide
  | @binary _ _ _ _ _ _ op => cases op <;> decide
  | paren => decide

/-- Frames that `close` has left: none, or an innermost one that does not hold its operand at the
level `least` or tighter. -/
def Closed (least : Level) : List Frame → Prop
  | [] => True
  | .unary .. :: _ => False
  | .binary _ _ op :: _ => op.level < least
  | .paren :: _ => True

theorem closed_close (least : Level) (e : Expr) (outer : List Frame) :
    Closed least (close least e outer).2 := by
  induction outer generalizing e with
  | nil => trivial
  | cons f outer ih =>
    cases f with
    | unary t op => exact ih _
    | binary l t op =>
      by_cases h : least ≤ op.level
      · simpa only [close, h, if_true] using ih _
      · simp only [close, h, if_false]
        exact Level.not_le.1 h
    | paren => trivial

/-- Closing frames moves tokens from the frames to the operand. If the operand could be an operand
at the layer `k`, and so could every operation that is closed, the result can. -/
theorem Pending.close (least : Level) {k m : Layer} (h : Pending floor outer seen n)
    (he : Derives m us e) (fits : n ≤ m) (hm : k ≤ m) (hu : k ≤ .unary)
    (hk : ∀ op : BinaryOp, least ≤ op.level → k ≤ op.layer) :
    ∃ seen' us' n', seen ++ us = seen' ++ us' ∧
      Pending floor (close least e outer).2 seen' n' ∧
      Derives n' us' (close least e outer).1 ∧ Derives k us' (close least e outer).1 := by
  induction h generalizing m us e with
  | nil => exact ⟨[], us, _, rfl, .nil, he.mono fits, he.mono hm⟩
  | @unary _ seen _ t op h sign ih =>
    obtain ⟨seen', us', n', split, rest⟩ := ih (.unary sign (he.mono fits)) h.le_unary hu
    exact ⟨seen', us', n', by simpa using split, rest⟩
  | @binary _ seen ts _ l t op h left fits' sign ih =>
    by_cases hl : least ≤ op.level
    · obtain ⟨seen', us', n', split, rest⟩ := ih (.binary left sign (he.mono fits)) fits' (hk op hl)
      simp only [Parse.close, hl, if_true]
      exact ⟨seen', us', n', by simpa using split, rest⟩
    · simp only [Parse.close, hl, if_false]
      exact ⟨_, us, _, rfl, .binary h left fits' sign, he.mono fits, he.mono hm⟩
  | paren h opens => exact ⟨_, us, _, rfl, .paren h opens, he.mono fits, he.mono hm⟩

/-- The invariant of a reading that has seen the tokens `ts`. -/
def Reading.Reads (floor : Level) (ts : List Token) : Reading → Prop
  | .operandDue outer => ∃ n, Pending floor outer ts n
  | .operandRead e outer => ∃ seen us n, ts = seen ++ us ∧ Pending floor outer seen n ∧
      Derives .primary us e

theorem Pending.operandStep (h : Pending floor outer ts n) (step : operandStep outer t = .ok r) :
    r.Reads floor (ts ++ [t]) := by
  simp only [Parse.operandStep] at step
  split at step
  · rename_i kind
    cases step
    exact ⟨ts, [t], n, rfl, h, .ident kind⟩
  · rename_i kind
    split at step
    · rename_i value hv
      cases step
      exact ⟨ts, [t], n, rfl, h, .int kind (intValue?_eq_some_iff.1 hv)⟩
    · cases step
  · rename_i kind
    cases step
    exact ⟨_, .paren h kind⟩
  · split at step
    · rename_i op sign
      cases step
      exact ⟨_, .unary h sign⟩
    · cases step

/-- Tokens that an expression above `floor` is not followed by: operators that would join it. -/
def Stops (floor : Level) (rest : List Token) : Prop :=
  ∀ t ∈ rest.head?, ∀ op ∈ BinaryOp.ofKind? t.kind, ¬ floor < op.level

/-- What the invariant makes of a token after an operand. -/
theorem Reading.Reads.operatorStep (h : (Reading.operandRead e outer).Reads floor ts) :
    match operatorStep floor e outer t with
    | .more r => r.Reads floor (ts ++ [t])
    | .complete e => Derives floor.above ts e ∧ Stops floor [t]
    | .fault _ => True := by
  obtain ⟨seen, us, n, rfl, pending, operand⟩ := h
  simp only [Parse.operatorStep]
  cases sign : BinaryOp.ofKind? t.kind with
  | some op =>
    obtain ⟨seen', us', n', split, pending', fit, left⟩ :=
      pending.close op.level (k := op.layer) operand (Layer.le_primary _) (Layer.le_primary _)
        (by cases op <;> decide) fun _ => BinaryOp.layer_le_layer.2
    have closed := closed_close op.level e outer
    rw [split]
    dsimp only
    generalize close op.level e outer = c at *
    obtain ⟨e', outer'⟩ := c
    dsimp only at *
    cases outer' with
    | nil =>
      cases pending'
      by_cases tighter : floor < op.level
      · simp only [tighter, if_true]
        exact ⟨_, .binary .nil left (Level.above_le_layer.2 tighter) sign⟩
      · simp only [tighter, if_false]
        refine ⟨fit, ?_⟩
        simpa [Stops, sign] using tighter
    | cons f outer' =>
      refine ⟨_, .binary pending' left ?_ sign⟩
      cases pending' with
      | unary => exact absurd closed id
      | @binary _ _ _ _ _ _ op' =>
        rw [← BinaryOp.above_level op']
        exact Level.above_le_layer.2 closed
      | paren => exact Layer.equality_le _
  | none =>
    obtain ⟨seen', us', n', split, pending', fit, -⟩ :=
      pending.close .lowest (k := .equality) operand (Layer.le_primary _) (Layer.le_primary _)
        (by decide) fun _ _ => Layer.equality_le _
    have closed := closed_close .lowest e outer
    rw [split]
    dsimp only
    generalize close .lowest e outer = c at *
    obtain ⟨e', outer'⟩ := c
    dsimp only at *
    cases pending' with
    | nil => exact ⟨fit, by simp [Stops, sign]⟩
    | unary => exact absurd closed id
    | binary => exact absurd closed (Nat.not_lt_zero _)
    | paren h opens =>
      by_cases closes : t.kind = .rparen
      · simp only [closes, if_true]
        exact ⟨_, _, _, by simp, h, .group opens fit closes⟩
      · simp only [closes, if_false]

theorem Reading.Reads.finish (h : r.Reads floor ts) (done : r.finish = .ok e) :
    Derives floor.above ts e := by
  cases r with
  | operandDue outer => cases done
  | operandRead e' outer =>
    obtain ⟨seen, us, n, rfl, pending, operand⟩ := h
    obtain ⟨seen', us', n', split, pending', fit, -⟩ :=
      pending.close .lowest (k := .equality) operand (Layer.le_primary _) (Layer.le_primary _)
        (by decide) fun _ _ => Layer.equality_le _
    rw [split]
    simp only [Reading.finish] at done
    split at done
    · rename_i hc
      rw [hc] at pending' fit
      cases done
      cases pending'
      exact fit
    · cases done

/-- What a run over the tokens `us` may return when the tokens `ts` have been seen: an expression
that the grammar derives from what was seen and read, with the tokens behind it; or a fault, with
the tokens from the offending one on. No semicolon is read on the way to a fault. -/
def Outcome (floor : Level) (ts us : List Token) :
    Except (Fault × List Token) (Expr × List Token) → Prop
  | .ok (e, rest) => ∃ read, us = read ++ rest ∧ Derives floor.above (ts ++ read) e ∧
      Stops floor rest
  | .error (_, rest) => ∃ read, us = read ++ rest ∧ ∀ t ∈ read, t.kind ≠ .semicolon

theorem Outcome.cons {result : Except (Fault × List Token) (Expr × List Token)}
    (h : Outcome floor (ts ++ [t]) us result) (ht : t.kind ≠ .semicolon) :
    Outcome floor ts (t :: us) result := by
  match result, h with
  | .ok (e, rest), ⟨read, split, derived, stops⟩ =>
    exact ⟨t :: read, by rw [split]; rfl, by simpa using derived, stops⟩
  | .error (f, rest), ⟨read, split, clean⟩ =>
    exact ⟨t :: read, by rw [split]; rfl, List.forall_mem_cons.2 ⟨ht, clean⟩⟩

theorem Reading.Reads.run (h : r.Reads floor ts) : Outcome floor ts us (r.run floor us) := by
  induction us generalizing ts r with
  | nil =>
    cases hf : r.finish with
    | ok e =>
      have done : Reading.run floor r [] = .ok (e, []) := by
        cases r <;> simp only [Reading.run, hf]
      rw [done]
      exact ⟨[], rfl, by simpa using h.finish hf, by simp [Stops]⟩
    | error f =>
      have done : Reading.run floor r [] = .error (f, []) := by
        cases r <;> simp only [Reading.run, hf]
      rw [done]
      exact ⟨[], rfl, by simp⟩
  | cons t us ih =>
    cases r with
    | operandDue outer =>
      obtain ⟨n, pending⟩ := h
      simp only [Reading.run]
      cases hs : Parse.operandStep outer t with
      | ok r =>
        exact (ih (pending.operandStep hs)).cons fun ht => by simp [operandStep_semicolon ht] at hs
      | error f => exact ⟨[], rfl, by simp⟩
    | operandRead e outer =>
      have step := h.operatorStep (t := t)
      simp only [Reading.run]
      cases hs : Parse.operatorStep floor e outer t with
      | more r =>
        rw [hs] at step
        exact (ih step).cons fun ht => operatorStep_semicolon ht r hs
      | complete e =>
        rw [hs] at step
        exact ⟨[], rfl, by simpa using step.1, by simpa [Stops] using step.2⟩
      | fault f => exact ⟨[], rfl, by simp⟩

/-- Reading an expression above `floor` from the head of `ts`. -/
theorem expression_outcome (floor : Level) (ts : List Token) :
    Outcome floor [] ts (expression floor ts) :=
  Reading.Reads.run (r := .operandDue []) ⟨_, .nil⟩

end Parse

end MonkeyFrontEnd
