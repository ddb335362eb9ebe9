import MonkeyFrontEnd.Proofs.Reading.Soundness

/-!
# Everything that the grammar derives is read

`run_of_derives` follows a derivation through the steps of the machine. Reading the tokens of an
expression leaves an operand and some frames above those that were there before, and closing them
for any operator loose enough to take the whole expression as its left operand gives the tree of
the derivation. What comes behind the expression plays no part until the frames are closed, so the
law holds whatever tokens follow.
-/

set_option autoImplicit false

namespace MonkeyFrontEnd.Parse

open Grammar

/-- The layer of the operand that the innermost frame waits for; above `floor` where there is
none. -/
def hole (floor : Level) : List Frame → Layer
  | [] => floor.above
  | .unary .. :: _ => .unary
  | .binary _ _ op :: _ => op.level.above
  | .paren :: _ => .equality

variable {floor : Level} {outer : List Frame} {ts rest : List Token} {n : Layer} {e : Expr}
  {t : Token}

/-- An operator whose operations may fill the hole closes no frame. -/
theorem close_eq_of_hole_le {op : BinaryOp} (h : hole floor outer ≤ op.layer) :
    close op.level e outer = (e, outer) := by
  cases outer with
  | nil => rfl
  | cons f outer =>
    cases f with
    | unary t op' => exact absurd h op.not_unary_le_layer
    | binary l t op' =>
      have looser : ¬ op.level ≤ op'.level := Level.not_le.2 (Level.above_le_layer.1 h)
      simp only [close, looser, if_false]
    | paren => rfl

/-- An operator behind a left operand that it may take is read into a frame. -/
theorem run_operator {op : BinaryOp} {e' : Expr} {outer' : List Frame}
    (fits : hole floor outer ≤ op.layer)
    (closes : close op.level e' outer' = close op.level e outer)
    (sign : BinaryOp.ofKind? t.kind = some op) :
    Reading.run floor (.operandRead e' outer') (t :: rest) =
      Reading.run floor (.operandDue (.binary e t op :: outer)) rest := by
  rw [close_eq_of_hole_le fits] at closes
  cases outer with
  | nil =>
    have tighter : floor < op.level := Level.above_le_layer.1 fits
    simp [Reading.run, operatorStep, sign, closes, tighter]
  | cons f outer => simp [Reading.run, operatorStep, sign, closes]

theorem operandStep_unary {op : UnaryOp} (sign : UnaryOp.ofKind? t.kind = some op) :
    operandStep outer t = .ok (.operandDue (.unary t op :: outer)) := by
  simp only [operandStep]
  split
  · rename_i kind
    simp [kind, UnaryOp.ofKind?] at sign
  · rename_i kind
    simp [kind, UnaryOp.ofKind?] at sign
  · rename_i kind
    simp [kind, UnaryOp.ofKind?] at sign
  · rw [sign]

/-- Reading the tokens of a derivation comes down to its tree: `outer` is what was unfinished
before, and every level that the layer contains closes what has been added. -/
theorem run_of_derives (floor : Level) (h : Derives n ts e) :
    ∀ outer rest, hole floor outer ≤ n →
      ∃ e' outer', Reading.run floor (.operandDue outer) (ts ++ rest) =
          Reading.run floor (.operandRead e' outer') rest ∧
        ∀ least : Level, least.rank ≤ n.rank + 1 → close least e' outer' = close least e outer := by
  induction h with
  | @binary op t ts us l r left sign right ihl ihr =>
    intro outer rest fits
    have tail : hole floor (.binary l t op :: outer) ≤ op.layer.next := by
      rw [← op.above_level]
      exact Layer.le_refl _
    obtain ⟨e₁, outer₁, runl, closel⟩ := ihl outer (t :: (us ++ rest)) fits
    obtain ⟨e₂, outer₂, runr, closer⟩ := ihr (.binary l t op :: outer) rest tail
    refine ⟨e₂, outer₂, ?_, ?_⟩
    · rw [List.append_assoc, List.cons_append, runl, ← runr]
      exact run_operator fits (closel _ (Nat.le_of_eq op.rank_level)) sign
    · intro least small
      have joins : least ≤ op.level := by
        rw [Level.le_iff, op.rank_level]
        exact small
      have deeper := Layer.le_iff.1 op.layer.le_next
      rw [closer least (by omega)]
      simp only [close, joins, if_true]
  | @next n _ _ _ ih =>
    intro outer rest fits
    obtain ⟨e', outer', run, closes⟩ := ih outer rest (Layer.le_trans fits n.le_next)
    have deeper := Layer.le_iff.1 n.le_next
    exact ⟨e', outer', run, fun least small => closes least (by omega)⟩
  | @unary op t ts e sign operand ih =>
    intro outer rest fits
    obtain ⟨e', outer', run, closes⟩ := ih (.unary t op :: outer) rest (Layer.le_refl _)
    refine ⟨e', outer', ?_, closes⟩
    rw [← run, List.cons_append]
    simp only [Reading.run, operandStep_unary sign]
  | ident kind =>
    intro outer rest fits
    exact ⟨_, outer, by simp [Reading.run, operandStep, kind], fun _ _ => rfl⟩
  | int kind decimal =>
    intro outer rest fits
    refine ⟨_, outer, ?_, fun _ _ => rfl⟩
    simp [Reading.run, operandStep, kind, intValue?_eq_some_iff.2 decimal]
  | @group opening closing ts e opens inner closes ih =>
    intro outer rest fits
    obtain ⟨e', outer', run, closed⟩ := ih (.paren :: outer) (closing :: rest) (Layer.le_refl _)
    refine ⟨e, outer, ?_, fun _ _ => rfl⟩
    have last := closed .lowest (by decide)
    simp [Reading.run, operandStep, opens, run, operatorStep, closes, BinaryOp.ofKind?, last, close]

theorem Level.rank_le_above (floor : Level) : floor.rank ≤ floor.above.rank + 1 := by
  cases floor <;> decide

/-- An expression that no operator above `floor` follows is read to its end and no further. -/
theorem expression_of_derives (h : Derives floor.above ts e) (stops : Stops floor rest) :
    expression floor (ts ++ rest) = .ok (e, rest) := by
  obtain ⟨e', outer', run, closes⟩ := run_of_derives floor h [] rest (Layer.le_refl _)
  rw [expression, run]
  cases rest with
  | nil =>
    have last := closes .lowest (Nat.zero_le _)
    simp [Reading.run, Reading.finish, last, close]
  | cons t rest =>
    cases sign : BinaryOp.ofKind? t.kind with
    | none =>
      have last := closes .lowest (Nat.zero_le _)
      simp [Reading.run, operatorStep, sign, last, close]
    | some op =>
      have looser : ¬ floor < op.level := stops t rfl op sign
      have small := Level.le_iff.1 (Nat.not_lt.1 looser)
      have last := closes op.level (Nat.le_trans small (Level.rank_le_above floor))
      simp [Reading.run, operatorStep, sign, last, close, looser]

end MonkeyFrontEnd.Parse
