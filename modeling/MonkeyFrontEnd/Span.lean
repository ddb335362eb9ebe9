/-!
# Stretches of a source text

A `Span` is a pair of byte offsets. Nothing forces `start ≤ stop`: spans of hand-made tokens are
whatever their maker wrote.
-/

set_option autoImplicit false

namespace MonkeyFrontEnd

/-- Byte offsets of a stretch of source text, the end not included. -/
structure Span where
  start : Nat
  stop : Nat
  deriving DecidableEq

namespace Span

/-- The span of the same stretch once `n` bytes stand before the text. -/
def shift (n : Nat) (s : Span) : Span :=
  ⟨s.start + n, s.stop + n⟩

@[simp] theorem shift_zero (s : Span) : s.shift 0 = s := rfl

theorem shift_shift (m n : Nat) (s : Span) : (s.shift m).shift n = s.shift (m + n) := by
  simp [shift, Nat.add_assoc]

end Span

end MonkeyFrontEnd
