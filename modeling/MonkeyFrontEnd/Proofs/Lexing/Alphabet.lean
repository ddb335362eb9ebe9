import MonkeyFrontEnd.Proofs.Lexing.Lexemes

/-!
# The characters that tokens consist of

Words, numbers and signs are written with ASCII letters, digits, the underscore and fourteen signs.
What has to be known about such characters is decided for each of them (`forall_isTokenChar`).
-/

set_option autoImplicit false

namespace MonkeyFrontEnd

open Lexeme (Shape)

/-- The characters that words and numbers consist of, and those that signs begin with. -/
def isTokenChar (c : Char) : Bool :=
  isWordPart c || (Token.Kind.ofSign? c).isSome

variable {c : Char} {cs : List Char} {shape : Shape}

theorem lt_of_isWordPart (h : isWordPart c) : c.toNat < 128 := by
  have bounded : ∀ last : Char, last.toNat < 128 → c.val ≤ last.val → c.toNat < 128 :=
    fun last ascii below => Nat.lt_of_le_of_lt (UInt32.le_iff_toNat_le.1 below) ascii
  rcases Bool.or_eq_true_iff.1 h with start | digit
  · rcases Bool.or_eq_true_iff.1 start with letter | underscore
    · rcases Bool.or_eq_true_iff.1 letter with upper | lower
      · exact bounded 'Z' (by decide) (of_decide_eq_true upper).2
      · exact bounded 'z' (by decide) (of_decide_eq_true (Bool.and_eq_true_iff.1 lower).2)
    · rw [of_decide_eq_true underscore]
      decide
  · exact bounded '9' (by decide) (of_decide_eq_true (Bool.and_eq_true_iff.1 digit).2)

theorem lt_of_isTokenChar (h : isTokenChar c) : c.toNat < 128 := by
  rcases Bool.or_eq_true_iff.1 h with word | sign
  · exact lt_of_isWordPart word
  · unfold Token.Kind.ofSign? at sign
    split at sign <;> first | decide | cases sign

/-- What is true of every ASCII character that tokens are written with is true of every character
that they are written with. -/
theorem forall_isTokenChar {P : Char → Prop}
    (each : ∀ n : Fin 128, isTokenChar (Char.ofNat n) → P (Char.ofNat n)) (h : isTokenChar c) :
    P c := by
  have here := each ⟨c.toNat, lt_of_isTokenChar h⟩
  simp only [Char.ofNat_toNat] at here
  exact here h

theorem isBlank_of_isTokenChar (h : isTokenChar c) : isBlank c = false :=
  forall_isTokenChar (P := fun c => isBlank c = false) (by decide) h

theorem ofChar_ne_illegal_of_isTokenChar (h : isTokenChar c) : Shape.ofChar c ≠ .illegal :=
  forall_isTokenChar (P := fun c => Shape.ofChar c ≠ .illegal) (by decide) h

/-- Words, numbers and signs are written with such characters only. -/
theorem Lexeme.Shape.Spells.isTokenChar (h : shape.Spells cs) (visible : shape ≠ .blank)
    (legal : shape ≠ .illegal) : ∀ c ∈ cs, isTokenChar c := by
  intro c hc
  cases shape with
  | blank => exact absurd rfl visible
  | illegal => exact absurd rfl legal
  | word =>
    obtain ⟨d, r, rfl, start, parts⟩ := h
    have part : isWordPart c := by
      rcases List.mem_cons.1 hc with rfl | hc
      · simp [isWordPart, start]
      · exact parts c hc
    simp [MonkeyFrontEnd.isTokenChar, part]
  | number =>
    have digit := h.2 c hc
    simp [MonkeyFrontEnd.isTokenChar, isWordPart, digit]
  | sign k =>
    obtain ⟨spelled, plain⟩ := h
    obtain ⟨s, hs, rfl⟩ := Option.map_eq_some_iff.1 spelled
    revert c
    cases k <;> cases hs <;>
      first | exact absurd plain (by decide) | exact List.all_eq_true.1 rfl

end MonkeyFrontEnd
