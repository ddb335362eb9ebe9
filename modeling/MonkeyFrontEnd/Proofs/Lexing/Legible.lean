import Mathlib.Data.List.Chain
import MonkeyFrontEnd.Proofs.Lexing.Lexemes

/-!
# Lexemes read off their text

A row of lexemes is `Legible` if each is spelled as its shape says and none is extended by the
beginning of the next one. Then the text that they make, split again, is the row
(`split_flatMap_text`). So whoever writes lexemes down has to look at the seams only.
-/

set_option autoImplicit false

namespace MonkeyFrontEnd.Lexeme

variable {shape : Shape} {cs : List Char} {c : Char} {l m : Lexeme} {ls ms : List Lexeme}

/-! ### Characters -/

theorem not_isBlank_of_isWordPart (h : isWordPart c) : isBlank c = false := by
  rw [Bool.eq_false_iff]
  intro blank
  simp only [isBlank, Bool.or_eq_true, decide_eq_true_eq] at blank
  rcases blank with (((rfl | rfl) | rfl) | rfl) | rfl <;> exact absurd h (by decide)

theorem not_isWordStart_of_isDigit (h : c.isDigit) : isWordStart c = false := by
  -- digits come before all letters, and the underscore is none
  have digit : c.val ≤ '9'.val := of_decide_eq_true (Bool.and_eq_true_iff.1 h).2
  have lower : c.isLower = false := by
    have : ¬ c.val ≥ 'a'.val := fun low => absurd (UInt32.le_trans low digit) (by decide)
    exact Bool.and_eq_false_iff.2 (.inl (decide_eq_false this))
  have upper : c.isUpper = false := by
    have : ¬ c.val ≥ 'A'.val := fun low => absurd (UInt32.le_trans low digit) (by decide)
    exact decide_eq_false fun letter => this letter.1
  have underscore : c ≠ '_' := by
    rintro rfl
    exact absurd h (by decide)
  have letter : c.isAlpha = false := Bool.or_eq_false_iff.2 ⟨upper, lower⟩
  simp [isWordStart, letter, underscore]

theorem isWordPart_of_isDigit (h : c.isDigit) : isWordPart c := by
  simp [isWordPart, h]

theorem isWordPart_of_isWordStart (h : isWordStart c) : isWordPart c := by
  simp [isWordPart, h]

theorem Shape.ofChar_of_isWordStart (h : isWordStart c) : ofChar c = .word := by
  simp [ofChar, h, not_isBlank_of_isWordPart (isWordPart_of_isWordStart h)]

theorem Shape.ofChar_of_isDigit (h : c.isDigit) : ofChar c = .number := by
  simp [ofChar, h, not_isBlank_of_isWordPart (isWordPart_of_isDigit h),
    not_isWordStart_of_isDigit h]

/-! ### Single lexemes -/

/-- A text that is spelled as a lexeme is split into that lexeme. -/
theorem split_of_spells (h : shape.Spells cs) : split cs = [⟨shape, cs⟩] := by
  cases shape with
  | blank =>
    obtain ⟨c, rfl, hc⟩ := h
    simp [split, splitFrom, Shape.ofChar, hc]
  | word =>
    obtain ⟨c, r, rfl, hc, hr⟩ := h
    have taken : ∀ d ∈ r, Shape.word.extend? d = some .word := by
      intro d hd
      simp [Shape.extend?, hr d hd]
    rw [split, Shape.ofChar_of_isWordStart hc, splitFrom_of_forall taken]
    rfl
  | number =>
    obtain ⟨nonempty, digits⟩ := h
    obtain ⟨c, r, rfl⟩ := List.exists_cons_of_ne_nil nonempty
    rw [List.forall_mem_cons] at digits
    have taken : ∀ d ∈ r, Shape.number.extend? d = some .number := by
      intro d hd
      simp [Shape.extend?, digits.2 d hd]
    rw [split, Shape.ofChar_of_isDigit digits.1, splitFrom_of_forall taken]
    rfl
  | sign k =>
    obtain ⟨spelled, plain⟩ := h
    obtain ⟨s, hs, rfl⟩ := Option.map_eq_some_iff.1 spelled
    cases k <;> cases hs <;> first | exact absurd plain (by decide) | decide
  | illegal =>
    obtain ⟨c, rfl, hc⟩ := h
    simp [split, splitFrom, hc]

/-! ### Rows -/

/-- The lexeme `l` is not extended by the first character of `m`. -/
def Separate (l m : Lexeme) : Prop :=
  ∀ c ∈ m.text.head?, l.shape.extend? c = none

/-- Characters outside words, but for the equality sign, belong to no lexeme before them. -/
theorem Shape.extend?_eq_none (shape : Shape) (hc : isWordPart c = false) (hc' : c ≠ '=') :
    shape.extend? c = none := by
  have noDigit : c.isDigit = false := by
    rw [Bool.eq_false_iff]
    intro digit
    rw [isWordPart_of_isDigit digit] at hc
    cases hc
  cases shape with
  | word => simp [extend?, hc]
  | number => simp [extend?, noDigit]
  | sign k => cases k <;> simp [extend?, hc']
  | blank => rfl
  | illegal => rfl

theorem separate_of_head (h : m.text.head? = some c) (hc : isWordPart c = false) (hc' : c ≠ '=') :
    Separate l m := by
  intro d hd
  cases h.symm.trans hd
  exact l.shape.extend?_eq_none hc hc'

/-- A row of lexemes that can be read off the text that they make. -/
structure Legible (ls : List Lexeme) : Prop where
  spelled : ∀ l ∈ ls, l.shape.Spells l.text
  separate : ls.IsChain Separate

theorem legible_cons :
    Legible (l :: ls) ↔ l.shape.Spells l.text ∧ (∀ m ∈ ls.head?, Separate l m) ∧ Legible ls := by
  constructor
  · rintro ⟨spelled, separate⟩
    rw [List.forall_mem_cons] at spelled
    rw [List.isChain_cons] at separate
    exact ⟨spelled.1, separate.1, spelled.2, separate.2⟩
  · rintro ⟨first, next, spelled, separate⟩
    exact ⟨List.forall_mem_cons.2 ⟨first, spelled⟩, List.isChain_cons.2 ⟨next, separate⟩⟩

theorem legible_append :
    Legible (ls ++ ms) ↔
      Legible ls ∧ Legible ms ∧ ∀ l ∈ ls.getLast?, ∀ m ∈ ms.head?, Separate l m := by
  constructor
  · rintro ⟨spelled, separate⟩
    rw [List.forall_mem_append] at spelled
    rw [List.isChain_append] at separate
    exact ⟨⟨spelled.1, separate.1⟩, ⟨spelled.2, separate.2.1⟩, separate.2.2⟩
  · rintro ⟨first, second, seam⟩
    exact ⟨List.forall_mem_append.2 ⟨first.spelled, second.spelled⟩,
      List.isChain_append.2 ⟨first.separate, second.separate, seam⟩⟩

/-- A legible row of lexemes is what its text is split into. -/
theorem split_flatMap_text (h : Legible ls) : split (ls.flatMap text) = ls := by
  induction ls with
  | nil => rfl
  | cons l ls ih =>
    obtain ⟨first, next, others⟩ := legible_cons.1 h
    have alone : split l.text = [l] := split_of_spells first
    have stop : ∀ x ∈ (split l.text).getLast?, ∀ c ∈ (ls.flatMap text).head?,
        x.shape.extend? c = none := by
      intro x hx c hc
      rw [alone] at hx
      cases hx
      cases ls with
      | nil => cases hc
      | cons m ms =>
        have nonempty := (others.spelled m List.mem_cons_self).ne_nil
        rw [List.flatMap_cons, List.head?_append_of_ne_nil _ nonempty] at hc
        exact next m rfl c hc
    rw [List.flatMap_cons, split_append stop, alone, ih others]
    rfl

/-! ### The lexemes of a text -/

theorem head?_text_splitFrom {read : List Char} (started : read ≠ []) :
    ∀ l ∈ (splitFrom shape read cs).head?, l.text.head? = read.getLast? := by
  induction cs generalizing shape read with
  | nil => simp [splitFrom]
  | cons c cs ih =>
    rw [splitFrom]
    split
    · intro l hl
      rw [ih (List.cons_ne_nil c read) l hl, List.getLast?_cons_of_ne_nil started]
    · simp

theorem isChain_splitFrom (shape : Shape) (read cs : List Char) :
    (splitFrom shape read cs).IsChain Separate := by
  induction cs generalizing shape read with
  | nil => exact .singleton _
  | cons c cs ih =>
    rw [splitFrom]
    split
    · exact ih _ _
    · rename_i stop
      refine List.isChain_cons.2 ⟨?_, ih _ _⟩
      intro m hm d hd
      have head := head?_text_splitFrom (List.cons_ne_nil c []) m hm
      rw [Option.mem_def.1 hd] at head
      cases head
      exact stop

/-- Splitting a text makes a legible row. -/
theorem legible_split (cs : List Char) : Legible (split cs) where
  spelled _ hl := spells_of_mem_split hl
  separate := by
    cases cs with
    | nil => exact .nil
    | cons c cs => exact isChain_splitFrom _ _ _

end MonkeyFrontEnd.Lexeme
