import MonkeyFrontEnd.Lexeme

/-!
# The lexemes of a text

What each lexeme consists of (`Shape.Spells`), and how lexemes of texts that are put together come
about: two texts are split separately if the first character of the second does not extend the
last lexeme of the first (`split_append`).
-/

set_option autoImplicit false

namespace MonkeyFrontEnd.Lexeme

open Token (Kind)

/-- The texts that lexemes of the shape have. -/
def Shape.Spells : Shape → List Char → Prop
  | .blank, cs => ∃ c, cs = [c] ∧ isBlank c
  | .word, cs => ∃ c r, cs = c :: r ∧ isWordStart c ∧ ∀ d ∈ r, isWordPart d
  | .number, cs => cs ≠ [] ∧ ∀ c ∈ cs, c.isDigit
  | .sign k, cs => k.spelling?.map String.toList = some cs ∧ k.isKeyword = false
  | .illegal, cs => ∃ c, cs = [c] ∧ Shape.ofChar c = .illegal

variable {shape longer : Shape} {read cs ds : List Char} {c : Char} {l : Lexeme}

theorem Shape.spells_word (hc : isWordStart c) (hcs : cs.all isWordPart) :
    Shape.word.Spells (c :: cs) :=
  ⟨c, cs, rfl, hc, List.all_eq_true.1 hcs⟩

theorem Shape.spells_number (nonempty : cs ≠ []) (digits : cs.all Char.isDigit) :
    Shape.number.Spells cs :=
  ⟨nonempty, List.all_eq_true.1 digits⟩

theorem Shape.spells_ofChar (c : Char) : (Shape.ofChar c).Spells [c] := by
  by_cases hb : isBlank c
  · simp [Shape.ofChar, hb, Spells]
  by_cases hw : isWordStart c
  · simp only [Shape.ofChar, hb, hw]
    exact ⟨c, [], rfl, hw, by simp⟩
  by_cases hd : c.isDigit
  · simp [Shape.ofChar, hb, hw, hd, Spells]
  cases hs : Kind.ofSign? c with
  | none =>
    have illegal : Shape.ofChar c = .illegal := by simp [Shape.ofChar, hb, hw, hd, hs]
    rw [illegal]
    exact ⟨c, rfl, illegal⟩
  | some k =>
    simp only [Shape.ofChar, hb, hw, hd, hs]
    unfold Kind.ofSign? at hs
    split at hs <;> cases hs <;> exact ⟨rfl, rfl⟩

theorem Shape.Spells.extend (h : shape.Spells cs) (he : shape.extend? c = some longer) :
    longer.Spells (cs ++ [c]) := by
  cases shape with
  | word =>
    obtain ⟨hc, rfl⟩ : isWordPart c ∧ Shape.word = longer := by simpa [extend?] using he
    obtain ⟨d, r, rfl, hd, hr⟩ := h
    refine ⟨d, r ++ [c], rfl, hd, ?_⟩
    intro x hx
    rcases List.mem_append.1 hx with hx | hx
    · exact hr x hx
    · exact List.mem_singleton.1 hx ▸ hc
  | number =>
    obtain ⟨hc, rfl⟩ : c.isDigit ∧ Shape.number = longer := by simpa [extend?] using he
    refine ⟨by simp, ?_⟩
    intro x hx
    rcases List.mem_append.1 hx with hx | hx
    · exact h.2 x hx
    · exact List.mem_singleton.1 hx ▸ hc
  | sign k =>
    obtain ⟨spelled, -⟩ := h
    -- only these two signs begin a longer one
    cases k with
    | assign =>
      obtain ⟨rfl, rfl⟩ : c = '=' ∧ Shape.sign .eq = longer := by simpa [extend?] using he
      cases spelled
      exact ⟨rfl, rfl⟩
    | bang =>
      obtain ⟨rfl, rfl⟩ : c = '=' ∧ Shape.sign .notEq = longer := by simpa [extend?] using he
      cases spelled
      exact ⟨rfl, rfl⟩
    | _ => cases he
  | blank => cases he
  | illegal => cases he

theorem spells_of_mem_splitFrom (h : shape.Spells read.reverse) :
    ∀ l ∈ splitFrom shape read cs, l.shape.Spells l.text := by
  induction cs generalizing shape read with
  | nil => simpa [splitFrom] using h
  | cons c cs ih =>
    simp only [splitFrom]
    split
    · rename_i longer he
      exact ih (by simpa using h.extend he)
    · intro l hl
      rcases List.mem_cons.1 hl with rfl | hl
      · exact h
      · exact ih (Shape.spells_ofChar c) l hl

/-- Every lexeme of a text is spelled as its shape says. -/
theorem spells_of_mem_split (h : l ∈ split cs) : l.shape.Spells l.text := by
  cases cs with
  | nil => cases h
  | cons c cs => exact spells_of_mem_splitFrom (Shape.spells_ofChar c) l h

theorem Shape.Spells.ne_nil (h : shape.Spells cs) : cs ≠ [] := by
  rintro rfl
  cases shape with
  | blank => obtain ⟨c, hc, -⟩ := h; cases hc
  | word => obtain ⟨c, r, hc, -⟩ := h; cases hc
  | number => exact h.1 rfl
  | sign k => cases k <;> exact absurd h.1 (by decide)
  | illegal => obtain ⟨c, hc, -⟩ := h; cases hc

/-! ### Splitting what is put together -/

theorem splitFrom_ne_nil (shape : Shape) (read cs : List Char) : splitFrom shape read cs ≠ [] := by
  induction cs generalizing shape read with
  | nil => simp [splitFrom]
  | cons c cs ih =>
    simp only [splitFrom]
    split
    · exact ih _ _
    · exact List.cons_ne_nil _ _

theorem splitFrom_append
    (h : ∀ l ∈ (splitFrom shape read cs).getLast?, ∀ d ∈ ds.head?, l.shape.extend? d = none) :
    splitFrom shape read (cs ++ ds) = splitFrom shape read cs ++ split ds := by
  induction cs generalizing shape read with
  | nil =>
    cases ds with
    | nil => simp [splitFrom, split]
    | cons d ds =>
      have stop : shape.extend? d = none := h ⟨shape, read.reverse⟩ rfl d rfl
      simp [splitFrom, split, stop]
  | cons c cs ih =>
    simp only [splitFrom, List.cons_append] at h ⊢
    split at h
    · rename_i longer he
      exact ih h
    · rename_i he
      rw [List.getLast?_cons_of_ne_nil (splitFrom_ne_nil _ _ _)] at h
      rw [ih h, List.cons_append]

/-- Two texts are split separately if the second one does not extend the last lexeme of the
first. -/
theorem split_append
    (h : ∀ l ∈ (split cs).getLast?, ∀ d ∈ ds.head?, l.shape.extend? d = none) :
    split (cs ++ ds) = split cs ++ split ds := by
  cases cs with
  | nil => rfl
  | cons c cs => exact splitFrom_append h

/-- A lexeme that each character extends without changing its shape takes them all. -/
theorem splitFrom_of_forall (h : ∀ c ∈ cs, shape.extend? c = some shape) :
    splitFrom shape read cs = [⟨shape, read.reverse ++ cs⟩] := by
  induction cs generalizing read with
  | nil => simp [splitFrom]
  | cons c cs ih =>
    rw [List.forall_mem_cons] at h
    simp [splitFrom, h.1, ih h.2]

end MonkeyFrontEnd.Lexeme
