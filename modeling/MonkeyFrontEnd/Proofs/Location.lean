import Mathlib.Algebra.GroupWithZero.Nat
import MonkeyFrontEnd.Position
import MonkeyFrontEnd.Text.Bytes

/-!
# Where a byte offset lies

What stands before a place in a text is a number of whole lines and the beginning of one more
(`Text.exists_ended_append`), and the position of the place says how many lines these are and how
many characters that beginning has (`Position.ofOffset_ended_append`). The lines and the beginning
can be found again in the text divided at its line feeds (`Text.splitOn_ended_append`), so a
position names one place only, and every position within the lines of the text names one
(`Position.ofOffset_bijective`). An offset within a character counts as the end of the character.
-/

set_option autoImplicit false

namespace MonkeyFrontEnd

open Text (byteCount)

namespace Text

variable {lines : List (List Char)} {cs ds : List Char}

/-- The byte offset is the place between two characters of the text, or one of its ends. -/
def IsBoundary (source : String) (offset : Nat) : Prop :=
  ∃ before behind, source.toList = before ++ behind ∧ byteCount before = offset

/-- Whole lines as they are written, each with the line feed that ends it. -/
def ended (lines : List (List Char)) : List Char :=
  lines.flatMap (· ++ ['\n'])

theorem ended_cons (line : List Char) (lines : List (List Char)) :
    ended (line :: lines) = line ++ '\n' :: ended lines := by
  simp [ended]

theorem byteCount_ended (lines : List (List Char)) :
    byteCount (ended lines) = (lines.map fun line => byteCount line + 1).sum := by
  induction lines with
  | nil => rfl
  | cons line lines ih =>
    have feed : '\n'.utf8Size = 1 := rfl
    rw [ended_cons, byteCount_append, byteCount_cons, ih, feed, List.map_cons, List.sum_cons]
    omega

/-- Every text consists of whole lines and the beginning of one more. -/
theorem exists_ended_append (cs : List Char) :
    ∃ lines last, cs = ended lines ++ last ∧ (∀ line ∈ lines, '\n' ∉ line) ∧ '\n' ∉ last := by
  induction cs with
  | nil => exact ⟨[], [], rfl, by simp, by simp⟩
  | cons c cs ih =>
    obtain ⟨lines, last, rfl, whole, begun⟩ := ih
    by_cases feed : c = '\n'
    · refine ⟨[] :: lines, last, ?_, List.forall_mem_cons.2 ⟨by simp, whole⟩, begun⟩
      rw [ended_cons, feed]
      rfl
    · have other : '\n' ≠ c := fun same => feed same.symm
      cases lines with
      | nil => exact ⟨[], c :: last, rfl, by simp, by simp [other, begun]⟩
      | cons line lines =>
        obtain ⟨first, whole⟩ := List.forall_mem_cons.1 whole
        refine ⟨(c :: line) :: lines, last, ?_, List.forall_mem_cons.2 ⟨?_, whole⟩, begun⟩
        · simp [ended_cons]
        · simp [other, first]

/-! ### Texts divided at their line feeds -/

theorem splitOn_append (h : '\n' ∉ cs) (ds : List Char) :
    (cs ++ ds).splitOn '\n' = (ds.splitOn '\n').modifyHead (cs ++ ·) := by
  induction cs with
  | nil =>
    rw [List.nil_append]
    cases ds.splitOn '\n' <;> rfl
  | cons c cs ih =>
    rw [List.mem_cons, not_or] at h
    have other : (c == '\n') = false := by simpa using fun same => h.1 same.symm
    rw [List.cons_append, List.splitOn_cons_eq_if_modifyHead, other, ih h.2]
    cases ds.splitOn '\n' <;> rfl

theorem splitOn_ended_append (h : ∀ line ∈ lines, '\n' ∉ line) (cs : List Char) :
    (ended lines ++ cs).splitOn '\n' = lines ++ cs.splitOn '\n' := by
  induction lines with
  | nil => rfl
  | cons line lines ih =>
    obtain ⟨first, others⟩ := List.forall_mem_cons.1 h
    rw [ended_cons, List.append_assoc, List.cons_append,
      List.splitOn_append_cons_self_of_not_mem first, ih others, List.cons_append]

/-- A line that a text has is found behind the lines before it. -/
theorem exists_of_getElem?_splitOn {n : Nat} {line : List Char}
    (h : (cs.splitOn '\n')[n]? = some line) :
    ∃ lines behind, cs = ended lines ++ line ++ behind ∧ lines.length = n ∧
      (∀ line ∈ lines, '\n' ∉ line) ∧ '\n' ∉ line := by
  obtain ⟨lines, last, rfl, whole, begun⟩ := exists_ended_append cs
  rw [splitOn_ended_append whole, List.splitOn_eq_singleton begun] at h
  obtain ⟨inside, rfl⟩ := List.getElem?_eq_some_iff.1 h
  by_cases final : n = lines.length
  · subst final
    refine ⟨lines, [], ?_, rfl, whole, ?_⟩
    · simp
    · simpa using begun
  · have inside : n < lines.length := by
      rw [List.length_append, List.length_singleton] at inside
      omega
    have parts : lines = lines.take n ++ lines[n] :: lines.drop (n + 1) := by simp
    rw [List.getElem_append_left inside]
    refine ⟨lines.take n, '\n' :: (ended (lines.drop (n + 1)) ++ last), ?_, ?_, ?_, ?_⟩
    · conv => lhs; rw [parts, ended, List.flatMap_append, List.flatMap_cons]
      simp [ended]
    · exact List.length_take_of_le (Nat.le_of_lt inside)
    · exact fun line hline => whole line (List.mem_of_mem_take hline)
    · exact whole _ (List.getElem_mem inside)

end Text

namespace Position

variable {p q : Position} {cs as bs : List Char} {lines : List (List Char)} {source : String}

/-- The position comes earlier in a text. -/
def Before (p q : Position) : Prop :=
  p.line < q.line ∨ p.line = q.line ∧ p.column < q.column

theorem Before.trans {r : Position} (h : p.Before q) (h' : q.Before r) : p.Before r := by
  unfold Before at *
  omega

theorem not_before_self (p : Position) : ¬ p.Before p := by
  unfold Before
  omega

theorem before_after (p : Position) (c : Char) : p.Before (p.after c) := by
  unfold Before after
  split
  · exact .inl (Nat.lt_succ_self _)
  · exact .inr ⟨rfl, Nat.lt_succ_self _⟩

theorem before_foldl_after (nonempty : cs ≠ []) : p.Before (cs.foldl after p) := by
  induction cs generalizing p with
  | nil => exact absurd rfl nonempty
  | cons c cs ih =>
    cases cs with
    | nil => exact p.before_after c
    | cons d ds => exact (p.before_after c).trans (ih (List.cons_ne_nil d ds))

/-! ### Positions of places between characters -/

/-- The position of a place is the one after all characters that stand before it. -/
theorem advance_append (p : Position) (as bs : List Char) :
    p.advance (byteCount as) (as ++ bs) = as.foldl after p := by
  induction as generalizing p with
  | nil => cases bs <;> rfl
  | cons a as ih =>
    obtain ⟨n, size⟩ := Nat.exists_eq_succ_of_ne_zero (Nat.ne_of_gt a.utf8Size_pos)
    have count : byteCount (a :: as) = n + byteCount as + 1 := by
      rw [Text.byteCount_cons, size]
      omega
    have left : n + byteCount as + 1 - a.utf8Size = byteCount as := by omega
    rw [count, List.cons_append, advance, left, List.foldl_cons, ih]

theorem foldl_after_of_not_mem (h : '\n' ∉ cs) (p : Position) :
    cs.foldl after p = ⟨p.line, p.column + cs.length⟩ := by
  induction cs generalizing p with
  | nil => rfl
  | cons c cs ih =>
    rw [List.mem_cons, not_or] at h
    have same_line : p.after c = ⟨p.line, p.column + 1⟩ := if_neg fun feed => h.1 feed.symm
    rw [List.foldl_cons, ih h.2, same_line, List.length_cons, Nat.add_assoc, Nat.add_comm 1]

theorem foldl_after_ended (h : ∀ line ∈ lines, '\n' ∉ line) (n : Nat) :
    (Text.ended lines).foldl after ⟨n, 1⟩ = ⟨n + lines.length, 1⟩ := by
  induction lines generalizing n with
  | nil => rfl
  | cons line lines ih =>
    obtain ⟨first, others⟩ := List.forall_mem_cons.1 h
    have next_line : after ⟨n, 1 + line.length⟩ '\n' = ⟨n + 1, 1⟩ := rfl
    rw [Text.ended_cons, List.foldl_append, foldl_after_of_not_mem first, List.foldl_cons,
      next_line, ih others, List.length_cons, Nat.add_assoc, Nat.add_comm 1]

/-- Behind whole lines and the beginning of one more, the position counts them. -/
theorem ofOffset_ended_append {last behind : List Char}
    (split : source.toList = Text.ended lines ++ last ++ behind)
    (whole : ∀ line ∈ lines, '\n' ∉ line) (begun : '\n' ∉ last) :
    ofOffset source (byteCount (Text.ended lines ++ last)) =
      ⟨lines.length + 1, last.length + 1⟩ := by
  rw [ofOffset, split, advance_append, List.foldl_append, first, foldl_after_ended whole,
    foldl_after_of_not_mem begun, Nat.add_comm 1, Nat.add_comm 1]

/-- An offset is taken for the end of the character that it lies in, or for the end of the text if
it lies behind it. -/
theorem exists_advance_eq (p : Position) (offset : Nat) (cs : List Char) :
    ∃ before behind, cs = before ++ behind ∧ p.advance offset cs = before.foldl after p ∧
      (offset ≤ byteCount before ∨ byteCount cs < offset ∧ behind = []) ∧
      ∀ before' behind', cs = before' ++ behind' → offset ≤ byteCount before' →
        byteCount before ≤ byteCount before' := by
  induction cs generalizing p offset with
  | nil =>
    cases offset with
    | zero => exact ⟨[], [], rfl, rfl, .inl (Nat.zero_le _), fun _ _ _ _ => Nat.zero_le _⟩
    | succ offset =>
      exact ⟨[], [], rfl, rfl, .inr ⟨Nat.succ_pos _, rfl⟩, fun _ _ _ _ => Nat.zero_le _⟩
  | cons c cs ih =>
    have size := c.utf8Size_pos
    cases offset with
    | zero => exact ⟨[], c :: cs, rfl, rfl, .inl (Nat.zero_le _), fun _ _ _ _ => Nat.zero_le _⟩
    | succ offset =>
      obtain ⟨before, behind, rfl, position, reached, least⟩ :=
        ih (p.after c) (offset + 1 - c.utf8Size)
      refine ⟨c :: before, behind, rfl, position, ?_, ?_⟩
      · simp only [Text.byteCount_cons]
        rcases reached with reached | ⟨beyond, rfl⟩
        · left
          omega
        · right
          constructor
          · omega
          · rfl
      · intro before' behind' split le
        cases before' with
        | nil => exact absurd le (Nat.not_succ_le_zero offset)
        | cons d before' =>
          obtain ⟨rfl, rest⟩ := List.cons.inj split
          have := least before' behind' rest
          simp only [Text.byteCount_cons] at le ⊢
          omega

/-! ### Positions and places -/

/-- The position locates the place: its line is a stretch of the text between line feeds, its column
is not beyond the end of that line, and so many bytes stand before it, line feeds included. -/
def Locates (p : Position) (source : String) (offset : Nat) : Prop :=
  1 ≤ p.line ∧ 1 ≤ p.column ∧
    ∃ line, (source.toList.splitOn '\n')[p.line - 1]? = some line ∧ p.column - 1 ≤ line.length ∧
      offset = (((source.toList.splitOn '\n').take (p.line - 1)).map fun l => byteCount l + 1).sum +
        byteCount (line.take (p.column - 1))

variable {o o' : Nat}

theorem locates_ofOffset (h : Text.IsBoundary source o) : (ofOffset source o).Locates source o := by
  obtain ⟨before, behind, split, rfl⟩ := h
  obtain ⟨lines, last, rfl, whole, begun⟩ := Text.exists_ended_append before
  have pieces : ∃ rest others, source.toList.splitOn '\n' = lines ++ (last ++ rest) :: others := by
    obtain ⟨rest, others, divided⟩ :=
      List.exists_cons_of_ne_nil (List.splitOn_ne_nil '\n' behind)
    refine ⟨rest, others, ?_⟩
    rw [split, List.append_assoc, Text.splitOn_ended_append whole, Text.splitOn_append begun,
      divided]
    rfl
  obtain ⟨rest, others, pieces⟩ := pieces
  rw [ofOffset_ended_append split whole begun]
  refine ⟨Nat.le_add_left _ _, Nat.le_add_left _ _, last ++ rest, ?_, ?_, ?_⟩
  · simp [pieces]
  · simp
  · simp [pieces, Text.byteCount_ended]

theorem isBoundary_of_locates {p : Position} (h : p.Locates source o) :
    Text.IsBoundary source o ∧ ofOffset source o = p := by
  obtain ⟨line_pos, column_pos, line, found, inside, rfl⟩ := h
  obtain ⟨lines, behind, split, count, whole, begun⟩ := Text.exists_of_getElem?_splitOn found
  have before : (source.toList.splitOn '\n').take (p.line - 1) = lines := by
    rw [split, List.append_assoc, Text.splitOn_ended_append whole, ← count, List.take_left]
  have bytes : (lines.map fun l => byteCount l + 1).sum +
      byteCount (line.take (p.column - 1)) =
      byteCount (Text.ended lines ++ line.take (p.column - 1)) := by
    rw [Text.byteCount_append, Text.byteCount_ended]
  have split : source.toList = Text.ended lines ++ line.take (p.column - 1) ++
      (line.drop (p.column - 1) ++ behind) := by
    rw [split]
    simp only [List.append_assoc]
    rw [← List.append_assoc (line.take _), List.take_append_drop]
  rw [before, bytes]
  constructor
  · exact ⟨_, _, split, rfl⟩
  · rw [ofOffset_ended_append split whole fun feed => begun (List.mem_of_mem_take feed), count,
      List.length_take_of_le inside, Nat.sub_add_cancel line_pos, Nat.sub_add_cancel column_pos]

theorem before_of_lt (h : Text.IsBoundary source o) (h' : Text.IsBoundary source o')
    (lt : o < o') : (ofOffset source o).Before (ofOffset source o') := by
  obtain ⟨before, behind, split, rfl⟩ := h
  obtain ⟨before', behind', split', rfl⟩ := h'
  obtain ⟨more, rfl, -⟩ :=
    Text.exists_eq_append_of_byteCount_le (split.symm.trans split') (Nat.le_of_lt lt)
  have nonempty : more ≠ [] := by
    rintro rfl
    simp at lt
  have position : ofOffset source (byteCount before) = before.foldl after first := by
    rw [ofOffset, split, advance_append]
  have position' : ofOffset source (byteCount (before ++ more)) =
      more.foldl after (before.foldl after first) := by
    rw [ofOffset, split', advance_append, List.foldl_append]
  rw [position, position']
  exact before_foldl_after nonempty

theorem lt_iff_before (h : Text.IsBoundary source o) (h' : Text.IsBoundary source o') :
    o < o' ↔ (ofOffset source o).Before (ofOffset source o') := by
  constructor
  · exact before_of_lt h h'
  · intro before
    rcases Nat.lt_trichotomy o o' with lt | rfl | gt
    · exact lt
    · exact absurd before (not_before_self _)
    · exact absurd (before.trans (before_of_lt h' h gt)) (not_before_self _)

/-- Two places do not have the same position. -/
theorem eq_iff_ofOffset_eq (h : Text.IsBoundary source o) (h' : Text.IsBoundary source o') :
    o = o' ↔ ofOffset source o = ofOffset source o' := by
  constructor
  · exact congrArg _
  · intro same
    have apart : ¬ (ofOffset source o).Before (ofOffset source o') := same ▸ not_before_self _
    have apart' : ¬ (ofOffset source o').Before (ofOffset source o) := same ▸ not_before_self _
    rw [← lt_iff_before h h'] at apart
    rw [← lt_iff_before h' h] at apart'
    omega

/-- **Positions and places.** An offset has the position of the first place between characters that
does not lie before it, or of the end of the text. A place and a position belong together if and
only if the position locates the place: so each place has a position, each position within the lines
of the text belongs to one place, and a later place has a later position. -/
theorem ofOffset_bijective (source : String) :
    (∀ offset, ∃ o, Text.IsBoundary source o ∧
      (offset ≤ o ∨ source.utf8ByteSize < offset ∧ o = source.utf8ByteSize) ∧
      (∀ o', Text.IsBoundary source o' → offset ≤ o' → o ≤ o') ∧
      ofOffset source offset = ofOffset source o) ∧
    (∀ o p, Text.IsBoundary source o ∧ ofOffset source o = p ↔ p.Locates source o) ∧
    ∀ o o', Text.IsBoundary source o → Text.IsBoundary source o' →
      (o < o' ↔ (ofOffset source o).Before (ofOffset source o')) ∧
      (o = o' ↔ ofOffset source o = ofOffset source o') := by
  refine ⟨?_, ?_, ?_⟩
  · intro offset
    obtain ⟨before, behind, split, position, reached, least⟩ :=
      exists_advance_eq first offset source.toList
    refine ⟨byteCount before, ⟨before, behind, split, rfl⟩, ?_, ?_, ?_⟩
    · rcases reached with reached | ⟨beyond, rfl⟩
      · exact .inl reached
      · rw [List.append_nil] at split
        rw [← split, Text.byteCount_toList]
        exact .inr ⟨by rwa [Text.byteCount_toList] at beyond, rfl⟩
    · rintro o' ⟨before', behind', split', rfl⟩ le
      exact least before' behind' split' le
    · rw [ofOffset, position, ofOffset, split, advance_append]
  · intro o p
    constructor
    · rintro ⟨h, rfl⟩
      exact locates_ofOffset h
    · exact isBoundary_of_locates
  · intro o o' h h'
    exact ⟨lt_iff_before h h', eq_iff_ofOffset_eq h h'⟩

/-- The end of the letter is the end of its line, and the line feed leads to the next one. -/
theorem ofOffset_bijective_letter :
    Text.IsBoundary "é\nx" 2 ∧ Text.IsBoundary "é\nx" 3 ∧
      (2 < 3 ↔ (ofOffset "é\nx" 2).Before (ofOffset "é\nx" 3)) ∧
      (2 = 3 ↔ ofOffset "é\nx" 2 = ofOffset "é\nx" 3) ∧
      ofOffset "é\nx" 1 = ⟨1, 2⟩ ∧ ofOffset "é\nx" 2 = ⟨1, 2⟩ ∧ ofOffset "é\nx" 3 = ⟨2, 1⟩ := by
  have letter : Text.IsBoundary "é\nx" 2 := ⟨['é'], ['\n', 'x'], by decide, by decide⟩
  have feed : Text.IsBoundary "é\nx" 3 := ⟨['é', '\n'], ['x'], by decide, by decide⟩
  obtain ⟨order, same⟩ := (ofOffset_bijective "é\nx").2.2 2 3 letter feed
  exact ⟨letter, feed, order, same, by decide, by decide, by decide⟩

end Position

end MonkeyFrontEnd
