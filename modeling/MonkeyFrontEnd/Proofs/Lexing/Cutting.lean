import MonkeyFrontEnd.Proofs.Lexing.Joining
import MonkeyFrontEnd.Proofs.Lexing.Tiling

/-!
# Where a text may be cut

A text may be cut between two of its characters and its parts read apart, exactly if no token
reaches across the cut (`Item.stream_append_iff`). Items that stand on one side of the cut each are
divided by it (`Item.exists_append_of_apart`), and the items on either side tile their part: an item
that ends at the cut is whole there as it was in front of further characters (`Item.Tiles.take`),
and what follows it does not look back (`Item.Tiles.drop`). A part has one tiling only.
-/

set_option autoImplicit false

namespace MonkeyFrontEnd

open Text (byteCount)

/-- The offset lies inside the span, behind its start and before its end. -/
def Span.ReachesAcross (offset : Nat) (s : Span) : Prop :=
  s.start < offset ∧ offset < s.stop

namespace Item

variable {start cut : Nat} {front cs : List Char} {i : Item} {gone items : List Item}
  {next next' : Option Char}

/-! ### Items on the two sides of a cut -/

/-- An item that is whole in front of a character is whole at the end of the text as well. -/
theorem Whole.mono (h : i.Whole next) (fewer : ∀ c ∈ next', c ∈ next) : i.Whole next' := by
  cases h with
  | token spelled ends => exact .token spelled fun c hc => ends c (fewer c hc)
  | illegal single visible stray => exact .illegal single visible stray

/-- An item that ends with `front` or before stands in `front`. -/
theorem StandsIn.of_append_right (h : i.StandsIn start (front ++ cs))
    (ended : i.span.stop ≤ start + byteCount front) : i.StandsIn start front := by
  obtain ⟨before, behind, split, place, whole⟩ := h
  have le : byteCount (before ++ i.text) ≤ byteCount front := by
    rw [place] at ended
    rw [Text.byteCount_append]
    simp only at ended
    omega
  obtain ⟨more, rfl, rfl⟩ := Text.exists_eq_append_of_byteCount_le split.symm le
  refine ⟨before, more, rfl, place, ?_⟩
  apply whole.mono
  intro c hc
  cases more with
  | nil => cases hc
  | cons d more => exact hc

/-- The items of a tiling up to `front` tile it, if the others begin behind it. -/
theorem Tiles.take (h : Tiles start (front ++ cs) (gone ++ items))
    (ended : ∀ i ∈ gone, i.span.stop ≤ start + byteCount front)
    (later : ∀ i ∈ items, start + byteCount front ≤ i.span.start) : Tiles start front gone where
  stand i hi := (h.stand i (List.mem_append_left _ hi)).of_append_right (ended i hi)
  ordered := (List.pairwise_append.1 h.ordered).1
  covered before c behind split := by
    have whole : front ++ cs = before ++ c :: (behind ++ cs) := by simp [split]
    rcases h.covered _ c _ whole with hc | ⟨i, hi, cover⟩
    · exact .inl hc
    · rcases List.mem_append.1 hi with hi | hi
      · exact .inr ⟨i, hi, cover⟩
      · -- the character stands in `front`, where none of these items begins
        have positive : 0 < byteCount (c :: behind) := Text.byteCount_pos
        have := later i hi
        rw [split, Text.byteCount_append] at this
        omega

/-- A single character does not reach across a cut between characters. -/
theorem StandsIn.apart_of_illegal {e : IllegalChar}
    (h : (Item.illegal e).StandsIn start (front ++ cs)) :
    e.span.stop ≤ start + byteCount front ∨ start + byteCount front ≤ e.span.start := by
  obtain ⟨before, behind, split, place, whole⟩ := h
  have place : e.span = ⟨start + byteCount before,
    start + byteCount before + byteCount e.text.toList⟩ := place
  cases whole with
  | @illegal e c single =>
    rw [text, single, List.append_assoc] at split
    rw [place, single]
    by_cases le : byteCount front ≤ byteCount before
    · exact .inr (Nat.add_le_add_left le start)
    · obtain ⟨more, rfl, rest⟩ :=
        Text.exists_eq_append_of_byteCount_le split.symm (Nat.le_of_not_le le)
      cases more with
      | nil => simp at le
      | cons d more =>
        cases rest
        simp only [Text.byteCount_append, Text.byteCount_cons, Text.byteCount_nil]
        omega

/-- Items in order that stand on one side of the cut each are divided by it. -/
theorem exists_append_of_apart (ordered : items.Pairwise fun i j => i.span.stop ≤ j.span.start)
    (nonempty : ∀ i ∈ items, i.span.start < i.span.stop)
    (apart : ∀ i ∈ items, i.span.stop ≤ cut ∨ cut ≤ i.span.start) :
    ∃ gone left, items = gone ++ left ∧ (∀ i ∈ gone, i.span.stop ≤ cut) ∧
      ∀ i ∈ left, cut ≤ i.span.start := by
  induction items with
  | nil => exact ⟨[], [], rfl, by simp, by simp⟩
  | cons i items ih =>
    obtain ⟨behind, ordered⟩ := List.pairwise_cons.1 ordered
    obtain ⟨here, nonempty⟩ := List.forall_mem_cons.1 nonempty
    obtain ⟨side, apart⟩ := List.forall_mem_cons.1 apart
    rcases side with ended | later
    · obtain ⟨gone, left, rfl, ends, begins⟩ := ih ordered nonempty apart
      exact ⟨i :: gone, left, rfl, List.forall_mem_cons.2 ⟨ended, ends⟩, begins⟩
    · have all_later : ∀ j ∈ items, cut ≤ j.span.start := by
        intro j hj
        have := behind j hj
        omega
      exact ⟨[], i :: items, rfl, by simp, List.forall_mem_cons.2 ⟨later, all_later⟩⟩

/-! ### Reading the parts of a text -/

variable {a b : String}

/-- The items of a text that none of them reaches across the cut are those of its parts. -/
theorem ofSource_append_of_apart
    (apart : ∀ i ∈ ofSource (a ++ b),
      i.span.stop ≤ a.utf8ByteSize ∨ a.utf8ByteSize ≤ i.span.start) :
    ofSource (a ++ b) = ofSource a ++ (ofSource b).map (shift a.utf8ByteSize) := by
  obtain ⟨gone, left, split, ended, later⟩ := exists_append_of_apart (pairwise_ofSource (a ++ b))
    (fun i hi => (span_of_mem_ofSource hi).1) apart
  have size : a.utf8ByteSize = 0 + byteCount a.toList := by
    rw [Nat.zero_add, Text.byteCount_toList]
  have tiles : Tiles 0 (a.toList ++ b.toList) (gone ++ left) := by
    rw [← String.toList_append, ← split]
    exact tiles_ofSource (a ++ b)
  have front : gone = ofSource a := tiles_iff.1 (tiles.take (size ▸ ended) (size ▸ later))
  have behind : left = (ofSource b).map (shift a.utf8ByteSize) := by
    rw [tiles_iff.1 (tiles.drop (size ▸ ended) (size ▸ later)), ← Text.byteCount_toList,
      ofLexemes_add]
    rfl
  rw [split, front, behind]

theorem shift_ofEnd (a b : String) :
    (Item.token (.ofEnd b)).shift a.utf8ByteSize = .token (.ofEnd (a ++ b)) := by
  rw [Token.ofEnd, Token.ofEnd, String.utf8ByteSize_append, Nat.add_comm]
  rfl

theorem span_shift (n : Nat) (i : Item) : (i.shift n).span = i.span.shift n := by
  cases i <;> rfl

/-- Items of two texts in a row do not reach across the place where the second one begins. -/
theorem apart_of_mem_append
    (h : i ∈ ofSource a ++ (stream b).map (shift a.utf8ByteSize)) :
    i.span.stop ≤ a.utf8ByteSize ∨ a.utf8ByteSize ≤ i.span.start := by
  rcases List.mem_append.1 h with h | h
  · exact .inl (span_of_mem_ofSource h).2
  · obtain ⟨j, -, rfl⟩ := List.mem_map.1 h
    rw [span_shift]
    exact .inr (Nat.le_add_left _ _)

/-- If no token reaches across a cut, no item does: the others are single characters. -/
theorem apart_of_tokens
    (clear : ∀ t, .token t ∈ ofSource (a ++ b) → ¬ t.span.ReachesAcross a.utf8ByteSize) :
    ∀ i ∈ ofSource (a ++ b), i.span.stop ≤ a.utf8ByteSize ∨ a.utf8ByteSize ≤ i.span.start := by
  intro i hi
  cases i with
  | token t =>
    have := clear t hi
    simp only [Span.ReachesAcross] at this
    simp only [Item.span]
    omega
  | illegal e =>
    have stands := (tiles_ofSource (a ++ b)).stand _ hi
    rw [String.toList_append] at stands
    have := stands.apart_of_illegal
    rwa [Nat.zero_add, Text.byteCount_toList] at this

/-- **Cutting a text.** Wherever a text is cut between two characters, the items read of it are
those of the part before the cut, without its end, and then those of the part behind the cut and its
end, moved to where they stand, if and only if no token reaches across the cut. -/
theorem stream_append_iff (a b : String) :
    stream (a ++ b) = (stream a).dropLast ++ (stream b).map (shift a.utf8ByteSize) ↔
      ∀ t, .token t ∈ stream (a ++ b) → ¬ t.span.ReachesAcross a.utf8ByteSize := by
  have before : (stream a).dropLast = ofSource a := List.dropLast_concat
  rw [before]
  constructor
  · intro divided t ht
    rw [divided] at ht
    have := apart_of_mem_append ht
    simp only [Item.span] at this
    simp only [Span.ReachesAcross]
    omega
  · intro clear
    have apart := apart_of_tokens fun t ht => clear t (List.mem_append_left _ ht)
    rw [stream, ofSource_append_of_apart apart, stream, List.map_append, List.map_singleton,
      shift_ofEnd, List.append_assoc]

-- cut within its sign, the text is read as one with two signs
example : ((stream "a=").dropLast ++ (stream "=b").map (shift 2)).map span =
    [⟨0, 1⟩, ⟨1, 2⟩, ⟨2, 3⟩, ⟨3, 4⟩, ⟨4, 4⟩] ∧
    (stream "a==b").map span = [⟨0, 1⟩, ⟨1, 3⟩, ⟨3, 4⟩, ⟨4, 4⟩] := by decide

end Item

end MonkeyFrontEnd
