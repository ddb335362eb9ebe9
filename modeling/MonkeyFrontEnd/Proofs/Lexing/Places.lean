import Mathlib.Data.List.Basic
import MonkeyFrontEnd.Item
import MonkeyFrontEnd.Proofs.Lexing.Lexemes

/-!
# Where the items of a text stand

The items of a source text stand one behind the other: none is empty, each ends before the next
one begins, and the last one ends before the end of the text.
-/

set_option autoImplicit false

namespace MonkeyFrontEnd

open Text (byteCount)

namespace Item

variable {start : Nat} {l : Lexeme} {ls : List Lexeme} {i : Item}

theorem span_of_item? (h : l.item? start = some i) :
    i.span = ⟨start, start + byteCount l.text⟩ := by
  simp only [Lexeme.item?] at h
  split at h <;> cases h <;> rfl

/-- The items of a row of lexemes stand between its ends. -/
theorem span_of_mem_ofLexemes (nonempty : ∀ l ∈ ls, l.text ≠ []) (h : i ∈ ofLexemes start ls) :
    start ≤ i.span.start ∧ i.span.start < i.span.stop ∧
      i.span.stop ≤ start + byteCount (ls.flatMap Lexeme.text) := by
  induction ls generalizing start with
  | nil => cases h
  | cons l ls ih =>
    rw [List.forall_mem_cons] at nonempty
    have size : byteCount ((l :: ls).flatMap Lexeme.text) =
        byteCount l.text + byteCount (ls.flatMap Lexeme.text) := by
      rw [List.flatMap_cons, Text.byteCount_append]
    rw [ofLexemes, List.mem_append] at h
    rcases h with h | h
    · have place := span_of_item? (Option.mem_toList.1 h)
      obtain ⟨c, cs, hc⟩ := List.exists_cons_of_ne_nil nonempty.1
      have positive : 0 < byteCount l.text := hc ▸ Text.byteCount_pos
      rw [place]
      simp only
      omega
    · have := ih nonempty.2 h
      omega

theorem pairwise_ofLexemes (start : Nat) (nonempty : ∀ l ∈ ls, l.text ≠ []) :
    (ofLexemes start ls).Pairwise fun i j => i.span.stop ≤ j.span.start := by
  induction ls generalizing start with
  | nil => exact .nil
  | cons l ls ih =>
    rw [List.forall_mem_cons] at nonempty
    rw [ofLexemes, List.pairwise_append]
    refine ⟨?_, ih _ nonempty.2, ?_⟩
    · cases l.item? start <;> simp
    · intro i hi j hj
      have place := span_of_item? (Option.mem_toList.1 hi)
      have := (span_of_mem_ofLexemes nonempty.2 hj).1
      rw [place]
      exact this

theorem text_ne_nil_of_mem_split (cs : List Char) : ∀ l ∈ Lexeme.split cs, l.text ≠ [] :=
  fun _ hl => (Lexeme.spells_of_mem_split hl).ne_nil

theorem span_of_mem_ofSource {source : String} (h : i ∈ ofSource source) :
    i.span.start < i.span.stop ∧ i.span.stop ≤ source.utf8ByteSize := by
  have := (span_of_mem_ofLexemes (text_ne_nil_of_mem_split _) h).2
  rw [Lexeme.flatMap_text_split, Text.byteCount_toList, Nat.zero_add] at this
  exact this

theorem pairwise_ofSource (source : String) :
    (ofSource source).Pairwise fun i j => i.span.stop ≤ j.span.start :=
  pairwise_ofLexemes 0 (text_ne_nil_of_mem_split _)

/-- Two items stand apart, the one or the other first. -/
theorem apart {source : String} {i j : Item} (hi : i ∈ ofSource source) (hj : j ∈ ofSource source)
    (different : i ≠ j) : i.span.stop ≤ j.span.start ∨ j.span.stop ≤ i.span.start := by
  obtain ⟨before, behind, split⟩ := List.append_of_mem hi
  have sorted := pairwise_ofSource source
  rw [split] at hj sorted
  obtain ⟨-, onward, backward⟩ := List.pairwise_append.1 sorted
  rcases List.mem_append.1 hj with hj | hj
  · exact .inr (backward j hj i List.mem_cons_self)
  · rcases List.mem_cons.1 hj with rfl | hj
    · exact absurd rfl different
    · exact .inl ((List.pairwise_cons.1 onward).1 j hj)

end Item

namespace IllegalChar

variable {source : String} {e : IllegalChar}

theorem mem_ofSource : e ∈ ofSource source ↔ .illegal e ∈ Item.ofSource source := by
  rw [ofSource, List.mem_filterMap]
  constructor
  · rintro ⟨i, hi, he⟩
    cases i <;> cases he
    exact hi
  · intro h
    exact ⟨_, h, rfl⟩

theorem span_of_mem_ofSource (h : e ∈ ofSource source) :
    e.span.start < e.span.stop ∧ e.span.stop ≤ source.utf8ByteSize :=
  Item.span_of_mem_ofSource (mem_ofSource.1 h)

theorem pairwise_ofSource (source : String) :
    (ofSource source).Pairwise fun e e' => e.span.stop ≤ e'.span.start := by
  rw [ofSource, List.pairwise_filterMap]
  refine (Item.pairwise_ofSource source).imp ?_
  intro i j before e he e' he'
  cases i <;> cases he
  cases j <;> cases he'
  exact before

end IllegalChar

namespace Token

variable {source : String} {t : Token}

theorem mem_ofSource : t ∈ ofSource source ↔ .token t ∈ Item.ofSource source := by
  rw [ofSource, List.mem_filterMap]
  constructor
  · rintro ⟨i, hi, ht⟩
    cases i <;> cases ht
    exact hi
  · intro h
    exact ⟨_, h, rfl⟩

theorem span_of_mem_ofSource (h : t ∈ ofSource source) :
    t.span.start < t.span.stop ∧ t.span.stop ≤ source.utf8ByteSize :=
  Item.span_of_mem_ofSource (mem_ofSource.1 h)

theorem pairwise_ofSource (source : String) :
    (ofSource source).Pairwise fun t u => t.span.stop ≤ u.span.start := by
  rw [ofSource, List.pairwise_filterMap]
  refine (Item.pairwise_ofSource source).imp ?_
  intro i j before t ht u hu
  cases i <;> cases ht
  cases j <;> cases hu
  exact before

/-- The tokens of a source text, and the token at its end. -/
def stream (source : String) : List Token :=
  ofSource source ++ [ofEnd source]

theorem mem_ofSource_of_split {before behind : List Token} {u : Token}
    (h : stream source = before ++ t :: behind) (hu : u ∈ before) : u ∈ ofSource source := by
  have tokens : (stream source).dropLast = ofSource source := List.dropLast_concat
  rw [← tokens, h, List.dropLast_append_of_ne_nil (List.cons_ne_nil t behind)]
  exact List.mem_append_left _ hu

theorem eq_ofEnd_of_split {before : List Token} (h : stream source = before ++ [t]) :
    ofEnd source = t :=
  List.singleton_inj.1 (List.append_inj' h rfl).2

/-- No two tokens begin at the same place, the one at the end of the text included. -/
theorem pairwise_start (source : String) :
    (ofSource source ++ [ofEnd source]).Pairwise fun t u => t.span.start < u.span.start := by
  rw [List.pairwise_append]
  refine ⟨?_, List.pairwise_singleton _ _, ?_⟩
  · refine (pairwise_ofSource source).imp_of_mem ?_
    intro t u ht _ before
    have := (span_of_mem_ofSource ht).1
    omega
  · intro t ht u hu
    rw [List.mem_singleton.1 hu]
    have := span_of_mem_ofSource ht
    simp only [ofEnd, endAt]
    omega

/-- A token of the stream, and what stands on its two sides, can be told from where it begins. -/
theorem stream_split_unique {before before' behind behind' : List Token} {u : Token}
    (h : stream source = before ++ t :: behind) (h' : stream source = before' ++ u :: behind')
    (same : t.span.start = u.span.start) : before = before' ∧ t = u ∧ behind = behind' := by
  have sorted : (before ++ t :: behind).Pairwise fun t u => t.span.start < u.span.start := by
    rw [← h]
    exact pairwise_start source
  obtain ⟨-, onward, backward⟩ := List.pairwise_append.1 sorted
  have not_before : u ∉ before := fun hu => by
    have := backward u hu t List.mem_cons_self
    omega
  have not_behind : u ∉ behind := fun hu => by
    have := (List.pairwise_cons.1 onward).1 u hu
    omega
  exact (List.append_cons_inj_of_notMem not_before not_behind).1 (h.symm.trans h')

/-- An illegal character ends before a token if it begins before it. -/
theorem stop_le_start_iff {e : IllegalChar} (he : e ∈ IllegalChar.ofSource source)
    (ht : t ∈ stream source) : e.span.stop ≤ t.span.start ↔ e.span.start < t.span.start := by
  have size := IllegalChar.span_of_mem_ofSource he
  rcases List.mem_append.1 ht with ht | ht
  · have length := (span_of_mem_ofSource ht).1
    have apart := Item.apart (IllegalChar.mem_ofSource.1 he) (mem_ofSource.1 ht) nofun
    simp only [Item.span] at apart
    omega
  · rw [List.mem_singleton.1 ht]
    simp only [ofEnd, endAt]
    omega

end Token

/-! ### What the stream consists of -/

theorem Item.filterMap_token?_stream (source : String) :
    (stream source).filterMap token? = Token.stream source := by
  rw [stream, List.filterMap_append]
  rfl

theorem Item.filterMap_illegal?_stream (source : String) :
    (stream source).filterMap illegal? = IllegalChar.ofSource source := by
  rw [stream, List.filterMap_append]
  exact List.append_nil _

end MonkeyFrontEnd
