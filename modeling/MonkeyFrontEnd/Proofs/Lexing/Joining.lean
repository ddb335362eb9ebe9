import MonkeyFrontEnd.Item
import MonkeyFrontEnd.Proofs.Lexing.Legible

/-!
# Items of texts that are put together

Where the first character of the second text does not extend the last lexeme of the first one, the
items of the two texts together are those of the first, and those of the second moved behind them
(`Item.ofSource_append`). A semicolon extends nothing and is extended by nothing, so that a text can
always be divided behind one (`Item.ofSource_semicolon`).
-/

set_option autoImplicit false

namespace MonkeyFrontEnd

open Text (byteCount)

namespace Item

variable {a b : String}

theorem ofLexemes_append (start : Nat) (ls ms : List Lexeme) :
    ofLexemes start (ls ++ ms) =
      ofLexemes start ls ++ ofLexemes (start + byteCount (ls.flatMap Lexeme.text)) ms := by
  induction ls generalizing start with
  | nil => rfl
  | cons l ls ih =>
    rw [List.cons_append, ofLexemes, ih, ofLexemes, List.flatMap_cons, Text.byteCount_append,
      Nat.add_assoc, List.append_assoc]

theorem item?_add (start n : Nat) (l : Lexeme) :
    l.item? (start + n) = (l.item? start).map (shift n) := by
  have place : start + n + byteCount l.text = start + byteCount l.text + n := by omega
  obtain ⟨shape, text⟩ := l
  cases shape <;>
    simp only [Lexeme.item?, Lexeme.kind?, place, Option.map_some, Option.map_none] <;> rfl

/-- A row of lexemes that begins `n` bytes later has its items `n` bytes later. -/
theorem ofLexemes_add (start n : Nat) (ls : List Lexeme) :
    ofLexemes (start + n) ls = (ofLexemes start ls).map (shift n) := by
  induction ls generalizing start with
  | nil => rfl
  | cons l ls ih =>
    have place : start + n + byteCount l.text = start + byteCount l.text + n := by omega
    rw [ofLexemes, ofLexemes, item?_add, place, ih, List.map_append]
    cases l.item? start <;> rfl

/-- Two texts keep their items if the second one does not extend the last lexeme of the first. -/
theorem ofSource_append
    (seam : ∀ l ∈ (Lexeme.split a.toList).getLast?, ∀ c ∈ b.toList.head?,
      l.shape.extend? c = none) :
    ofSource (a ++ b) = ofSource a ++ (ofSource b).map (shift a.utf8ByteSize) := by
  rw [ofSource, String.toList_append, Lexeme.split_append seam, ofLexemes_append,
    Lexeme.flatMap_text_split, Text.byteCount_toList, ofLexemes_add]
  rfl

theorem split_semicolon (a : String) :
    Lexeme.split (a ++ ";").toList =
      Lexeme.split a.toList ++ [⟨.sign .semicolon, [';']⟩] := by
  rw [String.toList_append]
  refine Lexeme.split_append ?_
  intro l _ c hc
  cases hc
  exact l.shape.extend?_eq_none rfl (by decide)

/-- Behind a semicolon the items are those of the text that begins there. -/
theorem ofSource_semicolon_append (a b : String) :
    ofSource (a ++ ";" ++ b) =
      ofSource (a ++ ";") ++ (ofSource b).map (shift (a.utf8ByteSize + 1)) := by
  have size : (a ++ ";").utf8ByteSize = a.utf8ByteSize + 1 := String.utf8ByteSize_append
  rw [← size]
  refine ofSource_append ?_
  intro l hl c _
  rw [split_semicolon, List.getLast?_concat] at hl
  cases hl
  rfl

/-- A text that ends in a semicolon has it as the last item. -/
theorem ofSource_semicolon (a : String) :
    ofSource (a ++ ";") = ofSource a ++
      [.token ⟨.semicolon, ";", ⟨a.utf8ByteSize, a.utf8ByteSize + 1⟩⟩] := by
  rw [ofSource, split_semicolon, ofLexemes_append, Lexeme.flatMap_text_split,
    Text.byteCount_toList, Nat.zero_add]
  rfl

end Item

end MonkeyFrontEnd
