import MonkeyFrontEnd.Command.Check
import MonkeyFrontEnd.Proofs.Accuracy
import MonkeyFrontEnd.Proofs.Lexing.Separation
import MonkeyFrontEnd.Proofs.Location

/-!
# Errors and the lines they stand in

A check shows each error with the line of the source that it begins in. The line is looked up by its
number, which counts line feeds, among the lines that are shown; behind the last line feed there is
one number more than there are lines (`Text.getElem?_shownLines`). An error begins with a character
that is not blank, or at the end of the text (`Item.visible_of_mem_stream`), so it never stands
behind the carriage return that is left out. The line is therefore shown as it should be, unless the
text ends with a line feed and the error stands at its end (`Command.sourceLine_of_mem_errors`).
-/

set_option autoImplicit false

namespace MonkeyFrontEnd

open Text (byteCount)

namespace Text

variable {source : String} {lines : List (List Char)}
  {line last tail behind before rest : List Char}

/-- The line is the stretch of the text between the line feeds around the offset, and this is what
stands behind it. -/
structure LineAround (source : String) (offset : Nat) (line behind : List Char) : Prop where
  single : '\n' ∉ line
  ends : ∀ c ∈ behind.head?, c = '\n'
  place : ∃ before, source.toList = before ++ line ++ behind ∧ (∀ c ∈ before.getLast?, c = '\n') ∧
    byteCount before ≤ offset ∧ offset ≤ byteCount (before ++ line)

/-- The line without the carriage return directly before the line feed behind it. -/
def withoutReturn (line behind : List Char) : List Char :=
  if behind = [] then line else dropReturn line

theorem length_le_dropReturn (cs : List Char) : cs.length - 1 ≤ (dropReturn cs).length := by
  unfold dropReturn
  split
  · rw [List.length_dropLast]
  · exact Nat.sub_le _ _

/-- A place in a line is still in the line that is shown, unless it is just before a line feed. -/
theorem length_le_withoutReturn (last : List Char) (h : tail = [] → behind = []) :
    last.length ≤ (withoutReturn (last ++ tail) behind).length := by
  unfold withoutReturn
  split
  · simp
  · rename_i more
    have some_left : 0 < tail.length := List.length_pos_iff.2 fun none => more (h none)
    have := length_le_dropReturn (last ++ tail)
    rw [List.length_append] at this
    omega

theorem getLast?_ended (lines : List (List Char)) : ∀ c ∈ (ended lines).getLast?, c = '\n' := by
  rcases List.eq_nil_or_concat lines with rfl | ⟨lines, line, rfl⟩
  · simp [ended]
  · simp [ended, eq_comm]

/-- Every text is a stretch without line feeds and what a line feed begins. -/
theorem exists_line_append (cs : List Char) :
    ∃ line behind, cs = line ++ behind ∧ '\n' ∉ line ∧ ∀ c ∈ behind.head?, c = '\n' := by
  induction cs with
  | nil => exact ⟨[], [], rfl, by simp, by simp⟩
  | cons c cs ih =>
    obtain ⟨line, behind, rfl, single, ends⟩ := ih
    by_cases feed : c = '\n'
    · exact ⟨[], c :: (line ++ behind), rfl, by simp, by simp [feed]⟩
    · have other : '\n' ≠ c := fun same => feed same.symm
      exact ⟨c :: line, behind, rfl, by simp [other, single], ends⟩

/-- A place in a text has whole lines and the beginning of one line before it, and the rest of that
line behind it. -/
theorem exists_lineAround (split : source.toList = before ++ rest) :
    ∃ lines last tail behind, before = ended lines ++ last ∧ rest = tail ++ behind ∧
      source.toList = ended lines ++ (last ++ tail) ++ behind ∧ (∀ line ∈ lines, '\n' ∉ line) ∧
      LineAround source (byteCount before) (last ++ tail) behind := by
  obtain ⟨lines, last, rfl, whole, begun⟩ := exists_ended_append before
  obtain ⟨tail, behind, rfl, goes_on, ends⟩ := exists_line_append rest
  have divided : source.toList = ended lines ++ (last ++ tail) ++ behind := by
    rw [split]
    simp only [List.append_assoc]
  have single : '\n' ∉ last ++ tail := by
    rw [List.mem_append, not_or]
    exact ⟨begun, goes_on⟩
  refine ⟨lines, last, tail, behind, rfl, rfl, divided, whole, single, ends, ?_⟩
  refine ⟨ended lines, divided, getLast?_ended lines, ?_, ?_⟩
  · rw [byteCount_append]
    omega
  · simp only [byteCount_append]
    omega

/-- Nothing is left of a text behind its last line feed. -/
theorem nothing_left_iff (split : source.toList = ended lines ++ (last ++ tail) ++ behind)
    (single : '\n' ∉ last ++ tail) (nonempty : source ≠ "") :
    last ++ tail = [] ∧ behind = [] ↔
      byteCount (ended lines ++ last) = source.utf8ByteSize ∧
        source.toList.getLast? = some '\n' := by
  have bytes : source.utf8ByteSize =
      byteCount (ended lines ++ last) + byteCount (tail ++ behind) := by
    rw [← byteCount_toList, split]
    simp only [byteCount_append]
    omega
  constructor
  · rintro ⟨empty, rfl⟩
    obtain ⟨rfl, rfl⟩ := List.append_eq_nil_iff.1 empty
    simp only [List.append_nil] at split
    refine ⟨bytes.symm, ?_⟩
    cases final : source.toList.getLast? with
    | none =>
      rw [List.getLast?_eq_none_iff, String.toList_eq_nil_iff] at final
      exact absurd final nonempty
    | some c =>
      rw [split] at final
      rw [getLast?_ended lines c final]
  · rintro ⟨complete, final⟩
    have rest : tail ++ behind = [] := by
      rw [← byteCount_eq_zero_iff]
      omega
    obtain ⟨rfl, rfl⟩ := List.append_eq_nil_iff.1 rest
    refine ⟨?_, rfl⟩
    simp only [List.append_nil] at split single ⊢
    by_contra some_last
    rw [split, List.getLast?_append_of_ne_nil _ some_last] at final
    exact single (List.mem_of_getLast? final)

/-! ### The lines that are shown -/

theorem pieces_eq_splitOn (cs : List Char) : pieces cs = cs.splitOn '\n' := by
  induction cs with
  | nil => rfl
  | cons c cs ih =>
    rw [List.splitOn_cons_eq_if_modifyHead, pieces, ih]
    by_cases feed : c = '\n'
    · rw [if_pos feed, if_pos (beq_iff_eq.2 feed)]
    · obtain ⟨first, others, divided⟩ := List.exists_cons_of_ne_nil (List.splitOn_ne_nil '\n' cs)
      rw [if_neg feed, if_neg fun same => feed (beq_iff_eq.1 same), divided]
      rfl

/-- The line behind whole lines is shown, unless nothing is left of the text. -/
theorem getElem?_shownLines (whole : ∀ line ∈ lines, '\n' ∉ line) (single : '\n' ∉ line)
    (ends : ∀ c ∈ behind.head?, c = '\n') :
    (shownLines (ended lines ++ line ++ behind))[lines.length]? =
      if line = [] ∧ behind = [] then none else some (withoutReturn line behind) := by
  rw [shownLines, pieces_eq_splitOn, List.append_assoc, splitOn_ended_append whole]
  cases behind with
  | nil =>
    rw [List.append_nil, List.splitOn_eq_singleton single, List.dropLast_concat,
      List.getLast?_concat, List.getElem?_append_right (by simp)]
    cases line <;> simp [withoutReturn]
  | cons c behind =>
    obtain rfl : c = '\n' := ends c rfl
    obtain ⟨next, others, divided⟩ :=
      List.exists_cons_of_ne_nil (List.splitOn_ne_nil '\n' behind)
    rw [List.splitOn_append_cons_self_of_not_mem single, divided,
      List.dropLast_append_of_ne_nil (List.cons_ne_nil _ _), List.dropLast_cons_cons]
    simp [withoutReturn]

end Text

/-! ### Where errors begin -/

variable {source : String}

theorem Item.Whole.visible {i : Item} {next : Option Char} (h : i.Whole next) :
    ∀ c ∈ i.text.head?, isBlank c = false := by
  intro c hc
  cases h with
  | @token t spelled =>
    obtain ⟨cs, text⟩ := List.head?_eq_some_iff.1 hc
    have spells : t.kind.shape.Spells (c :: cs) := text ▸ spelled.spells
    rw [Bool.eq_false_iff, ne_eq, Lexeme.isBlank_of_spells spells (by cases t.kind <;> decide)]
    cases t.kind <;> decide
  | @illegal e d single visible =>
    rw [Item.text, single] at hc
    cases hc
    exact visible

/-- Where a token or an illegal character begins, there is no blank. -/
theorem Item.visible_of_mem_stream {i : Item} (h : i ∈ Item.stream source) :
    ∃ before behind, source.toList = before ++ behind ∧ byteCount before = i.span.start ∧
      ∀ c ∈ behind.head?, isBlank c = false := by
  rcases List.mem_append.1 h with item | last
  · obtain ⟨before, behind, split, place, whole⟩ := (Item.tiles_ofSource source).stand i item
    refine ⟨before, i.text ++ behind, by rw [split, List.append_assoc], ?_, ?_⟩
    · rw [place, Nat.zero_add]
    · rw [List.head?_append_of_ne_nil _ whole.ne_nil]
      exact whole.visible
  · obtain rfl := List.mem_singleton.1 last
    exact ⟨source.toList, [], by simp, Text.byteCount_toList source, by simp⟩

namespace Command

/-- The line behind whole lines is printed, unless nothing is left of the text. -/
theorem sourceLine_ended_append {lines : List (List Char)} {line behind : List Char}
    (split : source.toList = Text.ended lines ++ line ++ behind)
    (whole : ∀ line ∈ lines, '\n' ∉ line) (single : '\n' ∉ line)
    (ends : ∀ c ∈ behind.head?, c = '\n') :
    sourceLine source (lines.length + 1) =
      if line = [] ∧ behind = [] then []
      else [Text.alignRight 4 (toString (lines.length + 1)) ++ " | " ++
        String.ofList (Text.withoutReturn line behind)] := by
  rw [sourceLine, Text.lineText?, Nat.add_sub_cancel, split,
    Text.getElem?_shownLines whole single ends]
  split <;> rfl

/-- **Errors are shown with their lines.** For an error, the line of the text that it begins in is
printed under its number, without the carriage return directly before the line feed, and the column
is one of that line or the one behind it. The error at the end of a text that ends with a line feed
has the number of a line that the text does not have, and for it nothing is printed. -/
theorem sourceLine_of_mem_errors (source : String) (e : ParseError)
    (h : e ∈ (Parse.ofSource source).errors) :
    ∃ line behind, Text.LineAround source e.span.start line behind ∧
      (Position.ofOffset source e.span.start).column - 1 ≤
        (Text.withoutReturn line behind).length ∧
      sourceLine source (Position.ofOffset source e.span.start).line =
        if e.span.start = source.utf8ByteSize ∧ source.toList.getLast? = some '\n' then []
        else [Text.alignRight 4 (toString (Position.ofOffset source e.span.start).line) ++ " | " ++
          String.ofList (Text.withoutReturn line behind)] := by
  have nonempty : source ≠ "" := by
    rintro rfl
    have none : (Parse.ofSource "").errors = [] := by decide
    rw [none] at h
    cases h
  rw [Parse.errors_eq_map_notices] at h
  obtain ⟨x, hx, rfl⟩ := List.mem_map.1 h
  obtain ⟨i, hi, same⟩ := (Parse.accurate_of_mem_notices hx).exists_item
  obtain ⟨before, rest, split, place, visible⟩ := Item.visible_of_mem_stream hi
  rw [← same, ← place]
  obtain ⟨lines, last, tail, behind, rfl, rfl, divided, whole, around⟩ :=
    Text.exists_lineAround split
  -- a line feed would be a blank
  have inside : tail = [] → behind = [] := by
    rintro rfl
    cases behind with
    | nil => rfl
    | cons c behind =>
      have blank := visible c rfl
      rw [around.ends c rfl] at blank
      cases blank
  have begun : '\n' ∉ last := fun feed => around.single (List.mem_append_left tail feed)
  rw [Position.ofOffset_ended_append split whole begun,
    sourceLine_ended_append divided whole around.single around.ends]
  refine ⟨last ++ tail, behind, around, ?_, ?_⟩
  · exact Text.length_le_withoutReturn last inside
  · simp only [Text.nothing_left_iff divided around.single nonempty]

/-- The error behind the two-byte letter is shown, without the carriage return. -/
theorem sourceLine_of_mem_errors_return :
    .illegalChar ⟨"#", ⟨3, 4⟩⟩ ∈ (Parse.ofSource "é #\r\n1").errors ∧
      (∃ line behind, Text.LineAround "é #\r\n1" 3 line behind ∧
        (Position.ofOffset "é #\r\n1" 3).column - 1 ≤ (Text.withoutReturn line behind).length ∧
        sourceLine "é #\r\n1" (Position.ofOffset "é #\r\n1" 3).line =
          [Text.alignRight 4 (toString (Position.ofOffset "é #\r\n1" 3).line) ++ " | " ++
            String.ofList (Text.withoutReturn line behind)]) ∧
      sourceLine "é #\r\n1" 1 = ["   1 | é #"] := by
  have reported : .illegalChar ⟨"#", ⟨3, 4⟩⟩ ∈ (Parse.ofSource "é #\r\n1").errors := by decide
  have inside : ¬ (3 = "é #\r\n1".utf8ByteSize ∧ "é #\r\n1".toList.getLast? = some '\n') := by
    decide
  obtain ⟨line, behind, around, column, shown⟩ := sourceLine_of_mem_errors _ _ reported
  exact ⟨reported, ⟨line, behind, around, column, shown.trans (if_neg inside)⟩, by decide⟩

/-- The parenthesis is missing at the end, where the line that has the number is not shown. -/
theorem not_sourceLine_of_mem_errors :
    ¬ ∀ source e, e ∈ (Parse.ofSource source).errors →
      ∃ line behind, Text.LineAround source e.span.start line behind ∧
        (Position.ofOffset source e.span.start).column - 1 ≤
          (Text.withoutReturn line behind).length ∧
        sourceLine source (Position.ofOffset source e.span.start).line =
          [Text.alignRight 4 (toString (Position.ofOffset source e.span.start).line) ++ " | " ++
            String.ofList (Text.withoutReturn line behind)] := by
  intro shows
  have reported : .unexpectedToken .rparen .eof ⟨7, 7⟩ ∈ (Parse.ofSource "(1 + 2\n").errors := by
    decide
  obtain ⟨line, behind, -, -, shown⟩ := shows _ _ reported
  have nothing : sourceLine "(1 + 2\n" (Position.ofOffset "(1 + 2\n" 7).line = [] := by decide
  cases nothing.symm.trans shown

end Command

end MonkeyFrontEnd
