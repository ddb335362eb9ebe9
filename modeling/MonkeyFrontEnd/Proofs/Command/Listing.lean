import MonkeyFrontEnd.Command.Run
import MonkeyFrontEnd.Proofs.Appearance
import MonkeyFrontEnd.Proofs.Lexing.Lookahead

/-!
# Listings show tokens as they are

A listing cuts long literals behind a number of bytes, shows them between quotation marks, and would
break off at a literal that has no character boundary there. Which texts stand between the tokens
does not matter: the tokens themselves are written with characters of one byte that need no escape
(`Token.isPlain_of_mem_stream`). So every listing is complete (`lexSource_eq`).
-/

set_option autoImplicit false

namespace MonkeyFrontEnd

open Text (byteCount)

/-- A visible ASCII character that is neither a quotation mark nor a backslash. -/
def isPlain (c : Char) : Bool :=
  32 < c.toNat && c.toNat < 127 && c ∉ ['"', '\x27', '\\']

variable {c : Char} {cs : List Char} {s source : String} {t : Token}

/-! ### Plain characters -/

theorem isPlain_of_isTokenChar (h : isTokenChar c) : isPlain c :=
  forall_isTokenChar (P := fun c => isPlain c) (by decide) h

/-- The tokens of a text are plain, its end included. -/
theorem Token.isPlain_of_mem_stream (h : t ∈ stream source) :
    ∀ c ∈ t.literal.toList, isPlain c := by
  rcases List.mem_append.1 h with token | last
  · exact fun c hc => isPlain_of_isTokenChar ((spelled_of_mem_ofSource token).isTokenChar c hc)
  · obtain rfl := List.mem_singleton.1 last
    exact List.all_eq_true.1 rfl

theorem utf8Size_of_isPlain (h : isPlain c) : c.utf8Size = 1 := by
  simp only [isPlain, Bool.and_eq_true, decide_eq_true_eq] at h
  rw [Char.utf8Size_eq_one_iff, UInt32.le_iff_toNat_le]
  exact Nat.le_of_lt h.1.2

namespace Text

theorem byteCount_of_isPlain (h : ∀ c ∈ cs, isPlain c) : byteCount cs = cs.length := by
  induction cs with
  | nil => rfl
  | cons c cs ih =>
    obtain ⟨first, others⟩ := List.forall_mem_cons.1 h
    rw [byteCount_cons, utf8Size_of_isPlain first, ih others, List.length_cons, Nat.add_comm]

/-- A plain text can be cut behind any number of bytes. -/
theorem takeBytes?_of_isPlain (h : ∀ c ∈ cs, isPlain c) {n : Nat} (le : n ≤ cs.length) :
    takeBytes? n cs = some (cs.take n) := by
  have front : ∀ c ∈ cs.take n, isPlain c := fun c hc => h c (List.mem_of_mem_take hc)
  refine takeBytes?_eq_some_iff.2 ⟨?_, cs.drop n, (List.take_append_drop n cs).symm⟩
  rw [byteCount_of_isPlain front, List.length_take, Nat.min_eq_left le]

theorem escape_of_isPlain (h : isPlain c) : escape c = [c] := by
  have other : ∀ d, isPlain d = false → c ≠ d := by
    rintro d hd rfl
    rw [h] at hd
    cases hd
  have visible : (' ' ≤ c && c ≤ '~') = true := by
    simp only [isPlain, Bool.and_eq_true, decide_eq_true_eq] at h
    simp only [Bool.and_eq_true, decide_eq_true_eq, Char.le_def, UInt32.le_iff_toNat_le]
    exact ⟨Nat.le_of_lt h.1.1, Nat.le_of_lt_succ h.1.2⟩
  rw [escape, if_neg (other _ rfl), if_neg (other _ rfl), if_neg (other _ rfl),
    if_neg (other _ rfl), if_neg (other _ rfl), if_neg (other _ rfl), if_pos visible]

/-- A plain text stands between the quotation marks as it is. -/
theorem quoted_of_isPlain (h : ∀ c ∈ s.toList, isPlain c) : quoted s = "\"" ++ s ++ "\"" := by
  have same : s.toList.flatMap escape = s.toList :=
    (List.flatMap_congr fun c hc => escape_of_isPlain (h c hc)).trans (List.flatMap_singleton' _)
  rw [quoted, same, List.cons_append, ← List.singleton_append, String.ofList_append,
    String.ofList_append, String.ofList_toList, String.append_assoc]

/-! ### Texts without line feeds -/

theorem exists_digitChar_of_mem_toDigits {b : Nat} (base : 1 < b) (n : Nat) :
    ∀ c ∈ Nat.toDigits b n, ∃ k < b, c = Nat.digitChar k := by
  induction n using Nat.strongRecOn with
  | ind n ih =>
    intro c hc
    rw [Nat.toDigits_eq_if base] at hc
    split at hc
    · rename_i small
      exact ⟨n, small, List.mem_singleton.1 hc⟩
    · rename_i large
      have positive : 0 < n := by omega
      rcases List.mem_append.1 hc with front | last
      · exact ih _ (Nat.div_lt_self positive base) c front
      · exact ⟨n % b, Nat.mod_lt n (Nat.zero_lt_of_lt base), List.mem_singleton.1 last⟩

theorem lineFeed_not_mem_toDigits {b : Nat} (base : 1 < b) (le : b ≤ 16) (n : Nat) :
    '\n' ∉ Nat.toDigits b n := by
  intro feed
  obtain ⟨k, small, digit⟩ := exists_digitChar_of_mem_toDigits base n _ feed
  have each : ∀ k : Fin 16, '\n' ≠ Nat.digitChar k := by decide
  exact each ⟨k, Nat.lt_of_lt_of_le small le⟩ digit

theorem lineFeed_not_mem_escape (c : Char) : '\n' ∉ escape c := by
  unfold escape
  split
  · decide
  split
  · decide
  split
  · decide
  split
  · decide
  split
  · decide
  split
  · decide
  rename_i other _ _
  have digits := lineFeed_not_mem_toDigits (b := 16) (by decide) (Nat.le_refl 16) c.toNat
  repeat' split
  all_goals simp [hexDigits, digits, Ne.symm other]

/-- Whatever stands in quotation marks is one line. -/
theorem lineFeed_not_mem_quoted (s : String) : '\n' ∉ (quoted s).toList := by
  have inside : '\n' ∉ s.toList.flatMap escape := by
    intro feed
    obtain ⟨c, -, hc⟩ := List.mem_flatMap.1 feed
    exact lineFeed_not_mem_escape c hc
  simp [quoted, inside]

end Text

namespace Command

/-- A literal between quotation marks; if it is long, its first characters and three dots. -/
def shownLiteral (literal : String) : String :=
  if literal.length ≤ 40 then "\"" ++ literal ++ "\""
  else "\"" ++ String.ofList (literal.toList.take 40) ++ "...\""

/-- The row of an item in a listing. -/
def itemRow : Item → String
  | .token t => tokenColumns t ++ shownLiteral t.literal
  | .illegal e => illegalLine e

/-! ### Rows -/

/-- A plain literal is listed, as it is or cut behind a character. -/
theorem tokenLine?_of_isPlain (h : ∀ c ∈ t.literal.toList, isPlain c) :
    tokenLine? t = some (itemRow (.token t)) := by
  have size : t.literal.utf8ByteSize = t.literal.length := by
    rw [← Text.byteCount_toList, Text.byteCount_of_isPlain h, String.length_toList]
  rw [tokenLine?, shorten?, size, itemRow, shownLiteral, listedWidth]
  by_cases long : 40 < t.literal.length
  · have whole : 40 ≤ t.literal.toList.length := by
      rw [String.length_toList]
      exact Nat.le_of_lt long
    have front : ∀ c ∈ (String.ofList (t.literal.toList.take 40) ++ "...").toList, isPlain c := by
      rw [String.toList_append, String.toList_ofList]
      exact List.forall_mem_append.2
        ⟨fun c hc => h c (List.mem_of_mem_take hc), List.all_eq_true.1 rfl⟩
    rw [if_pos long, if_neg (Nat.not_le.2 long), Text.takeBytes?_of_isPlain h whole,
      Option.map_some, Option.map_some, Text.quoted_of_isPlain front]
    simp only [String.append_assoc]
    rfl
  · rw [if_neg long, if_pos (Nat.not_lt.1 long), Option.map_some, Text.quoted_of_isPlain h]

/-- What is left is listed to the end, if all its tokens are plain. -/
theorem listFrom_eq {items : List Item}
    (plain : ∀ t ∈ items.filterMap Item.token?, ∀ c ∈ t.literal.toList, isPlain c)
    (tokens illegal : Nat) :
    listFrom tokens illegal items =
      (lexClosing (tokens + (items.filterMap Item.token?).length)
        (illegal + (items.filterMap Item.illegal?).length)).after (items.map itemRow) := by
  induction items generalizing tokens illegal with
  | nil => rfl
  | cons i items ih =>
    cases i with
    | token t =>
      obtain ⟨first, others⟩ := List.forall_mem_cons.1 plain
      rw [listFrom, tokenLine?_of_isPlain first]
      simp only [ih others, Report.after_after, List.filterMap_cons, Item.token?, Item.illegal?,
        List.length_cons, List.map_cons, List.singleton_append]
      rw [Nat.add_right_comm, Nat.add_assoc]
    | illegal e =>
      rw [listFrom, ih plain, Report.after_after]
      simp only [List.filterMap_cons, Item.token?, Item.illegal?, List.length_cons, List.map_cons,
        List.singleton_append, itemRow]
      rw [Nat.add_right_comm illegal, Nat.add_assoc illegal]

/-- The listing of a text: a row for each of its items and the numbers of tokens and of illegal
characters. -/
theorem lexSource_eq (name source : String) :
    lexSource name source =
      ⟨["Tokenizing: " ++ name, ""] ++ (Item.stream source).map itemRow ++
        ["", toString (Token.stream source).length ++ " tokens, " ++
          toString (IllegalChar.ofSource source).length ++ " errors"],
        failIfPositive (IllegalChar.ofSource source).length "lexer errors"⟩ := by
  have plain : ∀ t ∈ (Item.stream source).filterMap Item.token?,
      ∀ c ∈ t.literal.toList, isPlain c := by
    rw [Item.filterMap_token?_stream]
    exact fun t => Token.isPlain_of_mem_stream
  rw [lexSource, listFrom_eq plain, Item.filterMap_token?_stream, Item.filterMap_illegal?_stream,
    Nat.zero_add, Nat.zero_add]
  simp only [Report.after, lexClosing, List.append_assoc]

/-! ### Each row is a line -/

theorem lineFeed_not_mem_itemRow {i : Item} (h : i ∈ Item.stream source) :
    '\n' ∉ (itemRow i).toList := by
  have numbers := Text.lineFeed_not_mem_toDigits (b := 10) (by decide) (by decide)
  cases i with
  | illegal e =>
    have label : '\n' ∉ "illegal character ".toList := by decide
    have message : '\n' ∉ e.message.toList := by
      unfold IllegalChar.message
      rw [String.toList_append, List.mem_append, not_or]
      exact ⟨label, Text.lineFeed_not_mem_quoted e.text⟩
    simp [itemRow, illegalLine, numbers, message]
  | token t =>
    have token : t ∈ Token.stream source := by
      rw [← Item.filterMap_token?_stream]
      exact List.mem_filterMap.2 ⟨_, h, rfl⟩
    have literal : '\n' ∉ t.literal.toList := fun feed =>
      absurd (Token.isPlain_of_mem_stream token _ feed) (by decide)
    have front : '\n' ∉ t.literal.toList.take 40 := fun feed =>
      literal (List.mem_of_mem_take feed)
    have kind : '\n' ∉ t.kind.name.toList := by cases t.kind <;> decide
    have columns : '\n' ∉ (tokenColumns t).toList := by
      simp [tokenColumns, Text.alignRight, Text.alignLeft, Text.spaces, numbers, kind]
    rw [itemRow, shownLiteral]
    split
    · simp [columns, literal]
    · simp [columns, front]

/-! ### The listing of a file -/

/-- The listing of a file with the text `source` shows the tokens of the text as they are. -/
structure Verbatim (s : Surroundings) (file source : String) : Prop where
  plain : ∀ t ∈ Token.stream source, ∀ c ∈ t.literal.toList, isPlain c
  /-- Every number of bytes ends at a character. -/
  cut : ∀ t ∈ Token.stream source, ∀ n ≤ t.literal.utf8ByteSize,
    Text.takeBytes? n t.literal.toList = some (t.literal.toList.take n)
  unescaped : ∀ t ∈ Token.stream source, Text.quoted t.literal = "\"" ++ t.literal ++ "\""
  single : ∀ i ∈ Item.stream source, '\n' ∉ (itemRow i).toList
  report : (Command.lex file).report s =
    ⟨["Tokenizing: " ++ file, ""] ++ (Item.stream source).map itemRow ++
      ["", toString ((Item.stream source).filterMap Item.token?).length ++ " tokens, " ++
        toString ((Item.stream source).filterMap Item.illegal?).length ++ " errors"],
      failIfPositive ((Item.stream source).filterMap Item.illegal?).length "lexer errors"⟩

/-- **Listings are complete and verbatim.** Whatever a file contains, its tokens consist of visible
ASCII characters without quotation marks and backslashes, so that long ones are cut at a character
and nothing is escaped. The listing has one line for each token and each illegal character, in the
order of the text, and comes to its closing line, which tells how many there are of each. -/
theorem lex_verbatim {s : Surroundings} {file : String} (readable : s.files file = .ok source) :
    Verbatim s file source where
  plain _ := Token.isPlain_of_mem_stream
  cut t ht n le := by
    have plain := Token.isPlain_of_mem_stream ht
    rw [← Text.byteCount_toList, Text.byteCount_of_isPlain plain] at le
    exact Text.takeBytes?_of_isPlain plain le
  unescaped _ ht := Text.quoted_of_isPlain (Token.isPlain_of_mem_stream ht)
  single _ := lineFeed_not_mem_itemRow
  report := by
    rw [Item.filterMap_token?_stream, Item.filterMap_illegal?_stream, ← lexSource_eq]
    simp only [Command.report, lexReport, readable]

/-- Surroundings with one file, in which a name of 41 letters stands between letters that are
illegal. -/
def longName : Surroundings where
  files name :=
    if name = "long" then .ok "éxxxxxxxxxxxxxxxxxxxxxxxxxxxxxxxxxxxxxxxxxé" else .error .notFound
  input := ""
  environment _ := none

theorem lex_verbatim_longName :
    longName.files "long" = .ok "éxxxxxxxxxxxxxxxxxxxxxxxxxxxxxxxxxxxxxxxxxé" ∧
      Verbatim longName "long" "éxxxxxxxxxxxxxxxxxxxxxxxxxxxxxxxxxxxxxxxxxé" ∧
      (Item.stream "éxxxxxxxxxxxxxxxxxxxxxxxxxxxxxxxxxxxxxxxxxé").map itemRow =
        ["ERROR at 0..2: illegal character \"é\"",
          "   2..  43  Ident         \"xxxxxxxxxxxxxxxxxxxxxxxxxxxxxxxxxxxxxxxx...\"",
          "ERROR at 43..45: illegal character \"é\"", "  45..  45  Eof           \"\""] := by
  have readable : longName.files "long" = .ok "éxxxxxxxxxxxxxxxxxxxxxxxxxxxxxxxxxxxxxxxxxé" := rfl
  exact ⟨readable, lex_verbatim readable, by decide +kernel⟩

end Command

end MonkeyFrontEnd
