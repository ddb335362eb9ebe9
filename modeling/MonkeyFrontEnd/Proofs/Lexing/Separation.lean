import MonkeyFrontEnd.Proofs.Lexing.Alphabet
import MonkeyFrontEnd.Proofs.Lexing.Tiling

/-!
# Where tokens have to be kept apart

Tokens may be written with any blanks before, between and behind them (`SpacedTokens`). Reading the
text finds them again exactly if there is a blank wherever two of them would run together
(`SpacedTokens.stream_source_iff`). One direction is about legible rows of lexemes; for the other
one, a row of lexemes is known from its text and its tokens (`Lexeme.eq_of_flatMap_text`), so that a
row that is not legible, and so not what its text is split into, has other tokens than those that
are read.
-/

set_option autoImplicit false

namespace MonkeyFrontEnd

open Lexeme (Legal Legible Separate Shape legible_cons legible_append)

/-! ### Rows of lexemes with the same text -/

namespace Lexeme

variable {shape : Shape} {c : Char} {cs : List Char} {l m : Lexeme} {ls ms : List Lexeme}

theorem isBlank_of_spells (h : shape.Spells (c :: cs)) (legal : shape ≠ .illegal) :
    isBlank c ↔ shape = .blank := by
  constructor
  · intro blank
    by_contra visible
    have token := h.isTokenChar visible legal c List.mem_cons_self
    rw [isBlank_of_isTokenChar token] at blank
    cases blank
  · rintro rfl
    obtain ⟨d, hd, blank⟩ := h
    cases hd
    exact blank

/-- Lexemes whose texts begin with the same character are both blank or both not. -/
theorem blank_iff_of_head (hl : l.shape.Spells l.text) (hm : m.shape.Spells m.text)
    (legal : l.shape ≠ .illegal) (legal' : m.shape ≠ .illegal)
    (head : l.text.head? = m.text.head?) : l.shape = .blank ↔ m.shape = .blank := by
  obtain ⟨c, cs, hc⟩ := List.exists_cons_of_ne_nil hl.ne_nil
  obtain ⟨d, ds, hd⟩ := List.exists_cons_of_ne_nil hm.ne_nil
  rw [hc] at hl head
  rw [hd] at hm head
  cases head
  rw [← isBlank_of_spells hl legal, isBlank_of_spells hm legal']

/-- A lexeme can be told from its token. -/
theorem eq_of_token? {t : Token} (hl : l.shape.Spells l.text) (hm : m.shape.Spells m.text)
    (h : l.token? = some t) (h' : m.token? = some t) : l = m := by
  obtain ⟨k, hk, rfl⟩ := Option.map_eq_some_iff.1 h
  obtain ⟨k', hk', same⟩ := Option.map_eq_some_iff.1 h'
  have kinds : k' = k := congrArg Token.kind same
  have texts : m.text = l.text := String.ofList_injective (congrArg Token.literal same)
  subst kinds
  have shapes : l.shape = m.shape :=
    (Item.shape_of_kind? hl hk).symm.trans (Item.shape_of_kind? hm hk')
  cases l
  cases m
  cases shapes
  cases texts
  rfl

theorem token?_eq_none_iff (legal : l.shape ≠ .illegal) : l.token? = none ↔ l.shape = .blank := by
  rw [token?, Option.map_eq_none_iff, Item.kind?_eq_none_iff, or_iff_left legal]

/-- A row of lexemes without illegal characters is known from its text and its tokens. -/
theorem eq_of_flatMap_text (hls : ∀ l ∈ ls, l.shape.Spells l.text)
    (hms : ∀ m ∈ ms, m.shape.Spells m.text) (legal : Legal ls) (legal' : Legal ms)
    (texts : ls.flatMap text = ms.flatMap text)
    (tokens : ls.filterMap token? = ms.filterMap token?) : ls = ms := by
  induction ls generalizing ms with
  | nil =>
    cases ms with
    | nil => rfl
    | cons m ms =>
      rw [List.flatMap_nil, List.flatMap_cons, eq_comm, List.append_eq_nil_iff] at texts
      exact absurd texts.1 (hms m List.mem_cons_self).ne_nil
  | cons l ls ih =>
    cases ms with
    | nil =>
      rw [List.flatMap_nil, List.flatMap_cons, List.append_eq_nil_iff] at texts
      exact absurd texts.1 (hls l List.mem_cons_self).ne_nil
    | cons m ms =>
      obtain ⟨hl, hls⟩ := List.forall_mem_cons.1 hls
      obtain ⟨hm, hms⟩ := List.forall_mem_cons.1 hms
      obtain ⟨legal, others⟩ := List.forall_mem_cons.1 legal
      obtain ⟨legal', others'⟩ := List.forall_mem_cons.1 legal'
      rw [List.flatMap_cons, List.flatMap_cons] at texts
      have head : l.text.head? = m.text.head? := by
        rw [← List.head?_append_of_ne_nil _ hl.ne_nil, texts,
          List.head?_append_of_ne_nil _ hm.ne_nil]
      have blank := blank_iff_of_head hl hm legal legal' head
      obtain ⟨same, tokens⟩ : l = m ∧ ls.filterMap token? = ms.filterMap token? := by
        by_cases hb : l.shape = .blank
        · have hb' := blank.1 hb
          rw [List.filterMap_cons_none ((token?_eq_none_iff legal).2 hb),
            List.filterMap_cons_none ((token?_eq_none_iff legal').2 hb')] at tokens
          refine ⟨?_, tokens⟩
          obtain ⟨shape, text⟩ := l
          obtain ⟨shape', text'⟩ := m
          cases hb
          cases hb'
          obtain ⟨c, rfl, -⟩ := hl
          obtain ⟨d, rfl, -⟩ := hm
          cases head
          rfl
        · obtain ⟨t, ht⟩ := Option.ne_none_iff_exists'.1 (mt (token?_eq_none_iff legal).1 hb)
          obtain ⟨u, hu⟩ :=
            Option.ne_none_iff_exists'.1 (mt (token?_eq_none_iff legal').1 (mt blank.2 hb))
          rw [List.filterMap_cons_some ht, List.filterMap_cons_some hu, List.cons.injEq] at tokens
          obtain ⟨rfl, tokens⟩ := tokens
          exact ⟨eq_of_token? hl hm ht hu, tokens⟩
      rw [same] at texts ⊢
      rw [ih hls hms others others' (List.append_cancel_left texts) tokens]

/-- Text without characters that belong to no token is split into lexemes that are all legal. -/
theorem legal_split (h : ∀ c ∈ cs, Shape.ofChar c ≠ .illegal) : Legal (split cs) := by
  intro l hl illegal
  have spelled := spells_of_mem_split hl
  rw [illegal] at spelled
  obtain ⟨c, hc, stray⟩ := spelled
  refine h c ?_ stray
  rw [← flatMap_text_split cs, List.mem_flatMap]
  exact ⟨l, hl, by simp [hc]⟩

/-- No character of a legal row belongs to no token. -/
theorem ofChar_ne_illegal (hls : ∀ l ∈ ls, l.shape.Spells l.text) (legal : Legal ls) :
    ∀ c ∈ ls.flatMap text, Shape.ofChar c ≠ .illegal := by
  intro c hc
  obtain ⟨l, hl, hc⟩ := List.mem_flatMap.1 hc
  have spelled := hls l hl
  by_cases blank : l.shape = .blank
  · rw [blank] at spelled
    obtain ⟨d, hd, blank⟩ := spelled
    rw [hd, List.mem_singleton] at hc
    subst hc
    simp [Shape.ofChar, blank]
  · exact ofChar_ne_illegal_of_isTokenChar (spelled.isTokenChar blank (legal l hl) c hc)

/-- What a legal row is written as is split into lexemes with the same tokens exactly if the row is
legible. -/
theorem tokens_split_eq_iff (hls : ∀ l ∈ ls, l.shape.Spells l.text) (legal : Legal ls) :
    (split (ls.flatMap text)).filterMap token? = ls.filterMap token? ↔ Legible ls := by
  constructor
  · intro tokens
    have spelled : ∀ l ∈ split (ls.flatMap text), l.shape.Spells l.text :=
      fun l hl => spells_of_mem_split hl
    have same := eq_of_flatMap_text spelled hls (legal_split (ofChar_ne_illegal hls legal)) legal
      (flatMap_text_split _) tokens
    rw [← same]
    exact legible_split _
  · intro legible
    rw [split_flatMap_text legible]

end Lexeme

/-! ### Tokens that run together -/

namespace Token.Kind

/-- The kinds of words: reserved words and names. -/
def isWord (k : Kind) : Bool :=
  k.isKeyword || k = .ident

/-- Without a blank between them, a token of the kind `k` and one of the kind `next` are not read as
these two. -/
def runsInto (k next : Kind) : Bool :=
  (k.isWord && (next.isWord || next = .int)) || (k = .int && next = .int) ||
    ((k = .assign || k = .bang) && (next = .assign || next = .eq))

end Token.Kind

namespace Token

variable {t u : Token} {c : Char}

/-- What the first character of a token says about its kind. -/
theorem Spelled.head (h : t.Spelled) (hc : t.literal.toList.head? = some c) :
    isWordPart c = (t.kind.isWord || t.kind = .int) ∧ c.isDigit = decide (t.kind = .int) ∧
      decide (c = '=') = (t.kind = .assign || t.kind = .eq) := by
  obtain ⟨kind, literal, span⟩ := t
  have signs : ∀ {c}, isWordPart c → c ≠ '=' := by
    rintro c part rfl
    exact absurd part (by decide)
  cases h with
  | name kind name =>
    obtain ⟨⟨d, r, text, start, -⟩, -⟩ := name
    cases kind
    rw [text] at hc
    cases hc
    have part := Lexeme.isWordPart_of_isWordStart start
    have digit : c.isDigit = false := by
      rw [Bool.eq_false_iff]
      intro digit
      rw [Lexeme.not_isWordStart_of_isDigit digit] at start
      cases start
    simp [part, digit, signs part, Kind.isWord]
  | numeral kind numeral =>
    cases kind
    have digit := numeral.2 c (List.mem_of_mem_head? hc)
    have part := Lexeme.isWordPart_of_isDigit digit
    simp [part, digit, signs part]
  | fixed spelling =>
    obtain rfl : literal.toList.headD ' ' = c := by
      rw [List.headD_eq_head?_getD]
      exact congrArg (·.getD ' ') hc
    cases kind <;> cases spelling <;> exact ⟨rfl, rfl, rfl⟩

/-- A token is separate from the one that follows it unless the two run together. -/
theorem separate_lexeme_iff (h : u.Spelled) :
    Separate t.lexeme u.lexeme ↔ t.kind.runsInto u.kind = false := by
  obtain ⟨c, cs, text⟩ := List.exists_cons_of_ne_nil h.spells.ne_nil
  have head : u.literal.toList.head? = some c := by
    rw [show u.literal.toList = c :: cs from text, List.head?_cons]
  obtain ⟨part, digit, sign⟩ := h.head head
  have separate : Separate t.lexeme u.lexeme ↔ t.kind.shape.extend? c = none := by
    rw [Separate, text]
    simp [lexeme]
  rw [separate, Item.extend?_shape_eq_none_iff]
  cases kind : t.kind <;>
    simp [Kind.mayTake, Kind.runsInto, Kind.isWord, Kind.isKeyword, part, digit, sign]

end Token

/-! ### Tokens written with blanks -/

/-- A token to be written down, spelled as its kind says, and the blanks that are put behind it. -/
structure SpacedToken where
  kind : Token.Kind
  literal : String
  gap : List Char
  spelled : (Token.synthetic kind literal).Spelled
  blank : ∀ c ∈ gap, isBlank c

/-- The token to be written down. -/
def SpacedToken.token (i : SpacedToken) : Token :=
  .synthetic i.kind i.literal

/-- Tokens written in a row, with blanks before the first one. -/
structure SpacedTokens where
  margin : List Char
  row : List SpacedToken
  blank : ∀ c ∈ margin, isBlank c

namespace SpacedTokens

/-- The text that is written. -/
def source (w : SpacedTokens) : String :=
  .ofList (w.margin ++ w.row.flatMap fun i => i.literal.toList ++ i.gap)

/-- There is a blank wherever two neighbours would run together. -/
def Separated (w : SpacedTokens) : Prop :=
  w.row.IsChain fun i j => i.kind.runsInto j.kind → i.gap ≠ []

/-- The lexemes of a stretch of blanks. -/
def blanks (cs : List Char) : List Lexeme :=
  cs.map fun c => ⟨.blank, [c]⟩

/-- The lexemes of tokens in a row, each with the blanks behind it. -/
def lexemesOf : List SpacedToken → List Lexeme
  | [] => []
  | i :: is => i.token.lexeme :: (blanks i.gap ++ lexemesOf is)

/-- The lexemes that the text is meant to have. -/
def lexemes (w : SpacedTokens) : List Lexeme :=
  blanks w.margin ++ lexemesOf w.row

variable {cs : List Char} {is : List SpacedToken} {ls : List Lexeme}

theorem flatMap_text_blanks (cs : List Char) : (blanks cs).flatMap Lexeme.text = cs := by
  rw [blanks, List.flatMap_map]
  simp

theorem filterMap_token?_blanks (cs : List Char) : (blanks cs).filterMap Lexeme.token? = [] := by
  rw [blanks, List.filterMap_map]
  exact List.filterMap_eq_nil_iff.2 fun _ _ => rfl

theorem legal_blanks (cs : List Char) : Legal (blanks cs) := by
  intro l hl
  obtain ⟨c, -, rfl⟩ := List.mem_map.1 hl
  exact nofun

theorem spelled_blanks (h : ∀ c ∈ cs, isBlank c) : ∀ l ∈ blanks cs, l.shape.Spells l.text := by
  intro l hl
  obtain ⟨c, hc, rfl⟩ := List.mem_map.1 hl
  exact ⟨c, rfl, h c hc⟩

/-- Blanks before a row do not matter to whether it can be read. -/
theorem legible_blanks_append (h : ∀ c ∈ cs, isBlank c) :
    Legible (blanks cs ++ ls) ↔ Legible ls := by
  induction cs with
  | nil => rfl
  | cons c cs ih =>
    obtain ⟨first, others⟩ := List.forall_mem_cons.1 h
    have spelled : Shape.blank.Spells [c] := ⟨c, rfl, first⟩
    have separate : ∀ m, Separate ⟨.blank, [c]⟩ m := fun m d _ => rfl
    rw [← ih others]
    exact legible_cons.trans ⟨fun h => h.2.2, fun h => ⟨spelled, fun m _ => separate m, h⟩⟩

theorem flatMap_text_lexemesOf (is : List SpacedToken) :
    (lexemesOf is).flatMap Lexeme.text = is.flatMap fun i => i.literal.toList ++ i.gap := by
  induction is with
  | nil => rfl
  | cons i is ih =>
    rw [lexemesOf, List.flatMap_cons, List.flatMap_append, flatMap_text_blanks, ih,
      List.flatMap_cons, List.append_assoc]
    rfl

theorem filterMap_token?_lexemesOf (is : List SpacedToken) :
    (lexemesOf is).filterMap Lexeme.token? = is.map SpacedToken.token := by
  induction is with
  | nil => rfl
  | cons i is ih =>
    have read : i.token.lexeme.token? = some i.token := i.spelled.token?_lexeme
    rw [lexemesOf, List.filterMap_cons_some read, List.filterMap_append, filterMap_token?_blanks,
      ih]
    rfl

theorem legal_lexemesOf (is : List SpacedToken) : Legal (lexemesOf is) := by
  induction is with
  | nil => exact fun l hl => absurd hl List.not_mem_nil
  | cons i is ih =>
    exact Lexeme.legal_append.2
      ⟨Lexeme.legal_lexeme i.token, Lexeme.legal_append.2 ⟨legal_blanks i.gap, ih⟩⟩

theorem spelled_lexemesOf (is : List SpacedToken) :
    ∀ l ∈ lexemesOf is, l.shape.Spells l.text := by
  induction is with
  | nil => exact fun l hl => absurd hl List.not_mem_nil
  | cons i is ih =>
    exact List.forall_mem_cons.2
      ⟨i.spelled.spells, List.forall_mem_append.2 ⟨spelled_blanks i.blank, ih⟩⟩

/-- A token is separate from what is written behind it if a blank follows, or a token that it does
not run into. -/
theorem separate_head_iff (i : SpacedToken) :
    (∀ m ∈ (blanks i.gap ++ lexemesOf is).head?, Separate i.token.lexeme m) ↔
      ∀ j ∈ is.head?, i.kind.runsInto j.kind → i.gap ≠ [] := by
  cases gap : i.gap with
  | nil =>
    cases is with
    | nil => simp [blanks, lexemesOf]
    | cons j is =>
      have apart := Token.separate_lexeme_iff (t := i.token) j.spelled
      simpa [blanks, lexemesOf, SpacedToken.token, Token.synthetic] using apart
  | cons c cs =>
    have blank := i.blank c (by rw [gap]; exact List.mem_cons_self)
    have separate : Separate i.token.lexeme ⟨.blank, [c]⟩ := by
      refine Lexeme.separate_of_head (c := c) rfl ?_ ?_
      · rw [Bool.eq_false_iff]
        intro part
        rw [Lexeme.not_isBlank_of_isWordPart part] at blank
        cases blank
      · rintro rfl
        exact absurd blank (by decide)
    simpa [blanks] using separate

/-- Tokens in a row can be read if there is a blank wherever two neighbours would run together. -/
theorem legible_lexemesOf_iff (is : List SpacedToken) :
    Legible (lexemesOf is) ↔ is.IsChain fun i j => i.kind.runsInto j.kind → i.gap ≠ [] := by
  induction is with
  | nil => exact ⟨fun _ => .nil, fun _ => ⟨fun l hl => absurd hl List.not_mem_nil, .nil⟩⟩
  | cons i is ih =>
    rw [lexemesOf, legible_cons, separate_head_iff, legible_blanks_append i.blank, ih,
      List.isChain_cons]
    exact and_iff_right i.spelled.spells

theorem toList_source (w : SpacedTokens) : w.source.toList = w.lexemes.flatMap Lexeme.text := by
  rw [source, String.toList_ofList, lexemes, List.flatMap_append, flatMap_text_blanks,
    flatMap_text_lexemesOf]

/-- **Tokens written down and read.** However tokens are written with blanks, no character of the
text is illegal. Reading the text finds these tokens and nothing else, and then its end, if there is
a blank wherever two neighbours would run together, and it does not if one of these blanks is
missing. -/
theorem stream_source_iff (w : SpacedTokens) :
    IllegalChar.ofSource w.source = [] ∧
      ((Token.stream w.source).map Token.erase =
        w.row.map SpacedToken.token ++ [.synthetic .eof ""] ↔ w.Separated) := by
  have spelled : ∀ l ∈ w.lexemes, l.shape.Spells l.text :=
    List.forall_mem_append.2 ⟨spelled_blanks w.blank, spelled_lexemesOf w.row⟩
  have legal : Legal w.lexemes :=
    Lexeme.legal_append.2 ⟨legal_blanks w.margin, legal_lexemesOf w.row⟩
  have tokens : w.lexemes.filterMap Lexeme.token? = w.row.map SpacedToken.token := by
    rw [lexemes, List.filterMap_append, filterMap_token?_blanks, filterMap_token?_lexemesOf,
      List.nil_append]
  constructor
  · rw [IllegalChar.ofSource, Item.ofSource, toList_source]
    exact Item.illegal_ofLexemes 0 (Lexeme.legal_split (Lexeme.ofChar_ne_illegal spelled legal))
  · have ends : (Token.ofEnd w.source).erase = .synthetic .eof "" := rfl
    rw [Token.stream, List.map_append, List.map_singleton, ends, List.append_left_inj,
      Token.map_erase_ofSource, toList_source, ← tokens, Lexeme.tokens_split_eq_iff spelled legal,
      lexemes, legible_blanks_append w.blank, legible_lexemesOf_iff, Separated]

/-- `return 07x1!==-`, with the given blanks behind the exclamation mark and others at the ends. -/
def returned (gap : List Char) (blank : ∀ c ∈ gap, isBlank c) : SpacedTokens where
  margin := ['\t']
  row :=
    [⟨.kwReturn, "return", [' '], .fixed rfl, List.all_eq_true.1 rfl⟩,
      ⟨.int, "07", [], .numeral rfl ⟨by decide, List.all_eq_true.1 rfl⟩, by simp⟩,
      ⟨.ident, "x1", [], .name rfl ⟨Shape.spells_word rfl rfl, by decide⟩, by simp⟩,
      ⟨.bang, "!", gap, .fixed rfl, blank⟩,
      ⟨.eq, "==", [], .fixed rfl, by simp⟩,
      ⟨.minus, "-", ['\r', '\n'], .fixed rfl, List.all_eq_true.1 rfl⟩]
  blank := List.all_eq_true.1 rfl

theorem separated_returned {gap : List Char} (blank : ∀ c ∈ gap, isBlank c) :
    (returned gap blank).Separated ↔ gap ≠ [] := by
  simp [Separated, returned, Token.Kind.runsInto, Token.Kind.isWord, Token.Kind.isKeyword]

/-- The tokens of the row. -/
def returnedTokens : List Token :=
  [.synthetic .kwReturn "return", .synthetic .int "07", .synthetic .ident "x1",
    .synthetic .bang "!", .synthetic .eq "==", .synthetic .minus "-", .synthetic .eof ""]

theorem source_returned {gap : List Char} (blank : ∀ c ∈ gap, isBlank c) :
    (returned gap blank).source = "\treturn 07x1!" ++ .ofList gap ++ "==-\r\n" := by
  rw [← String.toList_inj]
  simp [source, returned]

/-- Between the exclamation mark and the equality sign a blank is needed, behind the number none. -/
theorem stream_source_iff_returned :
    (IllegalChar.ofSource "\treturn 07x1! ==-\r\n" = [] ∧
      (Token.stream "\treturn 07x1! ==-\r\n").map Token.erase = returnedTokens) ∧
    IllegalChar.ofSource "\treturn 07x1!==-\r\n" = [] ∧
      (Token.stream "\treturn 07x1!==-\r\n").map Token.erase ≠ returnedTokens := by
  have blank : ∀ c ∈ [' '], isBlank c := List.all_eq_true.1 rfl
  have none : ∀ c ∈ ([] : List Char), isBlank c := by simp
  obtain ⟨legal, found⟩ := stream_source_iff (returned [' '] blank)
  obtain ⟨legal', lost⟩ := stream_source_iff (returned [] none)
  rw [source_returned] at legal found legal' lost
  refine ⟨⟨legal, found.2 ((separated_returned blank).2 (by simp))⟩, legal', fun read => ?_⟩
  exact (separated_returned none).1 (lost.1 read) rfl

end SpacedTokens

end MonkeyFrontEnd
