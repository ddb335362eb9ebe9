import MonkeyFrontEnd.Cursor
import MonkeyFrontEnd.Proofs.Lexing.Places
import MonkeyFrontEnd.Proofs.Lexing.Spelling

/-!
# Items tile their text

`Item.Tiles` says what the items of a text have to be without saying how they are found: each stands
where its span says, is a token or a stray character that what comes next does not make longer, and
between them there are blanks only. `Item.tiles_iff` says that a text has exactly one such row of
items. A tiling is taken apart from the left (`Item.Tiles.uncons`): the text begins with a blank, or
with the first item. So the lexemes of a tiling can be listed, and they are legible.
-/

set_option autoImplicit false

namespace MonkeyFrontEnd

open Lexeme (Legible Separate Shape)
open Text (byteCount)

/-- A token of the kind may go on with the character. -/
def Token.Kind.mayTake (k : Kind) (c : Char) : Bool :=
  match k with
  | .ident => isWordPart c
  | .int => c.isDigit
  | .assign | .bang => c = '='
  | k => k.isKeyword && isWordPart c

namespace Item

/-- The characters that the item consists of. -/
def text : Item → List Char
  | .token t => t.literal.toList
  | .illegal e => e.text.toList

/-- The item is a whole token, spelled as its kind says, that the character behind it does not
belong to; or it is a single character, not blank, that no token begins with. -/
inductive Whole (next : Option Char) : Item → Prop
  | token {t : Token} (spelled : t.Spelled) (ends : ∀ c ∈ next, t.kind.mayTake c = false) :
      Whole next (.token t)
  | illegal {e : IllegalChar} {c : Char} (single : e.text.toList = [c])
      (visible : isBlank c = false)
      (stray : ∀ t : Token, t.Spelled → t.literal.toList.head? ≠ some c) : Whole next (.illegal e)

/-- The item is a stretch of the text `cs`, which begins at the byte offset `start`, as its span
says, and it is whole there. -/
def StandsIn (start : Nat) (cs : List Char) (i : Item) : Prop :=
  ∃ before behind, cs = before ++ i.text ++ behind ∧
    i.span = ⟨start + byteCount before, start + byteCount before + byteCount i.text⟩ ∧
    i.Whole behind.head?

/-- The items, in order, are all that the text `cs` consists of besides blanks, where `cs` begins at
the byte offset `start`. -/
structure Tiles (start : Nat) (cs : List Char) (items : List Item) : Prop where
  stand : ∀ i ∈ items, i.StandsIn start cs
  ordered : items.Pairwise fun i j => i.span.stop ≤ j.span.start
  covered : ∀ before c behind, cs = before ++ c :: behind → isBlank c ∨
    ∃ i ∈ items, i.span.start ≤ start + byteCount before ∧ start + byteCount before < i.span.stop

variable {start : Nat} {c : Char} {cs front : List Char} {i : Item} {items gone : List Item}
  {next : Option Char} {l : Lexeme} {ls : List Lexeme}

/-! ### Items and lexemes -/

/-- The lexeme that the item is written as. -/
def lexeme : Item → Lexeme
  | .token t => t.lexeme
  | .illegal e => ⟨.illegal, e.text.toList⟩

theorem text_lexeme (i : Item) : i.lexeme.text = i.text := by
  cases i <;> rfl

/-- What a token may take is what its lexeme is extended by. -/
theorem extend?_shape_eq_none_iff (k : Token.Kind) (c : Char) :
    k.shape.extend? c = none ↔ k.mayTake c = false := by
  cases k <;> simp [Token.Kind.shape, Shape.extend?, Token.Kind.mayTake, Token.Kind.isKeyword]

theorem shape_of_kind? {k : Token.Kind} (spelled : l.shape.Spells l.text) (h : l.kind? = some k) :
    k.shape = l.shape := by
  obtain ⟨shape, text⟩ := l
  cases shape with
  | word =>
    simp only [Lexeme.kind?, Option.some.injEq] at h
    cases found : Token.Kind.keyword? (String.ofList text) with
    | none =>
      rw [found] at h
      subst h
      rfl
    | some k' =>
      rw [found] at h
      subst h
      obtain ⟨key, spelling⟩ := Token.Kind.keyword?_eq_some_iff.1 found
      rw [Option.getD_some, Token.Kind.shape_of_spelling? spelling, if_pos key]
  | number =>
    cases h
    rfl
  | sign k' =>
    cases h
    obtain ⟨spelling, plain⟩ := spelled
    obtain ⟨s, hs, -⟩ := Option.map_eq_some_iff.1 spelling
    rw [Token.Kind.shape_of_spelling? hs, plain]
    rfl
  | blank => cases h
  | illegal => cases h

theorem item?_of_kind? {k : Token.Kind} (h : l.kind? = some k) (start : Nat) :
    l.item? start =
      some (.token ⟨k, String.ofList l.text, ⟨start, start + byteCount l.text⟩⟩) := by
  obtain ⟨shape, text⟩ := l
  cases shape <;> cases h <;> rfl

theorem item?_of_illegal (cs : List Char) (start : Nat) :
    (⟨.illegal, cs⟩ : Lexeme).item? start =
      some (.illegal ⟨String.ofList cs, ⟨start, start + byteCount cs⟩⟩) := rfl

theorem kind?_eq_none_iff : l.kind? = none ↔ l.shape = .blank ∨ l.shape = .illegal := by
  obtain ⟨shape, text⟩ := l
  cases shape <;> simp [Lexeme.kind?]

/-- The characters that make an illegal lexeme are those that are neither blank nor the beginning of
a token. -/
theorem ofChar_eq_illegal_iff :
    Shape.ofChar c = .illegal ↔
      isBlank c = false ∧ ∀ t : Token, t.Spelled → t.literal.toList.head? ≠ some c := by
  constructor
  · intro illegal
    constructor
    · rw [Bool.eq_false_iff]
      intro blank
      simp [Shape.ofChar, blank] at illegal
    · intro t spelled head
      obtain ⟨r, hr⟩ : ∃ r, t.lexeme.text = c :: r := List.head?_eq_some_iff.1 head
      have alone : Lexeme.split (c :: r) = [t.lexeme] := by
        rw [← hr]
        exact Lexeme.split_of_spells spelled.spells
      -- the text of the token would begin with an illegal lexeme
      have first : (Lexeme.split (c :: r)).head? = some ⟨.illegal, [c]⟩ := by
        cases r <;> simp [Lexeme.split, Lexeme.splitFrom, illegal, Shape.extend?]
      rw [alone, List.head?_singleton, Option.some.injEq] at first
      exact Lexeme.legal_lexeme t t.lexeme List.mem_cons_self (by rw [first])
  · rintro ⟨visible, stray⟩
    have spells := Shape.spells_ofChar c
    cases hk : (⟨Shape.ofChar c, [c]⟩ : Lexeme).kind? with
    | none =>
      rcases kind?_eq_none_iff.1 hk with blank | illegal
      · rw [show Shape.ofChar c = .blank from blank] at spells
        obtain ⟨d, hd, hb⟩ := spells
        cases hd
        rw [visible] at hb
        cases hb
      · exact illegal
    | some k =>
      have token : (⟨Shape.ofChar c, [c]⟩ : Lexeme).token? =
          some (.synthetic k (String.ofList [c])) := by
        rw [Lexeme.token?, hk]
        rfl
      refine absurd ?_ (stray _ (Token.spelled_of_token? spells token))
      simp [Token.synthetic]

theorem Whole.spells (h : i.Whole next) : i.lexeme.shape.Spells i.lexeme.text := by
  cases h with
  | token spelled => exact spelled.spells
  | illegal single visible stray => exact ⟨_, single, ofChar_eq_illegal_iff.2 ⟨visible, stray⟩⟩

theorem Whole.ne_nil (h : i.Whole next) : i.text ≠ [] := by
  rw [← text_lexeme]
  exact h.spells.ne_nil

theorem Whole.extend?_eq_none (h : i.Whole next) : ∀ c ∈ next, i.lexeme.shape.extend? c = none := by
  intro c hc
  cases h with
  | token spelled ends => exact (extend?_shape_eq_none_iff _ c).2 (ends c hc)
  | illegal => rfl

/-- An item that is whole can be read off its lexeme. -/
theorem Whole.item?_lexeme (h : i.Whole next)
    (place : i.span = ⟨start, start + byteCount i.text⟩) : i.lexeme.item? start = some i := by
  cases h with
  | @token t spelled ends =>
    rw [lexeme, item?_of_kind? spelled.kind?_lexeme]
    obtain ⟨kind, literal, span⟩ := t
    obtain rfl : span = ⟨start, start + byteCount literal.toList⟩ := place
    simp [Token.lexeme]
  | @illegal e c single visible stray =>
    obtain ⟨text, span⟩ := e
    obtain rfl : span = ⟨start, start + byteCount text.toList⟩ := place
    rw [lexeme, item?_of_illegal, String.ofList_toList]

/-- The item of a lexeme is whole if nothing behind the lexeme extends it. -/
theorem whole_of_item? (spelled : l.shape.Spells l.text)
    (ends : ∀ c ∈ next, l.shape.extend? c = none) (h : l.item? start = some i) :
    i.Whole next ∧ i.text = l.text := by
  cases hk : l.kind? with
  | some k =>
    rw [item?_of_kind? hk, Option.some.injEq] at h
    subst h
    have token : l.token? = some (.synthetic k (String.ofList l.text)) := by
      rw [Lexeme.token?, hk]
      rfl
    refine ⟨.token ?_ ?_, String.toList_ofList⟩
    · exact Token.spelled_erase.1 (Token.spelled_of_token? spelled token)
    · intro c hc
      rw [← extend?_shape_eq_none_iff, shape_of_kind? spelled hk]
      exact ends c hc
  | none =>
    obtain ⟨shape, cs⟩ := l
    rcases kind?_eq_none_iff.1 hk with blank | illegal
    · cases blank
      cases h
    · cases illegal
      cases h
      obtain ⟨c, rfl, hc⟩ := spelled
      obtain ⟨visible, stray⟩ := ofChar_eq_illegal_iff.1 hc
      exact ⟨.illegal String.toList_ofList visible stray, String.toList_ofList⟩

/-! ### Tilings from the left -/

/-- What stands behind `front` stands in the whole text as well. -/
theorem StandsIn.append_left (h : i.StandsIn (start + byteCount front) cs) :
    i.StandsIn start (front ++ cs) := by
  obtain ⟨before, behind, rfl, place, whole⟩ := h
  refine ⟨front ++ before, behind, by simp, ?_, whole⟩
  rw [place, Text.byteCount_append, ← Nat.add_assoc]

/-- An item that does not begin before the end of `front` stands in the text behind it. -/
theorem StandsIn.of_append_left (h : i.StandsIn start (front ++ cs))
    (later : start + byteCount front ≤ i.span.start) : i.StandsIn (start + byteCount front) cs := by
  obtain ⟨before, behind, split, place, whole⟩ := h
  have le : byteCount front ≤ byteCount before := by
    rw [place] at later
    exact Nat.le_of_add_le_add_left later
  rw [List.append_assoc] at split
  obtain ⟨more, rfl, rfl⟩ := Text.exists_eq_append_of_byteCount_le split le
  refine ⟨more, behind, by simp, ?_, whole⟩
  rw [place, Text.byteCount_append, ← Nat.add_assoc]

theorem StandsIn.ne_nil (h : i.StandsIn start cs) : cs ≠ [] := by
  obtain ⟨before, behind, rfl, -, whole⟩ := h
  intro none
  rw [List.append_eq_nil_iff, List.append_eq_nil_iff] at none
  exact whole.ne_nil none.1.2

theorem StandsIn.start_le (h : i.StandsIn start cs) :
    start ≤ i.span.start ∧ i.span.start < i.span.stop := by
  obtain ⟨before, behind, -, place, whole⟩ := h
  obtain ⟨c, cs, hc⟩ := List.exists_cons_of_ne_nil whole.ne_nil
  have positive : 0 < byteCount i.text := hc ▸ Text.byteCount_pos
  rw [place]
  constructor
  · exact Nat.le_add_right _ _
  · exact Nat.lt_add_of_pos_right positive

theorem tiles_nil (start : Nat) : Tiles start [] [] where
  stand := by simp
  ordered := .nil
  covered before c behind split := by simp at split

/-- A tiling goes on to the left with a blank. -/
theorem Tiles.blank (hc : isBlank c) (h : Tiles (start + byteCount [c]) cs items) :
    Tiles start ([c] ++ cs) items where
  stand i hi := (h.stand i hi).append_left
  ordered := h.ordered
  covered before d behind split := by
    cases before with
    | nil =>
      cases split
      exact .inl hc
    | cons b before =>
      cases split
      simpa [Nat.add_assoc] using h.covered before d behind rfl

/-- A tiling goes on to the left with an item. -/
theorem Tiles.item (place : i.span = ⟨start, start + byteCount i.text⟩) (whole : i.Whole cs.head?)
    (h : Tiles (start + byteCount i.text) cs items) : Tiles start (i.text ++ cs) (i :: items) where
  stand j hj := by
    rcases List.mem_cons.1 hj with rfl | hj
    · exact ⟨[], cs, rfl, by simpa using place, whole⟩
    · exact (h.stand j hj).append_left
  ordered := by
    refine List.pairwise_cons.2 ⟨fun j hj => ?_, h.ordered⟩
    rw [place]
    exact (h.stand j hj).start_le.1
  covered before c behind split := by
    by_cases inside : byteCount before < byteCount i.text
    · refine .inr ⟨i, List.mem_cons_self, ?_⟩
      rw [place]
      constructor
      · exact Nat.le_add_right _ _
      · exact Nat.add_lt_add_left inside _
    · -- the character stands behind the item
      obtain ⟨more, rfl, hcs⟩ :=
        Text.exists_eq_append_of_byteCount_le split (Nat.not_lt.1 inside)
      rcases h.covered more c behind hcs with hc | ⟨j, hj, cover⟩
      · exact .inl hc
      · refine .inr ⟨j, List.mem_cons_of_mem _ hj, ?_⟩
        rwa [Text.byteCount_append, ← Nat.add_assoc]

/-- What is left of a tiling behind `front`, when the items `gone` end there. -/
theorem Tiles.drop (h : Tiles start (front ++ cs) (gone ++ items))
    (ended : ∀ i ∈ gone, i.span.stop ≤ start + byteCount front)
    (later : ∀ i ∈ items, start + byteCount front ≤ i.span.start) :
    Tiles (start + byteCount front) cs items where
  stand i hi := (h.stand i (List.mem_append_right _ hi)).of_append_left (later i hi)
  ordered := (List.pairwise_append.1 h.ordered).2.1
  covered before c behind split := by
    have whole : front ++ cs = (front ++ before) ++ c :: behind := by simp [split]
    rcases h.covered _ c behind whole with hc | ⟨i, hi, cover⟩
    · exact .inl hc
    · rw [Text.byteCount_append, ← Nat.add_assoc] at cover
      rcases List.mem_append.1 hi with hi | hi
      · have := ended i hi
        omega
      · exact .inr ⟨i, hi, cover⟩

/-- The items of a tiling that begin at its beginning are its first one at most. -/
theorem Tiles.eq_cons (h : Tiles start cs items) (hi : i ∈ items) (first : i.span.start = start) :
    ∃ others, items = i :: others := by
  obtain ⟨before, others, rfl⟩ := List.append_of_mem hi
  cases before with
  | nil => exact ⟨others, rfl⟩
  | cons j before =>
    have hj := (h.stand j List.mem_cons_self).start_le
    have apart := (List.pairwise_cons.1 h.ordered).1 i (by simp)
    omega

/-- How a tiling begins: with a blank, or with its first item. -/
theorem Tiles.uncons (h : Tiles start (c :: cs) items) :
    (isBlank c ∧ Tiles (start + byteCount [c]) cs items) ∨
      ∃ i others behind, items = i :: others ∧ c :: cs = i.text ++ behind ∧
        i.span = ⟨start, start + byteCount i.text⟩ ∧ i.Whole behind.head? ∧
        Tiles (start + byteCount i.text) behind others := by
  by_cases first : ∃ i ∈ items, i.span.start = start
  · obtain ⟨i, hi, begins⟩ := first
    obtain ⟨others, rfl⟩ := h.eq_cons hi begins
    obtain ⟨before, behind, split, place, whole⟩ := h.stand i List.mem_cons_self
    obtain rfl : before = [] := by
      rw [← Text.byteCount_eq_zero_iff]
      rw [place] at begins
      exact Nat.add_eq_left.1 begins
    rw [List.nil_append] at split
    rw [Text.byteCount_nil, Nat.add_zero] at place
    refine .inr ⟨i, others, behind, rfl, split, place, whole, ?_⟩
    have tiles : Tiles start (i.text ++ behind) ([i] ++ others) := split ▸ h
    refine tiles.drop ?_ ?_
    · intro j hj
      rw [List.mem_singleton.1 hj, place]
    · intro j hj
      have apart := (List.pairwise_cons.1 h.ordered).1 j hj
      rwa [place] at apart
  · -- no item covers the first character
    have later : ∀ i ∈ items, start + byteCount [c] ≤ i.span.start := by
      intro i hi
      obtain ⟨before, behind, split, place, -⟩ := h.stand i hi
      cases before with
      | nil => exact absurd ⟨i, hi, by rw [place]; simp⟩ first
      | cons d before =>
        cases split
        rw [place]
        simp [Text.byteCount_cons]
    have whole : Tiles start ([c] ++ cs) ([] ++ items) := h
    refine .inl ⟨?_, whole.drop (by simp) later⟩
    rcases h.covered [] c cs rfl with hc | ⟨i, hi, cover⟩
    · exact hc
    · have := later i hi
      have positive : 0 < byteCount [c] := Text.byteCount_pos
      simp only [Text.byteCount_nil] at cover
      omega

/-! ### Tilings and lexemes -/

/-- What is true of the first character of a row's text is true of the first character of its first
lexeme. -/
theorem forall_head_flatMap {P : Char → Prop} (h : Legible ls) :
    (∀ c ∈ (ls.flatMap Lexeme.text).head?, P c) ↔ ∀ m ∈ ls.head?, ∀ c ∈ m.text.head?, P c := by
  cases ls with
  | nil => simp
  | cons m ms =>
    have nonempty := (h.spelled m List.mem_cons_self).ne_nil
    rw [List.flatMap_cons, List.head?_append_of_ne_nil _ nonempty]
    simp

/-- The items of a legible row tile its text. -/
theorem tiles_of_legible (h : Legible ls) (start : Nat) :
    Tiles start (ls.flatMap Lexeme.text) (ofLexemes start ls) := by
  induction ls generalizing start with
  | nil => exact tiles_nil start
  | cons l ls ih =>
    obtain ⟨spelled, next, others⟩ := Lexeme.legible_cons.1 h
    have ends := (forall_head_flatMap others).2 next
    have rest := ih others (start + byteCount l.text)
    rw [List.flatMap_cons, ofLexemes]
    cases found : l.item? start with
    | some i =>
      obtain ⟨whole, text⟩ := whole_of_item? spelled ends found
      have place := span_of_item? found
      rw [← text] at place rest ⊢
      exact rest.item place whole
    | none =>
      obtain ⟨shape, text⟩ := l
      cases shape with
      | blank =>
        obtain ⟨c, rfl, hc⟩ := spelled
        exact rest.blank hc
      | _ => simp [Lexeme.item?, Lexeme.kind?] at found

/-- Every tiling comes from a legible row of lexemes. -/
theorem Tiles.exists_lexemes (h : Tiles start cs items) :
    ∃ ls, Legible ls ∧ ls.flatMap Lexeme.text = cs ∧ ofLexemes start ls = items := by
  induction size : cs.length using Nat.strongRecOn generalizing start cs items with
  | ind n ih =>
    cases cs with
    | nil =>
      refine ⟨[], ⟨by simp, .nil⟩, rfl, ?_⟩
      cases items with
      | nil => rfl
      | cons i items => exact absurd rfl (h.stand i List.mem_cons_self).ne_nil
    | cons c cs =>
      rcases h.uncons with ⟨hc, rest⟩ | ⟨i, others, behind, rfl, split, place, whole, rest⟩
      · obtain ⟨ls, legible, rfl, rfl⟩ := ih cs.length (by simp [← size]) rest rfl
        refine ⟨⟨.blank, [c]⟩ :: ls, Lexeme.legible_cons.2 ⟨⟨c, rfl, hc⟩, ?_, legible⟩, rfl, rfl⟩
        intro m _ d _
        rfl
      · have shorter : behind.length < n := by
          have total := congrArg List.length split
          have nonempty := List.length_pos_iff.2 whole.ne_nil
          simp only [List.length_cons, List.length_append] at total size
          omega
        obtain ⟨ls, legible, rfl, rfl⟩ := ih behind.length shorter rest rfl
        refine ⟨i.lexeme :: ls, Lexeme.legible_cons.2 ⟨whole.spells, ?_, legible⟩, ?_, ?_⟩
        · exact (forall_head_flatMap legible).1 whole.extend?_eq_none
        · rw [List.flatMap_cons, text_lexeme, split]
        · rw [ofLexemes, whole.item?_lexeme place, text_lexeme]
          rfl

/-- A text has one tiling, and its items are the ones that reading finds. -/
theorem tiles_iff : Tiles start cs items ↔ items = ofLexemes start (Lexeme.split cs) := by
  constructor
  · intro h
    obtain ⟨ls, legible, rfl, rfl⟩ := h.exists_lexemes
    rw [Lexeme.split_flatMap_text legible]
  · rintro rfl
    have tiles := tiles_of_legible (Lexeme.legible_split cs) start
    rwa [Lexeme.flatMap_text_split] at tiles

theorem tiles_ofSource (source : String) : Tiles 0 source.toList (ofSource source) :=
  tiles_iff.2 rfl

/-- An item that is whole does not mark the end of the text. -/
theorem Whole.kind_ne_eof {t : Token} (h : (Item.token t).Whole next) : t.kind ≠ .eof := by
  intro eof
  cases h with
  | token spelled =>
    cases spelled with
    | name kind => exact absurd (eof.symm.trans kind) (by decide)
    | numeral kind => exact absurd (eof.symm.trans kind) (by decide)
    | fixed spelling =>
      rw [eof] at spelling
      cases spelling

/-- What is handed out when a text is read, said without reading it: the items that tile the text,
none of which marks its end, and then the token that does. -/
def IsStream (source : String) (stream : List Item) : Prop :=
  ∃ items, stream = items ++
      [.token ⟨.eof, "", ⟨source.utf8ByteSize, source.utf8ByteSize⟩⟩] ∧
    (∀ t, .token t ∈ items → t.kind ≠ .eof) ∧ Tiles 0 source.toList items

/-- **The items of a text.** Reading a source text to its end hands out the items that tile it, and
the token at its end. No other row of tokens and illegal characters does. -/
theorem isStream_iff (source : String) (stream : List Item) :
    IsStream source stream ↔ stream = (Cursor.ofSource source).drain.1 := by
  have drained : (Cursor.ofSource source).drain.1 =
      ofSource source ++ [.token (.ofEnd source)] := rfl
  rw [drained]
  constructor
  · rintro ⟨items, rfl, -, tiles⟩
    rw [tiles_iff.1 tiles]
    rfl
  · rintro rfl
    have tiles : Tiles 0 source.toList (ofSource source) := tiles_iff.2 rfl
    refine ⟨ofSource source, rfl, ?_, tiles⟩
    intro t ht
    obtain ⟨_, _, _, _, whole⟩ := tiles.stand _ ht
    exact whole.kind_ne_eof

end Item

end MonkeyFrontEnd
