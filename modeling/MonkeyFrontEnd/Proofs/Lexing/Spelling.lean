import MonkeyFrontEnd.Item
import MonkeyFrontEnd.Proofs.Lexing.Legible

/-!
# How tokens are spelled

The texts that tokens of each kind have (`Token.Spelled`), and the two ways between tokens and
text: every token of a source text is spelled as its kind says, and tokens so spelled, written with
blanks where two of them would run together, are the tokens of the text that they make
(`Lexeme.Legible.ofSource`).
-/

set_option autoImplicit false

namespace MonkeyFrontEnd

open Lexeme (Shape Legible)

/-- The reserved words. -/
def Token.Kind.reserved : List String :=
  ["fn", "let", "true", "false", "if", "else", "return"]

/-- A word that is not reserved. -/
def IsName (s : String) : Prop :=
  Shape.word.Spells s.toList ∧ s ∉ Token.Kind.reserved

/-- One digit or more. -/
def IsNumeral (s : String) : Prop :=
  Shape.number.Spells s.toList

namespace Token

theorem Kind.describe_of_spelling? {s : String} {k : Kind} (h : k.spelling? = some s) :
    k.describe = s := by
  cases k <;> cases h <;> rfl

theorem Kind.keyword?_eq_some_iff {s : String} {k : Kind} :
    keyword? s = some k ↔ k.isKeyword ∧ k.spelling? = some s := by
  constructor
  · intro h
    simpa using List.find?_some h
  · rintro ⟨key, spelled⟩
    rw [← describe_of_spelling? spelled]
    exact keyword?_describe key

theorem Kind.keyword?_eq_none_iff {s : String} : keyword? s = none ↔ s ∉ reserved := by
  constructor
  · intro h hs
    simp only [reserved, List.mem_cons, List.not_mem_nil, or_false] at hs
    rcases hs with rfl | rfl | rfl | rfl | rfl | rfl | rfl <;> exact absurd h (by decide)
  · intro h
    cases hk : keyword? s with
    | none => rfl
    | some k =>
      obtain ⟨key, spelled⟩ := keyword?_eq_some_iff.1 hk
      refine absurd ?_ h
      cases k <;> cases spelled <;> first | exact absurd key (by decide) | decide

/-- The shape of the lexemes that tokens of the kind are. -/
def Kind.shape : Kind → Shape
  | .ident => .word
  | .int => .number
  | k => if k.isKeyword then .word else .sign k

theorem Kind.shape_of_spelling? {s : String} {k : Kind} (h : k.spelling? = some s) :
    k.shape = if k.isKeyword then .word else .sign k := by
  cases k <;> cases h <;> rfl

/-- The token's text is one that tokens of its kind can have. -/
inductive Spelled (t : Token) : Prop
  | name (kind : t.kind = .ident) (h : IsName t.literal)
  | numeral (kind : t.kind = .int) (h : IsNumeral t.literal)
  | fixed (h : t.kind.spelling? = some t.literal)

/-- The lexeme that the token is written as. -/
def lexeme (t : Token) : Lexeme :=
  ⟨t.kind.shape, t.literal.toList⟩

end Token

/-- The token that the lexeme is, if it is one. -/
def Lexeme.token? (l : Lexeme) : Option Token :=
  l.kind?.map fun k => .synthetic k (String.ofList l.text)

namespace Token

variable {t : Token} {l : Lexeme}

/-! ### From tokens to lexemes -/

theorem spells_keyword {s : String} {k : Kind} (key : k.isKeyword) (h : k.spelling? = some s) :
    Shape.word.Spells s.toList := by
  cases k <;> cases h <;> first
    | exact absurd key (by decide)
    | exact Shape.spells_word rfl rfl

theorem Spelled.spells (h : t.Spelled) : t.lexeme.shape.Spells t.lexeme.text := by
  cases h with
  | name kind h =>
    rw [lexeme, kind]
    exact h.1
  | numeral kind h =>
    rw [lexeme, kind]
    exact h
  | fixed h =>
    rw [lexeme, Kind.shape_of_spelling? h]
    split
    · rename_i key
      exact spells_keyword key h
    · rename_i plain
      exact ⟨by rw [h]; rfl, Bool.eq_false_iff.2 plain⟩

theorem Spelled.kind?_lexeme (h : t.Spelled) : t.lexeme.kind? = some t.kind := by
  cases h with
  | name kind h =>
    have free := Kind.keyword?_eq_none_iff.2 h.2
    simp [lexeme, Lexeme.kind?, kind, Kind.shape, free]
  | numeral kind h => simp [lexeme, Lexeme.kind?, kind, Kind.shape]
  | fixed h =>
    by_cases key : t.kind.isKeyword
    · have found := Kind.keyword?_eq_some_iff.2 ⟨key, h⟩
      simp [lexeme, Lexeme.kind?, Kind.shape_of_spelling? h, key, found]
    · simp [lexeme, Lexeme.kind?, Kind.shape_of_spelling? h, key]

/-- A token that is spelled as its kind says can be read off what it is written as. -/
theorem Spelled.token?_lexeme (h : t.Spelled) : t.lexeme.token? = some t.erase := by
  rw [Lexeme.token?, h.kind?_lexeme]
  simp [lexeme, erase]

/-! ### From lexemes to tokens -/

theorem spelled_of_token? (spelled : l.shape.Spells l.text) (h : l.token? = some t) :
    t.Spelled := by
  obtain ⟨k, hk, rfl⟩ := Option.map_eq_some_iff.1 h
  obtain ⟨shape, text⟩ := l
  cases shape with
  | word =>
    simp only [Lexeme.kind?, Option.some.injEq] at hk
    cases found : Kind.keyword? (String.ofList text) with
    | none =>
      rw [found] at hk
      refine .name hk.symm ⟨?_, Kind.keyword?_eq_none_iff.1 found⟩
      simpa [synthetic] using spelled
    | some k' =>
      rw [found] at hk
      subst hk
      exact .fixed (Kind.keyword?_eq_some_iff.1 found).2
  | number =>
    cases hk
    refine .numeral rfl ?_
    simpa [IsNumeral, synthetic] using spelled
  | sign k' =>
    cases hk
    obtain ⟨s, hs, rfl⟩ := Option.map_eq_some_iff.1 spelled.1
    refine .fixed ?_
    simpa [synthetic] using hs
  | blank => cases hk
  | illegal => cases hk

theorem spelled_erase : t.erase.Spelled ↔ t.Spelled := by
  constructor
  all_goals
    intro h
    cases h with
    | name kind h => exact .name kind h
    | numeral kind h => exact .numeral kind h
    | fixed h => exact .fixed h

end Token

/-! ### The tokens of a source text -/

theorem Lexeme.map_erase_item? (start : Nat) (l : Lexeme) :
    ((l.item? start).toList.filterMap Item.token?).map Token.erase = l.token?.toList := by
  obtain ⟨shape, text⟩ := l
  cases shape <;> rfl

theorem Item.map_erase_ofLexemes (start : Nat) (ls : List Lexeme) :
    ((ofLexemes start ls).filterMap token?).map Token.erase = ls.filterMap Lexeme.token? := by
  induction ls generalizing start with
  | nil => rfl
  | cons l ls ih =>
    rw [ofLexemes, List.filterMap_append, List.map_append, ih, l.map_erase_item?,
      List.filterMap_cons]
    cases l.token? <;> rfl

/-- But for their places, the tokens of a source text are those of its lexemes. -/
theorem Token.map_erase_ofSource (source : String) :
    (Token.ofSource source).map Token.erase =
      (Lexeme.split source.toList).filterMap Lexeme.token? :=
  Item.map_erase_ofLexemes 0 _

/-- The tokens of a source text are spelled as their kinds say. -/
theorem Token.spelled_of_mem_ofSource {source : String} {t : Token} (h : t ∈ ofSource source) :
    t.Spelled := by
  have erased := List.mem_map_of_mem (f := Token.erase) h
  rw [map_erase_ofSource, List.mem_filterMap] at erased
  obtain ⟨l, hl, ht⟩ := erased
  exact spelled_erase.1 (spelled_of_token? (Lexeme.spells_of_mem_split hl) ht)

/-- No illegal character is among the lexemes. -/
def Lexeme.Legal (ls : List Lexeme) : Prop :=
  ∀ l ∈ ls, l.shape ≠ .illegal

theorem Lexeme.legal_append {ls ms : List Lexeme} : Legal (ls ++ ms) ↔ Legal ls ∧ Legal ms :=
  List.forall_mem_append

theorem Lexeme.legal_lexeme (t : Token) : Legal [t.lexeme] := by
  intro l hl
  cases List.mem_singleton.1 hl
  obtain ⟨kind, literal, span⟩ := t
  cases kind <;> exact nofun

theorem Item.illegal_ofLexemes (start : Nat) {ls : List Lexeme} (h : Lexeme.Legal ls) :
    (ofLexemes start ls).filterMap illegal? = [] := by
  induction ls generalizing start with
  | nil => rfl
  | cons l ls ih =>
    rw [Lexeme.Legal, List.forall_mem_cons] at h
    rw [ofLexemes, List.filterMap_append, ih _ h.2, List.append_nil]
    obtain ⟨shape, text⟩ := l
    cases shape with
    | illegal => exact absurd rfl h.1
    | _ => rfl

/-- A text that is put together from a legible row of lexemes has their tokens, and no illegal
characters. -/
theorem Lexeme.Legible.ofSource {source : String} {ls : List Lexeme} (h : Legible ls)
    (legal : Legal ls) (written : source.toList = ls.flatMap Lexeme.text) :
    (Token.ofSource source).map Token.erase = ls.filterMap Lexeme.token? ∧
      IllegalChar.ofSource source = [] := by
  have split : Lexeme.split source.toList = ls := by rw [written, Lexeme.split_flatMap_text h]
  refine ⟨by rw [Token.map_erase_ofSource, split], ?_⟩
  rw [IllegalChar.ofSource, Item.ofSource, split]
  exact Item.illegal_ofLexemes 0 legal

end MonkeyFrontEnd
