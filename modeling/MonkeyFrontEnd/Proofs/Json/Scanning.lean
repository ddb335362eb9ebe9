import Mathlib.Data.List.Chain
import MonkeyFrontEnd.Json.Reader
import MonkeyFrontEnd.Proofs.Json.Numbers

/-!
# A JSON text is read as the value that it spells

First from characters to tokens: the machine that scans a text emits the tokens that the text spells
(`Scan.run_spells`), where a scalar without quotation marks is emitted when the character behind it
is read. Then from tokens to values: the machine with the open arrays and objects reads the tokens
of a value in one go, whatever is open around it (`Due.run_tokens`). Together they read a text that
spells a value as that value (`read?_of_spelledBy`).
-/

set_option autoImplicit false

namespace MonkeyFrontEnd.Json

variable {cs ds gap rest : List Char} {c : Char} {t : Token} {ts us : List Token} {j : Json}
  {p : Piece} {ps read : List Piece}

/-- A blank belongs to no scalar. -/
theorem isBare_of_isSpace (h : isSpace c) : isBare c = false := by
  simp only [isSpace, Bool.or_eq_true, decide_eq_true_eq] at h
  rcases h with ((rfl | rfl) | rfl) | rfl <;> decide

namespace Scan

variable {s s' : Scan}

theorem run_cons (h : s.step c = some (s', ts)) :
    run s (c :: cs) = (run s' cs).map (ts ++ ·) := by
  rw [run, h]

/-- A character that completes no token only changes the state. -/
theorem run_cons_silent (h : s.step c = some (s', [])) : run s (c :: cs) = run s' cs := by
  rw [run_cons h]
  cases run s' cs <;> rfl

/-! ### Single tokens -/

theorem run_blanks (blank : Blanks gap) (rest : List Char) :
    run .between (gap ++ rest) = run .between rest := by
  induction gap with
  | nil => rfl
  | cons c gap ih =>
    obtain ⟨first, others⟩ := List.forall_mem_cons.1 blank
    have step : step .between c = some (.between, []) := by simp [step, enter, first]
    rw [List.cons_append, run_cons_silent step, ih others]

/-- What the signs are not. -/
theorem of_punctuation? (h : punctuation? c = some t) :
    isSpace c = false ∧ c ≠ '"' ∧ isBare c = false := by
  unfold punctuation? at h
  split at h <;> first | decide | cases h

theorem run_punctuation (h : punctuation? c = some t) (rest : List Char) :
    run .between (c :: rest) = (run .between rest).map (t :: ·) := by
  obtain ⟨space, quote, bare⟩ := of_punctuation? h
  have step : step .between c = some (.between, [t]) := by
    simp [step, enter, space, quote, bare, h]
  exact run_cons step

/-- Inside a string a piece is read from each of its spellings. -/
theorem run_piece (h : p.Spelled cs) (read : List Piece) (rest : List Char) :
    run (.string read) (cs ++ rest) = run (.string (p :: read)) rest := by
  cases h with
  | plain printed quote backslash =>
    exact run_cons_silent (by simp [step, quote, backslash, printed])
  | @letter c l escape =>
    have hex : l ≠ 'u' := by
      rintro rfl
      simp [ofLetter?] at escape
    have opens : step (.string read) '\\' = some (.escape read, []) := by simp [step]
    have closes : step (.escape read) l = some (.string (.char c :: read), []) := by
      simp [step, hex, escape]
    rw [List.cons_append, run_cons_silent opens]
    exact run_cons_silent closes
  | @unit c₁ c₂ c₃ c₄ n₁ n₂ n₃ n₄ h₁ h₂ h₃ h₄ =>
    have opens : step (.string read) '\\' = some (.escape read, []) := by simp [step]
    have hex : step (.escape read) 'u' = some (.unit read 3 0, []) := by simp [step]
    have first : step (.unit read 3 0) c₁ = some (.unit read 2 n₁, []) := by simp [step, h₁]
    have second : step (.unit read 2 n₁) c₂ = some (.unit read 1 (n₁ * 16 + n₂), []) := by
      simp [step, h₂]
    have third : step (.unit read 1 (n₁ * 16 + n₂)) c₃ =
        some (.unit read 0 ((n₁ * 16 + n₂) * 16 + n₃), []) := by
      simp [step, h₃]
    have fourth : step (.unit read 0 ((n₁ * 16 + n₂) * 16 + n₃)) c₄ =
        some (.string (.unit (((n₁ * 16 + n₂) * 16 + n₃) * 16 + n₄) :: read), []) := by
      simp [step, h₄]
    simp only [List.cons_append, List.nil_append]
    rw [run_cons_silent opens, run_cons_silent hex, run_cons_silent first, run_cons_silent second,
      run_cons_silent third, run_cons_silent fourth]

theorem run_pieces (h : SpelledPieces ps cs) (read : List Piece) (rest : List Char) :
    run (.string read) (cs ++ '"' :: rest) =
      (run .between rest).map (.scalar (.string (read.reverse ++ ps)) :: ·) := by
  induction h generalizing read with
  | nil =>
    have closes : step (.string read) '"' =
        some (.between, [.scalar (.string read.reverse)]) := by simp [step]
    rw [List.nil_append, run_cons closes, List.append_nil]
    rfl
  | @cons p ps cs ds first others ih =>
    rw [List.append_assoc, run_piece first, ih]
    simp

/-- Characters of a scalar without quotation marks are kept until it ends. -/
theorem run_bare (bare : ∀ c ∈ cs, isBare c) (read rest : List Char) :
    run (.bare read) (cs ++ rest) = run (.bare (cs.reverse ++ read)) rest := by
  induction cs generalizing read with
  | nil => rfl
  | cons c cs ih =>
    obtain ⟨first, others⟩ := List.forall_mem_cons.1 bare
    have step : step (.bare read) c = some (.bare (c :: read), []) := by simp [step, first]
    rw [List.cons_append, run_cons_silent step, ih others]
    simp

/-- A scalar without quotation marks is emitted when a character follows that does not belong to
it, or nothing. -/
theorem run_bare_end {chars : List Char} (value : bare? chars.reverse = some j)
    (ends : ∀ c ∈ rest.head?, isBare c = false) :
    run (.bare chars) rest = (run .between rest).map (.scalar j :: ·) := by
  cases rest with
  | nil => simp [run, finish, value]
  | cons c rest =>
    have outside : isBare c = false := ends c rfl
    have between : step .between c = enter c := rfl
    cases entered : enter c with
    | none => simp [run, step, outside, value, entered]
    | some result =>
      obtain ⟨s, ts⟩ := result
      have emits : step (.bare chars) c = some (s, .scalar j :: ts) := by
        simp [step, outside, value, entered]
      rw [run_cons emits, run_cons (between.trans entered), Option.map_map]
      rfl

theorem run_scalar (nonempty : cs ≠ []) (bare : ∀ c ∈ cs, isBare c) (value : bare? cs = some j)
    (ends : ∀ c ∈ rest.head?, isBare c = false) :
    run .between (cs ++ rest) = (run .between rest).map (.scalar j :: ·) := by
  obtain ⟨c, cs, rfl⟩ := List.exists_cons_of_ne_nil nonempty
  obtain ⟨first, others⟩ := List.forall_mem_cons.1 bare
  have space : isSpace c = false := by
    rw [Bool.eq_false_iff]
    intro space
    rw [isBare_of_isSpace space] at first
    cases first
  have quote : c ≠ '"' := by
    rintro rfl
    exact absurd first (by decide)
  have step : step .between c = some (.bare [c], []) := by
    simp [step, enter, space, quote, first]
  rw [List.cons_append, run_cons_silent step, run_bare others]
  exact run_bare_end (by simpa using value) ends

end Scan

/-! ### Rows of tokens -/

/-- The token is a scalar without quotation marks. -/
def Token.isBare : Token → Bool
  | .scalar (.string _) => false
  | .scalar _ => true
  | _ => false

/-- Two tokens of which the first does not run into the second. -/
def Token.Apart (t u : Token) : Prop :=
  t.isBare = false ∨ u.isBare = false

theorem isBare_of_punctuation? (h : punctuation? c = some t) : t.isBare = false := by
  unfold punctuation? at h
  split at h <;> cases h <;> rfl

/-- The spellings of a scalar without quotation marks consist of characters that are read as one. -/
theorem Token.Spelled.bare (h : t.Spelled cs) (bare : t.isBare) :
    cs ≠ [] ∧ (∀ c ∈ cs, Json.isBare c) ∧ ∃ j, t = .scalar j ∧ bare? cs = some j := by
  cases h with
  | punctuation sign =>
    rw [isBare_of_punctuation? sign] at bare
    cases bare
  | nullWord => exact ⟨by simp, List.all_eq_true.1 rfl, _, rfl, rfl⟩
  | trueWord => exact ⟨by simp, List.all_eq_true.1 rfl, _, rfl, rfl⟩
  | falseWord => exact ⟨by simp, List.all_eq_true.1 rfl, _, rfl, rfl⟩
  | int i =>
    have number := number_writeInt i
    exact ⟨number.ne_nil, number.isBare, _, rfl, by rw [bare?_of_number number, number?_writeInt]⟩
  | real number other =>
    exact ⟨number.ne_nil, number.isBare, _, rfl,
      by rw [bare?_of_number number, number?_of_number number other]⟩
  | string => cases bare

/-- Every other token begins with a character that belongs to no such scalar. -/
theorem Token.Spelled.head (h : t.Spelled cs) :
    ∃ c r, cs = c :: r ∧ (t.isBare = false → Json.isBare c = false) := by
  cases bare : t.isBare with
  | false =>
    cases h with
    | punctuation sign => exact ⟨_, _, rfl, fun _ => (Scan.of_punctuation? sign).2.2⟩
    | string => exact ⟨_, _, rfl, fun _ => by decide⟩
    | _ => cases bare
  | true =>
    obtain ⟨c, r, rfl⟩ := List.exists_cons_of_ne_nil (h.bare bare).1
    exact ⟨c, r, rfl, by simp⟩

theorem Spells.eq_nil (h : Spells ts []) : ts = [] := by
  generalize whole : ([] : List Char) = cs at h
  cases h with
  | nil => rfl
  | cons blank first others =>
    obtain ⟨c, r, rfl, -⟩ := first.head
    simp at whole

/-- What the text of tokens begins with belongs to no scalar before it, if its first token is not
such a scalar itself. -/
theorem Spells.head (h : Spells ts cs) (first : ∀ t ∈ ts.head?, t.isBare = false) :
    ∀ c ∈ cs.head?, isBare c = false := by
  have space : ∀ {gap : List Char}, Blanks gap → ∀ c ∈ gap.head?, isBare c = false :=
    fun blank c hc => isBare_of_isSpace (blank c (List.mem_of_mem_head? hc))
  cases h with
  | nil blank => exact space blank
  | @cons gap cs ds t ts blank spelled others =>
    intro c hc
    cases gap with
    | nil =>
      obtain ⟨d, r, rfl, hd⟩ := spelled.head
      cases hc
      exact hd (first t rfl)
    | cons d gap => exact space blank c hc

theorem Scan.run_spelled (h : t.Spelled cs)
    (ends : t.isBare → ∀ c ∈ rest.head?, Json.isBare c = false) :
    run .between (cs ++ rest) = (run .between rest).map (t :: ·) := by
  cases bare : t.isBare with
  | false =>
    cases h with
    | punctuation sign => exact run_punctuation sign rest
    | @string ps cs pieces =>
      have opens : step .between '"' = some (.string [], []) := rfl
      rw [List.cons_append, List.append_assoc, run_cons_silent opens]
      exact run_pieces pieces [] rest
    | _ => cases bare
  | true =>
    obtain ⟨nonempty, chars, j, rfl, value⟩ := h.bare bare
    exact run_scalar nonempty chars value (ends bare)

/-- Scanning a text that spells tokens emits them, and goes on with what stands behind it. -/
theorem Scan.run_spells (h : Spells ts cs) (apart : ts.IsChain Token.Apart)
    (ends : ∀ t ∈ ts.getLast?, t.isBare → ∀ c ∈ rest.head?, Json.isBare c = false) :
    run .between (cs ++ rest) = (run .between rest).map (ts ++ ·) := by
  induction h with
  | nil blank =>
    rw [run_blanks blank]
    cases run .between rest <;> rfl
  | @cons gap cs ds t ts blank spelled others ih =>
    obtain ⟨next, apart⟩ := List.isChain_cons.1 apart
    have here : t.isBare → ∀ c ∈ (ds ++ rest).head?, Json.isBare c = false := by
      intro bare c hc
      cases ds with
      | nil =>
        obtain rfl := others.eq_nil
        exact ends t rfl bare c hc
      | cons d ds =>
        refine others.head ?_ c hc
        intro u hu
        exact (next u hu).resolve_left (by simp [bare])
    have later : ∀ u ∈ ts.getLast?, u.isBare → ∀ c ∈ rest.head?, Json.isBare c = false := by
      intro u hu
      refine ends u ?_
      cases ts with
      | nil => cases hu
      | cons v ts => rwa [List.getLast?_cons_cons]
    rw [List.append_assoc, List.append_assoc, run_blanks blank, run_spelled spelled here,
      ih apart later, Option.map_map]
    rfl

/-! ### The tokens of a value -/

/-- Tokens that are apart, and may stand behind any token. -/
structure Token.Follow (us : List Token) : Prop where
  apart : us.IsChain Token.Apart
  first : ∀ u ∈ us.head?, u.isBare = false

theorem Token.Follow.cons (h : Token.Follow us) (t : Token) : (t :: us).IsChain Token.Apart :=
  List.isChain_cons.2 ⟨fun u hu => .inr (h.first u hu), h.apart⟩

/-- A token that is no scalar may stand behind any token, and before any token. -/
theorem Token.follow_cons (plain : t.isBare = false) (apart : us.IsChain Token.Apart) :
    Token.Follow (t :: us) where
  apart := List.isChain_cons.2 ⟨fun _ _ => .inl plain, apart⟩
  first u hu := by
    cases hu
    exact plain

theorem follow_tokensOfItems {js : List Json}
    (each : ∀ j ∈ js, ∀ us, Token.Follow us → (j.tokens ++ us).IsChain Token.Apart)
    (h : Token.Follow us) : Token.Follow (tokensOfItems js ++ us) := by
  induction js with
  | nil => exact h
  | cons j js ih =>
    obtain ⟨here, later⟩ := List.forall_mem_cons.1 each
    rw [tokensOfItems, List.cons_append, List.append_assoc]
    exact Token.follow_cons rfl (here _ (ih later))

theorem follow_tokensOfMembers {ms : List (List Piece × Json)}
    (each : ∀ m ∈ ms, ∀ us, Token.Follow us → (m.2.tokens ++ us).IsChain Token.Apart)
    (h : Token.Follow us) : Token.Follow (tokensOfMembers ms ++ us) := by
  induction ms with
  | nil => exact h
  | cons m ms ih =>
    obtain ⟨key, j⟩ := m
    obtain ⟨here, later⟩ := List.forall_mem_cons.1 each
    have value := here _ (ih later)
    rw [tokensOfMembers, List.cons_append, List.cons_append, List.cons_append, List.append_assoc]
    exact Token.follow_cons rfl (Token.follow_cons rfl (Token.follow_cons rfl value).apart).apart

/-- The tokens of a value are apart, also from those behind them. -/
theorem isChain_tokens (j : Json) (us : List Token) (h : Token.Follow us) :
    (j.tokens ++ us).IsChain Token.Apart := by
  induction j using Json.induct generalizing us with
  | null => exact h.cons _
  | bool b => exact h.cons _
  | int i => exact h.cons _
  | real cs => exact h.cons _
  | string ps => exact h.cons _
  | array js ih =>
    have closed : Token.Follow (.closeArray :: us) := Token.follow_cons rfl h.apart
    cases js with
    | nil => exact (Token.follow_cons rfl closed.apart).apart
    | cons j js =>
      obtain ⟨here, later⟩ := List.forall_mem_cons.1 ih
      have value := here _ (follow_tokensOfItems later closed)
      rw [tokens, List.cons_append, List.append_assoc, List.append_assoc]
      exact (Token.follow_cons rfl value).apart
  | object ms ih =>
    have closed : Token.Follow (.closeObject :: us) := Token.follow_cons rfl h.apart
    cases ms with
    | nil => exact (Token.follow_cons rfl closed.apart).apart
    | cons m ms =>
      obtain ⟨key, j⟩ := m
      obtain ⟨here, later⟩ := List.forall_mem_cons.1 ih
      have value := here _ (follow_tokensOfMembers later closed)
      have colon : Token.Follow (.colon :: _) := Token.follow_cons rfl value
      rw [tokens, List.cons_append, List.cons_append, List.cons_append, List.append_assoc,
        List.append_assoc]
      exact (Token.follow_cons rfl (colon.cons _)).apart

/-! ### From tokens to values -/

namespace Due

variable {d d' : Due} {outer : List Frame}

theorem run_cons (h : d.step t = some d') : run d (t :: ts) = run d' ts := by
  rw [run, h]

/-- The state lets a value begin, with `outer` open around it. -/
def Enters (d : Due) (outer : List Frame) : Prop :=
  ∀ t, t ≠ .closeArray → d.step t = enter outer t

theorem enters_value (outer : List Frame) : (Due.value outer).Enters outer :=
  fun _ _ => rfl

theorem enters_itemOrEnd (outer : List Frame) :
    (Due.itemOrEnd outer).Enters (.array [] :: outer) := by
  intro t ht
  cases t with
  | closeArray => exact absurd rfl ht
  | _ => rfl

/-- Reading what is left of an array, item by item. -/
theorem run_tokensOfItems {js : List Json}
    (each : ∀ j ∈ js, ∀ (d : Due) (outer : List Frame) (rest : List Token), d.Enters outer →
      run d (j.tokens ++ rest) = run (.separator j outer) rest)
    (j : Json) (done : List Json) (outer : List Frame) (rest : List Token) :
    run (.separator j (.array done :: outer)) (tokensOfItems js ++ .closeArray :: rest) =
      run (.separator (.array (done.reverse ++ j :: js)) outer) rest := by
  induction js generalizing j done with
  | nil =>
    have closes : step (.separator j (.array done :: outer)) .closeArray =
        some (.separator (.array (done.reverse ++ [j])) outer) := by simp [step]
    exact run_cons closes
  | cons j' js ih =>
    obtain ⟨here, later⟩ := List.forall_mem_cons.1 each
    have comma : step (.separator j (.array done :: outer)) .comma =
        some (.value (.array (j :: done) :: outer)) := rfl
    rw [tokensOfItems, List.cons_append, run_cons comma, List.append_assoc,
      here _ _ _ (enters_value _), ih later]
    simp

/-- Reading what is left of an object, member by member. -/
theorem run_tokensOfMembers {ms : List (List Piece × Json)}
    (each : ∀ m ∈ ms, ∀ (d : Due) (outer : List Frame) (rest : List Token), d.Enters outer →
      run d (m.2.tokens ++ rest) = run (.separator m.2 outer) rest)
    (k : List Piece) (j : Json) (done : List (List Piece × Json)) (outer : List Frame)
    (rest : List Token) :
    run (.separator j (.object done k :: outer)) (tokensOfMembers ms ++ .closeObject :: rest) =
      run (.separator (.object (done.reverse ++ (k, j) :: ms)) outer) rest := by
  induction ms generalizing k j done with
  | nil =>
    have closes : step (.separator j (.object done k :: outer)) .closeObject =
        some (.separator (.object (done.reverse ++ [(k, j)])) outer) := by simp [step]
    exact run_cons closes
  | cons m ms ih =>
    obtain ⟨k', j'⟩ := m
    obtain ⟨here, later⟩ := List.forall_mem_cons.1 each
    have comma : step (.separator j (.object done k :: outer)) .comma =
        some (.key ((k, j) :: done) outer) := rfl
    have key : step (.key ((k, j) :: done) outer) (.scalar (.string k')) =
        some (.colon ((k, j) :: done) k' outer) := rfl
    have colon : step (.colon ((k, j) :: done) k' outer) .colon =
        some (.value (.object ((k, j) :: done) k' :: outer)) := rfl
    rw [tokensOfMembers, List.cons_append, run_cons comma, List.cons_append, run_cons key,
      List.cons_append, run_cons colon, List.append_assoc, here _ _ _ (enters_value _), ih later]
    simp

theorem run_scalar (h : d.Enters outer) (j : Json) (rest : List Token) :
    run d (.scalar j :: rest) = run (.separator j outer) rest :=
  run_cons (h (.scalar j) (by simp))

/-- Wherever a value may begin, its tokens are read as the value. -/
theorem run_tokens (j : Json) (d : Due) (outer : List Frame) (rest : List Token)
    (h : d.Enters outer) : run d (j.tokens ++ rest) = run (.separator j outer) rest := by
  induction j using Json.induct generalizing d outer rest with
  | null => exact run_scalar h _ rest
  | bool b => exact run_scalar h _ rest
  | int i => exact run_scalar h _ rest
  | real cs => exact run_scalar h _ rest
  | string ps => exact run_scalar h _ rest
  | array js ih =>
    have opens : d.step .openArray = some (.itemOrEnd outer) := h .openArray (by simp)
    cases js with
    | nil =>
      have closes : step (.itemOrEnd outer) .closeArray =
          some (.separator (.array []) outer) := rfl
      exact (run_cons opens).trans (run_cons closes)
    | cons j js =>
      obtain ⟨here, later⟩ := List.forall_mem_cons.1 ih
      rw [tokens, List.cons_append, run_cons opens, List.append_assoc,
        here _ _ _ (enters_itemOrEnd outer), List.append_assoc]
      exact run_tokensOfItems later j [] outer rest
  | object ms ih =>
    have opens : d.step .openObject = some (.keyOrEnd outer) := h .openObject (by simp)
    cases ms with
    | nil =>
      have closes : step (.keyOrEnd outer) .closeObject =
          some (.separator (.object []) outer) := rfl
      exact (run_cons opens).trans (run_cons closes)
    | cons m ms =>
      obtain ⟨k, j⟩ := m
      obtain ⟨here, later⟩ := List.forall_mem_cons.1 ih
      have key : step (.keyOrEnd outer) (.scalar (.string k)) = some (.colon [] k outer) := rfl
      have colon : step (.colon [] k outer) .colon = some (.value (.object [] k :: outer)) := rfl
      rw [tokens, List.cons_append, run_cons opens, List.cons_append, run_cons key,
        List.cons_append, run_cons colon, List.append_assoc, here _ _ _ (enters_value _),
        List.append_assoc]
      exact run_tokensOfMembers later k j [] outer rest

end Due

/-! ### Whole texts -/

variable {text : String}

theorem follow_nil : Token.Follow [] where
  apart := .nil
  first u hu := by cases hu

theorem isChain_tokens_nil (j : Json) : j.tokens.IsChain Token.Apart := by
  have apart := isChain_tokens j [] follow_nil
  rwa [List.append_nil] at apart

/-- The tokens of a text that spells a value, and of what is put behind it. -/
theorem tokens?_append (h : j.SpelledBy text)
    (ends : ∀ t ∈ j.tokens.getLast?, t.isBare → ∀ c ∈ rest.head?, isBare c = false) :
    tokens? (text.toList ++ rest) = (Scan.run .between rest).map (j.tokens ++ ·) :=
  Scan.run_spells h (isChain_tokens_nil j) ends

theorem Due.run_tokens_append (j : Json) (rest : List Token) :
    Due.run (.value []) (j.tokens ++ rest) = Due.run (.separator j []) rest :=
  Due.run_tokens j (.value []) [] rest (Due.enters_value [])

/-- A text that spells a value is read as that value. -/
theorem read?_of_spelledBy (h : j.SpelledBy text) : read? text = some j := by
  have noRest : ∀ t ∈ j.tokens.getLast?, t.isBare → ∀ c ∈ ([] : List Char).head?,
      isBare c = false := by simp
  have scanned := tokens?_append h noRest
  rw [List.append_nil] at scanned
  have whole := Due.run_tokens_append j []
  rw [List.append_nil] at whole
  have done : Due.run (.separator j []) [] = some j := rfl
  rw [read?, scanned]
  simp [Scan.run, Scan.finish, whole, done]

/-- A single character that is no blank makes one token, if any. -/
theorem Scan.run_singleton (hc : isSpace c = false) (h : run .between [c] = some ts) :
    ∃ t, ts = [t] := by
  simp only [run, step, enter, hc, Bool.false_eq_true, if_false] at h
  split at h
  · rename_i s ts' entered
    split at entered
    · cases entered
      cases h
    · split at entered
      · cases entered
        simp only [finish, Option.map_map] at h
        obtain ⟨j, -, rfl⟩ := Option.map_eq_some_iff.1 h
        exact ⟨_, rfl⟩
      · obtain ⟨t, -, result⟩ := Option.map_eq_some_iff.1 entered
        cases result
        cases h
        exact ⟨t, rfl⟩
  · cases h

/-- Nothing but blanks may stand behind an object. -/
theorem read?_push_eq_none {ms : List (List Piece × Json)} (h : (object ms).SpelledBy text)
    (hc : isSpace c = false) : read? (text.push c) = none := by
  have last : ∀ t ∈ (object ms).tokens.getLast?, t.isBare = false := by
    cases ms with
    | nil => simp [tokens, Token.isBare]
    | cons m ms =>
      obtain ⟨key, j⟩ := m
      rw [tokens, ← List.cons_append, ← List.cons_append, ← List.cons_append, ← List.append_assoc,
        List.getLast?_concat]
      simp [Token.isBare]
  have scanned : tokens? (text.toList ++ [c]) =
      (Scan.run .between [c]).map ((object ms).tokens ++ ·) :=
    tokens?_append h fun t ht bare => by simp [last t ht] at bare
  rw [read?, String.toList_push, scanned]
  cases single : Scan.run .between [c] with
  | none => rfl
  | some ts =>
    obtain ⟨t, rfl⟩ := Scan.run_singleton hc single
    have stuck : Due.step (.separator (object ms) []) t = none := rfl
    simp only [Option.map_some, Option.bind_some]
    rw [Due.run_tokens_append, Due.run, stuck]

end MonkeyFrontEnd.Json
