import Mathlib.Logic.Function.Iterate
import MonkeyFrontEnd.Parse.Walker
import MonkeyFrontEnd.Proofs.Lexing.Lookahead

/-!
# Where a walker stands

A walker stands at a place among the tokens of its text (`Walker.Stands`): the tokens from there on
are the current one, the one ahead, and those that its reader will hand out. Going on leaves the
first of them behind, and at the end nothing changes any more (`Stands.advance`). So a walker that
came about by going on and by recording errors, in whatever order, stands somewhere
(`Reachable.exists_stands`).
-/

set_option autoImplicit false

namespace MonkeyFrontEnd

variable {source : String}

/-! ### The next token -/

theorem Item.filterMap_token?_map_illegal (illegal : List IllegalChar) :
    (illegal.map Item.illegal).filterMap Item.token? = [] := by
  simp [List.filterMap_map, Function.comp_def, Item.token?]

theorem Item.filterMap_illegal?_map_illegal (illegal : List IllegalChar) :
    (illegal.map Item.illegal).filterMap Item.illegal? = illegal := by
  simp [List.filterMap_map, Function.comp_def, Item.illegal?]

/-- A token that was taken from the items `left` of a text, and what is left behind it. -/
inductive Reader.Takes (source : String) (left : List Item) : Taken → Prop
  | token (t : Token) (after : Reader) (illegal : List IllegalChar)
      (split : left = illegal.map .illegal ++ .token t :: after.cursor.ahead)
      (same : after.source = source) : Takes source left ⟨t, after, illegal⟩
  | ended (after : Reader) (illegal : List IllegalChar) (split : left = illegal.map .illegal)
      (none_ahead : after.cursor.ahead = []) (same : after.source = source) :
      Takes source left ⟨.ofEnd source, after, illegal⟩

/-- Taking a token takes the first one that is ahead, and the illegal characters before it. -/
theorem Reader.takeToken_takes (r : Reader) : Takes r.source r.cursor.ahead r.takeToken := by
  fun_induction takeToken r with
  | case1 r t after taken =>
    obtain ⟨item, left⟩ := r.next_cursor
    rw [taken] at item left
    obtain ⟨others, ahead⟩ := List.head?_eq_some_iff.1 item.symm
    rw [Cursor.next, ahead] at left
    refine .token t after [] ?_ (congrArg Cursor.source left)
    rw [ahead, left]
    rfl
  | case2 r e after taken behind ih =>
    obtain ⟨item, left⟩ := r.next_cursor
    rw [taken] at item left
    obtain ⟨others, ahead⟩ := List.head?_eq_some_iff.1 item.symm
    rw [Cursor.next, ahead] at left
    have same : after.source = r.source := congrArg Cursor.source left
    have rest : after.cursor.ahead = others := congrArg Cursor.ahead left
    have taken_behind : Takes after.source after.cursor.ahead behind := ih
    rw [same, rest] at taken_behind
    rw [ahead]
    clear_value behind
    cases taken_behind with
    | token t last illegal split same =>
      exact .token t last (e :: illegal) (by rw [split]; rfl) same
    | ended last illegal split none_ahead same =>
      exact .ended last (e :: illegal) (by rw [split]; rfl) none_ahead same
  | case3 r after taken =>
    obtain ⟨item, left⟩ := r.next_cursor
    rw [taken] at item left
    have none_ahead : r.cursor.ahead = [] := List.head?_eq_none_iff.1 item.symm
    rw [Cursor.next, none_ahead] at left
    have same : after.source = r.source := congrArg Cursor.source left
    rw [same]
    exact .ended after [] none_ahead (by rw [left]; rfl) same

namespace Walker

variable {w : Walker} {ts us : List Token}

/-! ### Places -/

/-- The tokens of a text that come after the current one, and the end behind them. -/
def coming (w : Walker) : List Token :=
  w.ahead :: w.reader.cursor.ahead.filterMap Item.token?

/-- The walker stands where the tokens `ts` of the text begin, which are all that are left. -/
structure Stands (source : String) (ts : List Token) (w : Walker) : Prop where
  source_eq : w.reader.source = source
  current : w.current = ts.headD (.ofEnd source)
  coming : w.coming = ts.tail ++ [.ofEnd source]
  genuine : ∀ t ∈ ts, t.kind ≠ .eof

theorem coming_advance (same : w.reader.source = source)
    (coming : w.coming = ts ++ [.ofEnd source]) :
    w.advance.reader.source = source ∧ w.advance.coming = ts.tail ++ [.ofEnd source] := by
  have takes := w.reader.takeToken_takes
  rw [same] at takes
  rw [Walker.coming] at coming
  simp only [Walker.coming, advance]
  generalize w.reader.takeToken = taken at takes
  cases takes with
  | token t after illegal split same =>
    have tokens : w.reader.cursor.ahead.filterMap Item.token? =
        t :: after.cursor.ahead.filterMap Item.token? := by
      rw [split, List.filterMap_append, Item.filterMap_token?_map_illegal]
      rfl
    rw [tokens] at coming
    cases ts with
    | nil =>
      have sizes := congrArg List.length coming
      simp at sizes
    | cons u ts => exact ⟨same, (List.cons.inj coming).2⟩
  | ended after illegal split none_ahead same =>
    have tokens : w.reader.cursor.ahead.filterMap Item.token? = [] := by
      rw [split, Item.filterMap_token?_map_illegal]
    rw [tokens] at coming
    cases ts with
    | nil => exact ⟨same, by rw [none_ahead]; rfl⟩
    | cons u ts =>
      have sizes := congrArg List.length coming
      simp at sizes

theorem ahead_of_coming (coming : w.coming = ts ++ [.ofEnd source]) :
    w.ahead = ts.headD (.ofEnd source) := by
  cases ts with
  | nil => exact (List.cons.inj coming).1
  | cons t ts => exact (List.cons.inj coming).1

/-- From before the tokens `ts` a walker goes on to stand where they begin. -/
theorem Stands.of_coming (same : w.reader.source = source)
    (coming : w.coming = ts ++ [.ofEnd source]) (genuine : ∀ t ∈ ts, t.kind ≠ .eof) :
    Stands source ts w.advance where
  source_eq := (coming_advance same coming).1
  current := ahead_of_coming coming
  coming := (coming_advance same coming).2
  genuine := genuine

/-- Going on leaves the current token behind. -/
theorem Stands.advance (h : Stands source ts w) : Stands source ts.tail w.advance :=
  .of_coming h.source_eq h.coming fun t ht => h.genuine t (List.mem_of_mem_tail ht)

theorem Stands.record (h : Stands source ts w) (e : ParseError) : Stands source ts (w.record e) :=
  ⟨h.source_eq, h.current, h.coming, h.genuine⟩

theorem iterate_iterate (m n : Nat) (w : Walker) :
    Walker.advance^[n] (Walker.advance^[m] w) = Walker.advance^[m + n] w := by
  rw [Nat.add_comm, Function.iterate_add_apply]

/-- Going on `n` times leaves `n` tokens behind. -/
theorem Stands.iterate (h : Stands source ts w) (n : Nat) :
    Stands source (ts.drop n) (Walker.advance^[n] w) := by
  induction n generalizing ts w with
  | zero => exact h
  | succ n ih =>
    rw [Function.iterate_succ_apply, ← List.drop_tail]
    exact ih h.advance

theorem Stands.ahead (h : Stands source ts w) : w.ahead = ts.tail.headD (.ofEnd source) :=
  ahead_of_coming h.coming

/-- A walker stands at the end when it has come to the end. -/
theorem Stands.current_eof_iff (h : Stands source ts w) : w.current.kind = .eof ↔ ts = [] := by
  rw [h.current]
  cases ts with
  | nil => exact ⟨fun _ => rfl, fun _ => rfl⟩
  | cons t ts => simp [h.genuine t List.mem_cons_self]

/-- A walker that is not at the end stands at its current token. -/
theorem Stands.exists_cons (h : Stands source ts w) (inside : w.current.kind ≠ .eof) :
    ∃ us, ts = w.current :: us := by
  cases ts with
  | nil => exact absurd (h.current_eof_iff.2 rfl) inside
  | cons t us => exact ⟨us, by rw [h.current]; rfl⟩

/-! ### Walkers that come about -/

/-- The walkers that come about from a source text by going on and by recording errors. -/
inductive Reachable (source : String) : Walker → Prop
  | start : Reachable source (.ofSource source)
  | advance {w : Walker} (h : Reachable source w) : Reachable source w.advance
  | record {w : Walker} (h : Reachable source w) (e : ParseError) : Reachable source (w.record e)

/-- The tokens of a text do not mark its end. -/
theorem kind_ne_eof_of_mem_ofSource {t : Token} (h : t ∈ Token.ofSource source) :
    t.kind ≠ .eof := by
  obtain ⟨i, hi, hit⟩ := List.mem_filterMap.1 h
  obtain ⟨_, _, _, _, whole⟩ := (Item.tiles_ofSource source).stand i hi
  cases i with
  | token u =>
    cases hit
    exact whole.kind_ne_eof
  | illegal e => cases hit

/-- All tokens of the text come behind what a walker has for tokens at first. -/
theorem coming_advance_fresh (source : String) :
    (fresh source).advance.reader.source = source ∧
      (fresh source).advance.coming = Token.ofSource source ++ [.ofEnd source] := by
  have before : (fresh source).coming = .endAt 0 :: Token.ofSource source ++ [.ofEnd source] := by
    rw [coming, fresh, Reader.cursor_ofSource, Cursor.ofSource, Item.filterMap_token?_stream]
    rfl
  exact coming_advance rfl before

/-- A new walker stands at the first token. -/
theorem stands_ofSource (source : String) :
    Stands source (Token.ofSource source) (.ofSource source) := by
  obtain ⟨same, first⟩ := coming_advance_fresh source
  exact .of_coming same first fun t => kind_ne_eof_of_mem_ofSource

theorem Reachable.exists_stands (h : Reachable source w) : ∃ ts, Stands source ts w := by
  induction h with
  | start => exact ⟨_, stands_ofSource source⟩
  | advance _ ih =>
    obtain ⟨ts, stands⟩ := ih
    exact ⟨ts.tail, stands.advance⟩
  | record _ e ih =>
    obtain ⟨ts, stands⟩ := ih
    exact ⟨ts, stands.record e⟩

end Walker

end MonkeyFrontEnd
