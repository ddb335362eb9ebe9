import Mathlib.Data.List.Forall2
import MonkeyFrontEnd.Proofs.Lexing.Places
import MonkeyFrontEnd.Proofs.Notices
import MonkeyFrontEnd.Proofs.Outcomes

/-!
# Layout does not matter

Two texts with the same tokens, whatever blanks and illegal characters they have around them, are
read alike. To compare the places of their errors, tokens are put to the places `0`, `1`, `2` and so
on (`Token.numbered`): numbered, the two streams are the same, and each text's own events are those
of the numbered stream, with every number replaced by the place of the token that has it.
-/

set_option autoImplicit false

namespace MonkeyFrontEnd

/-- The error without its place. -/
def ParseError.erase (e : ParseError) : ParseError :=
  e.moved fun _ => ⟨0, 0⟩

@[simp] theorem ParseError.erase_moved (g : Span → Span) (e : ParseError) :
    (e.moved g).erase = e.erase :=
  e.moved_moved

/-- The two errors, each of its own source text, say the same of tokens with the same index. -/
structure ParseError.Alike (source source' : String) (e e' : ParseError) : Prop where
  same : e.erase = e'.erase
  place : ∃ (k : Nat) (t t' : Token), (Token.stream source)[k]? = some t ∧
    (Token.stream source')[k]? = some t' ∧ e.span = t.span ∧ e'.span = t'.span

namespace Token

/-- The token at the place that stands for the number `k`. -/
def withNumber (k : Nat) (t : Token) : Token :=
  t.moved fun _ => ⟨k, k⟩

/-- The tokens at the places that stand for `k`, `k + 1` and so on. -/
def numbered (k : Nat) : List Token → List Token
  | [] => []
  | t :: ts => t.withNumber k :: numbered (k + 1) ts

/-- The place of the token that has the number of a place. -/
def placeIn (ts : List Token) (number : Span) : Span :=
  (ts[number.start]?.map Token.span).getD number

theorem numbered_append (k : Nat) (ts us : List Token) :
    numbered k (ts ++ us) = numbered k ts ++ numbered (k + ts.length) us := by
  induction ts generalizing k with
  | nil => rfl
  | cons t ts ih =>
    rw [List.cons_append, numbered, ih, numbered, List.length_cons, Nat.add_assoc,
      Nat.add_comm 1 ts.length]
    rfl

/-- Numbering asks for nothing but kinds and literals. -/
theorem numbered_map_erase (k : Nat) (ts : List Token) :
    numbered k (ts.map Token.erase) = numbered k ts := by
  induction ts generalizing k with
  | nil => rfl
  | cons t ts ih =>
    rw [List.map_cons, numbered, ih]
    rfl

/-- A number is the index of its token. -/
theorem exists_getElem?_of_mem_numbered {k : Nat} {t : Token} {ts : List Token}
    (h : t ∈ numbered k ts) : ∃ i, t.span = ⟨k + i, k + i⟩ ∧ i < ts.length := by
  induction ts generalizing k with
  | nil => cases h
  | cons u ts ih =>
    rcases List.mem_cons.1 h with rfl | h
    · exact ⟨0, rfl, Nat.succ_pos _⟩
    · obtain ⟨i, place, small⟩ := ih h
      refine ⟨i + 1, ?_, Nat.succ_lt_succ small⟩
      rw [place, Nat.add_assoc, Nat.add_comm 1 i]

/-- With their numbers replaced by the places that they stand for, tokens are where they were. -/
theorem map_moved_numbered (before ts : List Token) :
    (numbered before.length ts).map (Token.moved (placeIn (before ++ ts))) = ts := by
  induction ts generalizing before with
  | nil => rfl
  | cons t ts ih =>
    have others := ih (before ++ [t])
    rw [List.length_append, List.append_assoc] at others
    have here : placeIn (before ++ t :: ts) ⟨before.length, before.length⟩ = t.span := by
      simp [placeIn]
    rw [numbered, List.map_cons]
    exact congrArg₂ _ (congrArg (Token.mk t.kind t.literal) here) others

end Token

namespace Parse

/-- The events of reading the tokens of a source text by their numbers. -/
def numberedEvents (source : String) : List Event :=
  State.run ((Token.ofEnd source).withNumber (Token.ofSource source).length) .start
    (Token.numbered 0 (Token.ofSource source))

theorem numbered_stream (source : String) :
    Token.numbered 0 (Token.stream source) = Token.numbered 0 (Token.ofSource source) ++
      [(Token.ofEnd source).withNumber (Token.ofSource source).length] := by
  rw [Token.stream, Token.numbered_append, Nat.zero_add]
  rfl

/-- The events of a source text are those of its numbered tokens, each number replaced by the place
of its token. -/
theorem events_eq_map_moved (source : String) :
    events source =
      (numberedEvents source).map (Event.moved (Token.placeIn (Token.stream source))) := by
  have placed := Token.map_moved_numbered [] (Token.stream source)
  rw [List.length_nil, List.nil_append, numbered_stream, List.map_append, Token.stream] at placed
  obtain ⟨tokens, last⟩ := List.append_inj' placed rfl
  rw [List.map_singleton, List.singleton_inj] at last
  rw [numberedEvents, ← State.run_moved, Token.stream, tokens, last]
  rfl

variable {source source' : String}

theorem numberedEvents_congr
    (same : (Token.ofSource source).map Token.erase = (Token.ofSource source').map Token.erase) :
    numberedEvents source = numberedEvents source' := by
  have length : (Token.ofSource source).length = (Token.ofSource source').length := by
    simpa using congrArg List.length same
  have last : ∀ k, (Token.ofEnd source).withNumber k = (Token.ofEnd source').withNumber k :=
    fun _ => rfl
  rw [numberedEvents, numberedEvents, ← Token.numbered_map_erase, same, Token.numbered_map_erase,
    length, last]

theorem statements_eq_map_moved (source : String) :
    (Parse.ofSource source).program.statements =
      ((numberedEvents source).filterMap Event.stmt?).map
        (Stmt.moved (Token.placeIn (Token.stream source))) := by
  rw [ofSource, events_eq_map_moved, filterMap_stmt?_map_moved]

theorem faults_eq_map_moved (source : String) :
    (Parse.ofSource source).faults =
      ((numberedEvents source).filterMap Event.error?).map
        (ParseError.moved (Token.placeIn (Token.stream source))) := by
  rw [faults_ofSource, events_eq_map_moved, filterMap_error?_map_moved]

/-- The place of a numbered error stands for one of the tokens. -/
theorem exists_place_of_numbered {e : ParseError}
    (h : e ∈ (numberedEvents source).filterMap Event.error?) :
    ∃ k < (Token.stream source).length, e.span = ⟨k, k⟩ := by
  obtain ⟨event, mem, he⟩ := List.mem_filterMap.1 h
  cases event with
  | stmt x => cases he
  | fault f t next =>
    cases he
    obtain ⟨before, behind, split, -⟩ := State.place_of_mem_run mem
    rw [← numbered_stream] at split
    have number : t ∈ Token.numbered 0 (Token.stream source) := by simp [split]
    obtain ⟨k, place, small⟩ := Token.exists_getElem?_of_mem_numbered number
    rw [Nat.zero_add] at place
    exact ⟨k, small, (f.span_error t).trans place⟩

/-- **Layout.** Texts that have the same tokens but for their places have the same program but for
the places in it, and the same faults, each at the token with the same index. -/
theorem ofSource_layout
    (same : (Token.ofSource source).map Token.erase = (Token.ofSource source').map Token.erase) :
    (Parse.ofSource source).program.erase = (Parse.ofSource source').program.erase ∧
    (Parse.ofSource source).program.text = (Parse.ofSource source').program.text ∧
    (Parse.ofSource source).program.literal = (Parse.ofSource source').program.literal ∧
    List.Forall₂ (ParseError.Alike source source') (Parse.ofSource source).faults
      (Parse.ofSource source').faults := by
  have numbered := numberedEvents_congr same
  have erased : (Parse.ofSource source).program.erase = (Parse.ofSource source').program.erase := by
    rw [Program.erase, Program.erase, statements_eq_map_moved, statements_eq_map_moved, numbered,
      List.map_map, List.map_map]
    simp only [Function.comp_def, Stmt.erase_moved]
  refine ⟨erased, ?_, ?_, ?_⟩
  · rw [← Program.text_erase, erased, Program.text_erase]
  · rw [← Program.literal_erase, erased, Program.literal_erase]
  · rw [faults_eq_map_moved, faults_eq_map_moved, ← numbered, List.forall₂_map_left_iff,
      List.forall₂_map_right_iff, List.forall₂_same]
    intro e he
    obtain ⟨k, small, number⟩ := exists_place_of_numbered he
    have small' : k < (Token.stream source').length := by
      have length := congrArg List.length same
      simp only [List.length_map] at length
      simpa [Token.stream, length] using small
    have place : ∀ ts : List Token, (h : k < ts.length) →
        (e.moved (Token.placeIn ts)).span = ts[k].span := by
      intro ts h
      simp [number, Token.placeIn, h]
    exact ⟨by simp, k, _, _, List.getElem?_eq_getElem small, List.getElem?_eq_getElem small',
      place _ small, place _ small'⟩

/-- A text with few blanks, and with faults that are met before their token is read and after. -/
def tight : String :=
  "let x=(1+;-!y\n)99999999999999999999 let"

/-- The same tokens with more blanks around them, and illegal characters. -/
def littered : String :=
  " @let x = ( 1 #+ ; -\t!y)é 99999999999999999999$let\n"

/-- The two texts are laid out differently, and are read alike. -/
theorem ofSource_layout_littered :
    (Token.ofSource tight).map Token.erase = (Token.ofSource littered).map Token.erase ∧
    (Parse.ofSource tight).program.erase = (Parse.ofSource littered).program.erase ∧
    (Parse.ofSource tight).program.text = (Parse.ofSource littered).program.text ∧
    (Parse.ofSource tight).program.literal = (Parse.ofSource littered).program.literal ∧
    List.Forall₂ (ParseError.Alike tight littered) (Parse.ofSource tight).faults
      (Parse.ofSource littered).faults := by
  have same : (Token.ofSource tight).map Token.erase = (Token.ofSource littered).map Token.erase :=
    by decide +kernel
  exact ⟨same, ofSource_layout same⟩

end Parse

end MonkeyFrontEnd
