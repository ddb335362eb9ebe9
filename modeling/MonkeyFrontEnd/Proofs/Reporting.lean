import Mathlib.Data.List.TakeWhile
import MonkeyFrontEnd.Proofs.Lexing.Places
import MonkeyFrontEnd.Proofs.Notices
import MonkeyFrontEnd.Proofs.Outcomes

/-!
# The order of the errors

Illegal characters and faults are listed in the order in which a reader comes upon them who is one
token ahead. No illegal character is lost or listed twice, and where it stands among the faults is
said by places alone (`ParseError.noticedAt`): before a token that is not the one that is due, but
behind the token that follows, where a token is at fault that had been taken already.
-/

set_option autoImplicit false

namespace MonkeyFrontEnd

/-- The token of which the beginning has been reached when the error at the token `found` is
noticed, where `next` follows. -/
def ParseError.noticedAt (found next : Token) : ParseError → Token
  | .unexpectedToken .. => found
  | _ => next

theorem ParseError.noticedAt_mem (e : ParseError) (t : Token) (behind : List Token) :
    e.noticedAt t (behind.headD t) ∈ t :: behind := by
  have next : behind.headD t ∈ t :: behind := by cases behind <;> simp
  cases e with
  | unexpectedToken => exact List.mem_cons_self
  | _ => exact next

/-! ### Merging notices -/

namespace Parse.Notice

/-- The order that merging makes: by how far the text has been read, and where that does not decide,
illegal characters come first. -/
def Before (x y : Notice) : Prop :=
  x.readTo ≤ y.readTo ∧ (x.error.illegal? = none → y.error.illegal? ≠ none → x.readTo < y.readTo)

variable {xs ys : List Notice} {x y z : Notice}

theorem mem_inOrder : z ∈ inOrder xs ys ↔ z ∈ xs ∨ z ∈ ys := by
  induction ys generalizing xs with
  | nil => simp [inOrder]
  | cons y ys ih =>
    have parts : z ∈ xs ↔ z ∈ xs.takeWhile y.notAfter ∨ z ∈ xs.dropWhile y.notAfter := by
      rw [← List.mem_append, List.takeWhile_append_dropWhile]
    rw [inOrder, List.mem_append, List.mem_cons, List.mem_cons, ih, parts]
    tauto

/-- What is left of notices in order, once those that come no later than `y` are taken, comes
later. -/
theorem lt_of_mem_dropWhile (sorted : xs.Pairwise fun x z => x.readTo ≤ z.readTo)
    (h : z ∈ xs.dropWhile y.notAfter) : y.readTo < z.readTo := by
  induction xs with
  | nil => cases h
  | cons x xs ih =>
    rw [List.pairwise_cons] at sorted
    by_cases early : x.readTo ≤ y.readTo
    · exact ih sorted.2 (by simpa [List.dropWhile_cons, notAfter, early] using h)
    · rw [List.dropWhile_cons_of_neg (by simpa [notAfter] using early)] at h
      rcases List.mem_cons.1 h with rfl | h
      · omega
      · have := sorted.1 z h
        omega

/-- The merge of illegal characters and faults, each in order, is in order. -/
theorem pairwise_inOrder (illegal : ∀ x ∈ xs, x.error.illegal? ≠ none)
    (fault : ∀ y ∈ ys, y.error.illegal? = none)
    (hxs : xs.Pairwise fun x z => x.readTo ≤ z.readTo)
    (hys : ys.Pairwise fun y z => y.readTo ≤ z.readTo) : (inOrder xs ys).Pairwise Before := by
  induction ys generalizing xs with
  | nil => exact hxs.imp_of_mem fun hx _ le => ⟨le, fun none => absurd none (illegal _ hx)⟩
  | cons y ys ih =>
    rw [List.forall_mem_cons] at fault
    rw [List.pairwise_cons] at hys
    have late : ∀ z ∈ xs.dropWhile y.notAfter, y.readTo < z.readTo :=
      fun z hz => lt_of_mem_dropWhile hxs hz
    have early : ∀ x ∈ xs.takeWhile y.notAfter, x.error.illegal? ≠ none ∧ x.readTo ≤ y.readTo :=
      fun x hx => ⟨illegal x (List.takeWhile_subset _ hx),
        by simpa [notAfter] using List.mem_takeWhile_imp hx⟩
    have behind : ∀ z ∈ inOrder (xs.dropWhile y.notAfter) ys, Before y z := by
      intro z hz
      rcases mem_inOrder.1 hz with hz | hz
      · exact ⟨Nat.le_of_lt (late z hz), fun _ _ => late z hz⟩
      · exact ⟨hys.1 z hz, fun _ some => absurd (fault.2 z hz) some⟩
    have taken : (xs.takeWhile y.notAfter).Pairwise Before :=
      (hxs.sublist (List.takeWhile_sublist _)).imp_of_mem
        fun hx _ le => ⟨le, fun none => absurd none (early _ hx).1⟩
    have dropped : (inOrder (xs.dropWhile y.notAfter) ys).Pairwise Before :=
      ih (fun x hx => illegal x (List.dropWhile_subset _ hx)) fault.2
        (hxs.sublist (List.dropWhile_sublist _)) hys.2
    rw [inOrder, List.pairwise_append, List.pairwise_cons]
    refine ⟨taken, ⟨behind, dropped⟩, fun x hx z hz => ?_⟩
    obtain ⟨some, le⟩ := early x hx
    rcases List.mem_cons.1 hz with rfl | hz
    · exact ⟨le, fun none => absurd none some⟩
    · exact ⟨Nat.le_trans le (behind z hz).1, fun none => absurd none some⟩

/-- In the order of a merge an illegal character stands before a fault if the text was read no
further for it. -/
theorem lt_iff_readTo_le {ns : List Notice} {i j : Nat} (sorted : ns.Pairwise Before)
    (hx : ns[i]? = some x) (hy : ns[j]? = some y) (fault : x.error.illegal? = none)
    (illegal : y.error.illegal? ≠ none) : j < i ↔ y.readTo ≤ x.readTo := by
  rw [List.pairwise_iff_getElem] at sorted
  obtain ⟨hi, rfl⟩ := List.getElem?_eq_some_iff.1 hx
  obtain ⟨hj, rfl⟩ := List.getElem?_eq_some_iff.1 hy
  constructor
  · intro before
    exact (sorted j i hj hi before).1
  · intro le
    rcases Nat.lt_trichotomy j i with before | same | behind
    · exact before
    · subst same
      exact absurd fault illegal
    · have := (sorted i j hi hj behind).2 fault illegal
      omega

end Parse.Notice

namespace Parse

/-! ### The notices of a run -/

section Run

variable {s s' : State} {last t next : Token} {ts : List Token} {evs : List Event} {x : Notice}

/-- A fault is noticed when its token or the one behind it has been reached. -/
theorem exists_token_of_notice (h : x ∈ (State.run last s ts).filterMap Event.notice?) :
    ∃ before t behind, ts ++ [last] = before ++ t :: behind ∧ x.error.span = t.span ∧
      x.readTo = (x.error.noticedAt t (behind.headD t)).span.start := by
  obtain ⟨event, mem, hx⟩ := List.mem_filterMap.1 h
  cases event with
  | stmt _ => cases hx
  | fault f found next =>
    obtain ⟨before, behind, place, rfl⟩ := State.place_of_mem_run mem
    refine ⟨before, found, behind, place, ?_⟩
    cases f <;> cases hx <;> exact ⟨rfl, rfl⟩

theorem filterMap_notice?_map_stmt (ss : List Stmt) :
    (ss.map Event.stmt).filterMap Event.notice? = [] := by
  rw [List.filterMap_map]
  exact List.filterMap_eq_nil_iff.2 fun _ _ => rfl

/-- A step makes at most one notice, and before the token behind its own is taken. -/
theorem State.Yields.notices {result : State × List Event} (h : s.Yields t next result)
    (le : t.span.start ≤ next.span.start) :
    result.2.filterMap Event.notice? = [] ∨
      ∃ x : Notice, result.2.filterMap Event.notice? = [x] ∧ x.readTo ≤ next.span.start := by
  cases h with
  | statements ss => exact .inl (filterMap_notice?_map_stmt ss)
  | fault _ ss f =>
    dsimp only
    rw [List.filterMap_append, filterMap_notice?_map_stmt, List.nil_append]
    cases f with
    | unexpected => exact .inr ⟨_, rfl, le⟩
    | noOperand => exact .inr ⟨_, rfl, Nat.le_refl _⟩
    | integerTooLarge => exact .inr ⟨_, rfl, Nat.le_refl _⟩

/-- No notice is made before the first token has been reached. -/
theorem headD_le_readTo (sorted : (ts ++ [last]).Pairwise fun t u => t.span.start < u.span.start)
    (h : x ∈ (State.run last s ts).filterMap Event.notice?) :
    (ts.headD last).span.start ≤ x.readTo := by
  obtain ⟨before, t, behind, place, -, reached⟩ := exists_token_of_notice h
  have mem : x.error.noticedAt t (behind.headD t) ∈ ts ++ [last] := by
    rw [place]
    exact List.mem_append_right _ (x.error.noticedAt_mem t behind)
  rw [reached]
  cases ts with
  | nil => rw [List.mem_singleton.1 mem]; exact Nat.le_refl _
  | cons u ts =>
    rw [List.cons_append, List.pairwise_cons] at sorted
    rcases List.mem_cons.1 mem with same | mem
    · rw [same]
      exact Nat.le_refl _
    · exact Nat.le_of_lt (sorted.1 _ mem)

/-- The faults of a run are noticed in the order in which they are met. -/
theorem pairwise_notices (sorted : (ts ++ [last]).Pairwise fun t u => t.span.start < u.span.start) :
    ((State.run last s ts).filterMap Event.notice?).Pairwise fun x y => x.readTo ≤ y.readTo := by
  induction ts generalizing s with
  | nil =>
    rw [State.run_nil]
    rcases s.finish_cases last with ⟨ss, hss⟩ | ⟨f, hf⟩
    · rw [hss, filterMap_notice?_map_stmt]
      exact .nil
    · rw [hf]
      cases f <;> exact List.pairwise_singleton _ _
  | cons t ts ih =>
    rw [List.cons_append, List.pairwise_cons] at sorted
    obtain ⟨first, others⟩ := sorted
    have le : t.span.start ≤ (ts.headD last).span.start := by
      refine Nat.le_of_lt (first _ ?_)
      cases ts <;> simp
    rw [State.run_cons, List.filterMap_append]
    rcases (s.step_yields t (ts.headD last)).notices le with none | ⟨x, one, early⟩
    · rw [none, List.nil_append]
      exact ih others
    · rw [one, List.singleton_append, List.pairwise_cons]
      exact ⟨fun y hy => Nat.le_trans early (headD_le_readTo others hy), ih others⟩

end Run

/-! ### The errors of a source text -/

/-- What is noticed while a source text is read, in order. -/
def notices (source : String) : List Notice :=
  Notice.inOrder ((IllegalChar.ofSource source).map .ofIllegal)
    ((events source).filterMap Event.notice?)

theorem errors_eq_map_notices (source : String) :
    (Parse.ofSource source).errors = (notices source).map Notice.error := rfl

theorem notices_pairwise (source : String) : (notices source).Pairwise Notice.Before := by
  refine Notice.pairwise_inOrder ?_ ?_ ?_ (pairwise_notices (Token.pairwise_start source))
  · intro x hx
    obtain ⟨e, -, rfl⟩ := List.mem_map.1 hx
    exact nofun
  · intro y hy
    obtain ⟨e, -, he⟩ := List.mem_filterMap.1 hy
    exact Option.isNone_iff_eq_none.1 (e.notice?_isFault he)
  · rw [List.pairwise_map]
    refine (IllegalChar.pairwise_ofSource source).imp_of_mem fun {e e'} _ he' before => ?_
    have := (IllegalChar.span_of_mem_ofSource he').1
    simp only [Notice.ofIllegal]
    omega

variable {source : String} {x : Notice}

/-- An illegal character is noticed at its end. -/
theorem readTo_of_illegal {e : IllegalChar} (h : x ∈ notices source)
    (illegal : x.error = .illegalChar e) :
    e ∈ IllegalChar.ofSource source ∧ x.readTo = e.span.stop := by
  rcases Notice.mem_inOrder.1 h with h | h
  · obtain ⟨e', he', rfl⟩ := List.mem_map.1 h
    cases illegal
    exact ⟨he', rfl⟩
  · obtain ⟨event, -, hx⟩ := List.mem_filterMap.1 h
    have fault := event.notice?_isFault hx
    rw [illegal] at fault
    cases fault

/-- A fault is noticed at the beginning of its token or of the one behind it. -/
theorem readTo_of_fault (h : x ∈ notices source) (fault : x.error.illegal? = none) :
    ∃ before t behind, Token.stream source = before ++ t :: behind ∧ x.error.span = t.span ∧
      x.readTo = (x.error.noticedAt t (behind.headD t)).span.start := by
  rcases Notice.mem_inOrder.1 h with h | h
  · obtain ⟨e, -, rfl⟩ := List.mem_map.1 h
    cases fault
  · exact exists_token_of_notice h

/-! ### Errors that are known from the start -/

/-- The illegal characters that are met while `n + 1` tokens are read are those that stand before
the last of these tokens. -/
theorem illegalBefore_eq_filter {last : Token} (n : Nat) {items : List Item}
    (sorted : items.Pairwise fun i j => i.span.stop ≤ j.span.start)
    (inside : ∀ i ∈ items, i.span.start < i.span.stop ∧ i.span.stop ≤ last.span.start) :
    illegalBefore (n + 1) items = (items.filterMap Item.illegal?).filter fun e =>
      e.span.start < ((items.filterMap Item.token?)[n]?.getD last).span.start := by
  induction items generalizing n with
  | nil => rfl
  | cons i items ih =>
    rw [List.pairwise_cons] at sorted
    rw [List.forall_mem_cons] at inside
    obtain ⟨first, sorted⟩ := sorted
    obtain ⟨here, inside⟩ := inside
    cases i with
    | token t =>
      have illegal : (Item.token t :: items).filterMap Item.illegal? =
          items.filterMap Item.illegal? := rfl
      rw [illegalBefore, illegal]
      cases n with
      | zero =>
        -- the illegal characters are all behind this token
        rw [illegalBefore]
        refine (List.filter_eq_nil_iff.2 fun e he => ?_).symm
        obtain ⟨i, hi, hie⟩ := List.mem_filterMap.1 he
        have behind := first i hi
        cases i <;> cases hie
        simp only [Item.span] at behind here
        simp [Item.token?]
        omega
      | succ n => exact ih n sorted inside
    | illegal e =>
      have before : e.span.start <
          ((items.filterMap Item.token?)[n]?.getD last).span.start := by
        cases found : (items.filterMap Item.token?)[n]? with
        | none => exact Nat.lt_of_lt_of_le here.1 here.2
        | some t =>
          obtain ⟨i, hi, hit⟩ := List.mem_filterMap.1 (List.mem_of_getElem? found)
          have behind := first i hi
          cases i <;> cases hit
          exact Nat.lt_of_lt_of_le here.1 behind
      have illegal : (Item.illegal e :: items).filterMap Item.illegal? =
          e :: items.filterMap Item.illegal? := rfl
      have tokens : (Item.illegal e :: items).filterMap Item.token? =
          items.filterMap Item.token? := rfl
      rw [illegalBefore, ih n sorted inside, illegal, tokens, List.filter_cons_of_pos]
      exact decide_eq_true before

/-- **Order of the errors.** The illegal characters of a source text are listed as they are, none
left out and none twice. Before any statement is read, those that stand before the second token are
known. A fault at the token `t` stands behind exactly those illegal characters that begin before
`t`, if another token was expected in its place; and otherwise behind those that begin before the
token that follows `t`. -/
theorem errors_inOrder (source : String) :
    (Parse.ofSource source).errors.filterMap ParseError.illegal? = IllegalChar.ofSource source ∧
    (Parser.ofSource source).errors =
      ((IllegalChar.ofSource source).filter fun e =>
        e.span.start < ((Token.ofSource source)[1]?.getD (Token.ofEnd source)).span.start).map
          .illegalChar ∧
    ∀ (i : Nat) (fault : ParseError), (Parse.ofSource source).errors[i]? = some fault →
      fault.illegal? = none →
      (∃ t ∈ Token.stream source, fault.span = t.span) ∧
      ∀ before t behind, Token.stream source = before ++ t :: behind → fault.span = t.span →
        ∀ (j : Nat) (e : IllegalChar), (Parse.ofSource source).errors[j]? = some (.illegalChar e) →
          (j < i ↔ e.span.start < (fault.noticedAt t (behind.headD t)).span.start) := by
  refine ⟨illegals_ofSource source, ?_, ?_⟩
  · have inside : ∀ i ∈ Item.ofSource source, i.span.start < i.span.stop ∧
        i.span.stop ≤ (Token.ofEnd source).span.start :=
      fun i hi => Item.span_of_mem_ofSource hi
    exact congrArg _ (illegalBefore_eq_filter 1 (Item.pairwise_ofSource source) inside)
  · intro i fault hi faulty
    rw [errors_eq_map_notices, List.getElem?_map, Option.map_eq_some_iff] at hi
    obtain ⟨x, hx, rfl⟩ := hi
    obtain ⟨before, t, behind, place, at_t, reached⟩ :=
      readTo_of_fault (List.mem_of_getElem? hx) faulty
    refine ⟨⟨t, by simp [place], at_t⟩, ?_⟩
    intro before' t' behind' place' at_t' j e hj
    obtain ⟨rfl, rfl, rfl⟩ := Token.stream_split_unique place place'
      (congrArg Span.start (at_t.symm.trans at_t'))
    rw [errors_eq_map_notices, List.getElem?_map, Option.map_eq_some_iff] at hj
    obtain ⟨y, hy, illegal⟩ := hj
    obtain ⟨he, read⟩ := readTo_of_illegal (List.mem_of_getElem? hy) illegal
    have mem : x.error.noticedAt t (behind.headD t) ∈ Token.stream source := by
      rw [place]
      exact List.mem_append_right _ (x.error.noticedAt_mem t behind)
    rw [← Token.stop_le_start_iff he mem, ← read, ← reached]
    exact Notice.lt_iff_readTo_le (notices_pairwise source) hx hy faulty (by rw [illegal]; nofun)

/-- Illegal characters on both sides of a token that is not expected, and of one that is no
operand. -/
def disorderly : String :=
  "let #1 $; !~)^;"

/-- The character behind the bracket is listed before it, because the semicolon has been reached
when the bracket is at fault. -/
theorem errors_inOrder_disorderly :
    (Parse.ofSource disorderly).errors[5]? = some (.noOperand .rparen ⟨12, 13⟩) ∧
    (Parse.ofSource disorderly).errors[4]? = some (.illegalChar ⟨"^", ⟨13, 14⟩⟩) ∧
    Token.stream disorderly = (Token.stream disorderly).take 4 ++
      ⟨.rparen, ")", ⟨12, 13⟩⟩ :: [⟨.semicolon, ";", ⟨14, 15⟩⟩, .endAt 15] ∧
    (4 < 5 ↔ 13 < 14) := by
  have fault : (Parse.ofSource disorderly).errors[5]? = some (.noOperand .rparen ⟨12, 13⟩) := by
    decide
  have illegal :
      (Parse.ofSource disorderly).errors[4]? = some (.illegalChar ⟨"^", ⟨13, 14⟩⟩) := by
    decide
  have split : Token.stream disorderly = (Token.stream disorderly).take 4 ++
      ⟨.rparen, ")", ⟨12, 13⟩⟩ :: [⟨.semicolon, ";", ⟨14, 15⟩⟩, .endAt 15] := by
    decide
  exact ⟨fault, illegal, split,
    ((errors_inOrder disorderly).2.2 5 _ fault rfl).2 _ _ _ split rfl 4 _ illegal⟩

end Parse

end MonkeyFrontEnd
