import MonkeyFrontEnd.Cursor
import MonkeyFrontEnd.Proofs.Lexing.Tiling
import MonkeyFrontEnd.Reader

/-!
# Looking ahead takes nothing

A `Reader` has items ahead of it: the one that it holds back, those in the characters that it has
not read, and the end of the text if it has not come to it. Seen so it is a `Cursor`
(`Reader.cursor`), and each of its operations is the one of the cursor: reading an item of the text
takes the first item off the text's items (`Item.ofLexemes_split`), and holding it back puts it in
front of them again. So whatever is asked of a reader, and in whatever order, it hands out the items
of the text one after the other (`Reader.calls_follow_stream`).
-/

set_option autoImplicit false

namespace MonkeyFrontEnd

/-! ### The first item of a text -/

namespace Lexeme

variable {shape longer : Shape} {c : Char}

theorem splitFrom_eq_takeFrom (shape : Shape) (read cs : List Char) :
    splitFrom shape read cs = (takeFrom shape read cs).1 :: split (takeFrom shape read cs).2 := by
  induction cs generalizing shape read with
  | nil => rfl
  | cons c cs ih =>
    rw [splitFrom, takeFrom]
    cases shape.extend? c with
    | some longer => exact ih longer (c :: read)
    | none => rfl

theorem Shape.ofChar_eq_blank_iff : Shape.ofChar c = .blank ↔ isBlank c := by
  cases hb : isBlank c with
  | true => simp [Shape.ofChar, hb]
  | false =>
    simp only [Shape.ofChar, hb, Bool.false_eq_true, if_false, iff_false]
    split
    · simp
    · split
      · simp
      · split <;> simp

theorem Shape.ne_blank_of_extend? (h : shape.extend? c = some longer) : longer ≠ .blank := by
  rintro rfl
  cases shape with
  | sign k => cases k <;> simp [Shape.extend?] at h
  | _ => simp [Shape.extend?] at h

theorem shape_takeFrom_ne_blank (visible : shape ≠ .blank) (read cs : List Char) :
    (takeFrom shape read cs).1.shape ≠ .blank := by
  induction cs generalizing shape read with
  | nil => exact visible
  | cons c cs ih =>
    rw [takeFrom]
    cases extended : shape.extend? c with
    | some longer => exact ih (Shape.ne_blank_of_extend? extended) _
    | none => exact visible

/-- A lexeme that is not blank is an item. -/
theorem exists_item? {l : Lexeme} (visible : l.shape ≠ .blank) (start : Nat) :
    ∃ i, l.item? start = some i := by
  obtain ⟨shape, text⟩ := l
  cases shape with
  | blank => exact absurd rfl visible
  | _ => exact ⟨_, rfl⟩

end Lexeme

/-- Reading the first item of a text takes it off the items of the text. -/
theorem Item.ofLexemes_split (start : Nat) (cs : List Char) :
    ofLexemes start (Lexeme.split cs) =
      match first? start cs with
      | none => []
      | some (i, place, unread) => i :: ofLexemes place (Lexeme.split unread) := by
  induction cs generalizing start with
  | nil => rfl
  | cons c cs ih =>
    rw [Lexeme.split, first?]
    by_cases blank : isBlank c
    · rw [Lexeme.Shape.ofChar_eq_blank_iff.2 blank, if_pos blank, ← ih]
      cases cs <;> rfl
    · have visible := mt Lexeme.Shape.ofChar_eq_blank_iff.1 blank
      obtain ⟨i, hi⟩ := Lexeme.exists_item? (Lexeme.shape_takeFrom_ne_blank visible [c] cs) start
      rw [Lexeme.splitFrom_eq_takeFrom, ofLexemes, hi, if_neg blank]
      simp only [hi]
      rfl

/-- The end of a text is marked once, behind all its items. -/
theorem Item.countP_eof_stream (source : String) :
    ((stream source).countP fun i => i.token?.any fun t => t.kind = .eof) = 1 := by
  have none_before :
      ((ofSource source).countP fun i => i.token?.any fun t => t.kind = .eof) = 0 := by
    apply List.countP_eq_zero.2
    intro i hi
    obtain ⟨_, _, _, _, whole⟩ := (tiles_ofSource source).stand i hi
    cases i with
    | token t => simpa [token?] using whole.kind_ne_eof
    | illegal e => simp [token?]
  rw [stream, List.countP_append, none_before]
  rfl

namespace Reader

/-! ### What is ahead of a reader -/

/-- The items that have not been read. -/
def unreadItems (r : Reader) : List Item :=
  Item.ofLexemes r.place (Lexeme.split r.unread) ++
    if r.ended then [] else [.token (.ofEnd r.source)]

/-- The reader as a cursor, which knows the items that will be handed out. -/
def cursor (r : Reader) : Cursor :=
  ⟨r.source, r.held.toList ++ r.unreadItems⟩

theorem cursor_ofSource (source : String) : (ofSource source).cursor = .ofSource source := rfl

/-- What reading does: it takes the first item that has not been read, and nothing else changes. -/
theorem read_cases (r : Reader) :
    ∃ after, r.read = (r.unreadItems.head?, after) ∧ after.unreadItems = r.unreadItems.tail ∧
      after.held = r.held ∧ after.source = r.source := by
  have items := Item.ofLexemes_split r.place r.unread
  rw [read, unreadItems, items]
  cases found : Item.first? r.place r.unread with
  | some next => exact ⟨_, rfl, rfl, rfl, rfl⟩
  | none =>
    rw [found] at items
    cases ended : r.ended with
    | true => exact ⟨r, rfl, by simp [unreadItems, items, ended], rfl, rfl⟩
    | false => exact ⟨_, rfl, by simp [unreadItems, items], rfl, rfl⟩

/-- Showing an item takes nothing. -/
theorem peek_cursor (r : Reader) : r.peek.1 = r.cursor.peek ∧ r.peek.2.cursor = r.cursor := by
  cases held : r.held with
  | some i => simp [peek, cursor, Cursor.peek, held]
  | none =>
    obtain ⟨after, read, left, -, same⟩ := r.read_cases
    have shown : r.peek = (r.unreadItems.head?, { after with held := r.unreadItems.head? }) := by
      simp only [peek, held, read]
    have again : r.unreadItems.head?.toList ++ r.unreadItems.tail = r.unreadItems := by
      cases r.unreadItems <;> rfl
    constructor
    · simp [shown, cursor, Cursor.peek, held]
    · have kept : r.peek.2.cursor =
          ⟨after.source, r.unreadItems.head?.toList ++ after.unreadItems⟩ :=
        congrArg (fun shown => shown.2.cursor) shown
      rw [kept, same, left, again, cursor, held]
      rfl

/-- Taking an item takes the first one that is ahead. -/
theorem next_cursor (r : Reader) :
    r.next.1 = r.cursor.next.1 ∧ r.next.2.cursor = r.cursor.next.2 := by
  cases held : r.held with
  | some i =>
    have taken : r.next = (some i, { r with held := none }) := by simp only [next, held]
    rw [taken, cursor, held]
    exact ⟨rfl, rfl⟩
  | none =>
    obtain ⟨after, read, left, empty, same⟩ := r.read_cases
    have taken : r.next = (r.unreadItems.head?, after) := by simp only [next, held, read]
    rw [taken, cursor, cursor, held, empty, held, left, same]
    exact ⟨rfl, rfl⟩

/-- Taking items until there is none left takes all that are ahead. -/
theorem drain_cursor (r : Reader) :
    r.drain.1 = r.cursor.drain.1 ∧ r.drain.2.cursor = r.cursor.drain.2 := by
  fun_induction drain r with
  | case1 r after taken =>
    obtain ⟨item, left⟩ := r.next_cursor
    rw [taken] at item left
    have none_ahead : r.cursor.ahead = [] := List.head?_eq_none_iff.1 item.symm
    rw [left, Cursor.next, Cursor.drain, none_ahead]
    exact ⟨rfl, rfl⟩
  | case2 r i after taken _ items last drained ih =>
    obtain ⟨item, left⟩ := r.next_cursor
    rw [taken] at item left
    obtain ⟨others, ahead⟩ := List.head?_eq_some_iff.1 item.symm
    rw [drained, left, Cursor.next, ahead] at ih
    obtain ⟨rest, finished⟩ := ih
    rw [Cursor.drain, ahead]
    exact ⟨congrArg (i :: ·) rest, finished⟩

/-! ### Calls in any order -/

/-- What can be asked of a reader, item by item. -/
inductive Call
  | peek
  | next
  deriving DecidableEq

/-- The item that the call is answered with, and the reader after it. -/
def call (r : Reader) : Call → Option Item × Reader
  | .peek => r.peek
  | .next => r.next

/-- The reader after the calls. -/
def after (r : Reader) (calls : List Call) : Reader :=
  calls.foldl (fun r c => (r.call c).2) r

/-- What the calls of `next` among the calls are answered with. -/
def taken (r : Reader) : List Call → List (Option Item)
  | [] => []
  | .peek :: calls => r.peek.2.taken calls
  | .next :: calls => r.next.1 :: r.next.2.taken calls

variable {r : Reader}

/-- What is ahead of a reader after calls: each call of `next` has taken an item. -/
theorem after_cursor (r : Reader) (calls : List Call) :
    (r.after calls).cursor = ⟨r.source, r.cursor.ahead.drop (calls.count .next)⟩ := by
  induction calls generalizing r with
  | nil => rfl
  | cons c calls ih =>
    rw [after, List.foldl_cons]
    apply (ih _).trans
    cases c with
    | peek =>
      have kept : r.peek.2.cursor = r.cursor := r.peek_cursor.2
      have same : r.peek.2.source = r.source := congrArg Cursor.source kept
      rw [call, kept, same, List.count_cons_of_ne (by decide)]
    | next =>
      have left : r.next.2.cursor = r.cursor.next.2 := r.next_cursor.2
      have same : r.next.2.source = r.source := congrArg Cursor.source left
      rw [call, left, same, List.count_cons_self, Nat.add_comm, ← List.drop_drop, List.drop_one]
      rfl

/-- Items are handed out in the order in which they are ahead, whatever else is asked. -/
theorem taken_eq (r : Reader) (calls : List Call) :
    r.taken calls = (List.range (calls.count .next)).map fun n => r.cursor.ahead[n]? := by
  induction calls generalizing r with
  | nil => rfl
  | cons c calls ih =>
    cases c with
    | peek => rw [taken, ih, r.peek_cursor.2, List.count_cons_of_ne (by decide)]
    | next =>
      obtain ⟨item, left⟩ := r.next_cursor
      rw [taken, ih, item, left, List.count_cons_self, List.range_succ_eq_map, List.map_cons,
        List.map_map, Cursor.next]
      cases r.cursor.ahead <;> rfl

/-- The reader has handed out the first `n` items of the text's stream: so it has the others ahead
of it, whether it is asked for one of them or for all, and what it shows is what it will hand out,
however often it is asked to show it. -/
structure StandsAt (source : String) (n : Nat) (r : Reader) : Prop where
  next_eq : r.next.1 = (Item.stream source)[n]?
  peek_eq : ∀ again, r.peek.1 = (r.peek.2.after (List.replicate again .peek)).next.1
  drain_eq : r.drain.1 = (Item.stream source).drop n
  source_eq : r.source = source

theorem standsAt_of_cursor {source : String} {n : Nat}
    (h : r.cursor = ⟨source, (Item.stream source).drop n⟩) : r.StandsAt source n where
  next_eq := by rw [r.next_cursor.1, h, Cursor.next, List.head?_drop]
  peek_eq again := by
    rw [(next_cursor _).1, after_cursor, List.count_replicate, if_neg (by decide), List.drop_zero,
      r.peek_cursor.1, r.peek_cursor.2]
    rfl
  drain_eq := by rw [r.drain_cursor.1, h, Cursor.drain]
  source_eq := congrArg Cursor.source h

/-- **Looking ahead takes nothing.** Whatever is asked of a reader, and in whatever order, what it
hands out are the items of its text one after the other, as they are if it is asked for nothing
else: first those that tile the text, then its end, which is no item before, and then nothing, for
ever. At any time it stands at the item that comes next. -/
theorem calls_follow_stream (source : String) (calls : List Call) :
    (ofSource source).taken calls =
      (ofSource source).taken (List.replicate (calls.count .next) .next) ∧
    ((ofSource source).taken calls =
      (List.range (calls.count .next)).map fun n => (Item.stream source)[n]?) ∧
    ((Item.stream source).countP fun i => i.token?.any fun t => t.kind = .eof) = 1 ∧
    ((ofSource source).after calls).StandsAt source (calls.count .next) := by
  refine ⟨?_, ?_, ?_, ?_⟩
  · rw [taken_eq, taken_eq, List.count_replicate_self]
  · rw [taken_eq, cursor_ofSource]
    rfl
  · exact Item.countP_eof_stream source
  · apply standsAt_of_cursor
    rw [after_cursor, cursor_ofSource]
    rfl

-- the end of the text is handed out once, however often it has been shown before
example : (ofSource " ").taken [.peek, .peek, .next, .peek, .next] =
    [some (.token (.endAt 1)), none] := by decide

end Reader

end MonkeyFrontEnd
