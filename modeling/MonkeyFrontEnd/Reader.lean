import MonkeyFrontEnd.Item

/-!
# Reading a source text with an item held back

A `Reader` reads its text no further than it is asked to. It keeps the characters that it has not
read yet, the item that it has shown but not handed out, and whether it has come to the end of the
text, which it hands out once as a token. What it will hand out is known without reading: see
`Cursor`.
-/

set_option autoImplicit false

namespace MonkeyFrontEnd

/-- The lexeme under way, which has the shape `shape` and the characters `read`, the last one first,
as long as it can be; and the text behind it. -/
def Lexeme.takeFrom (shape : Shape) (read : List Char) : List Char → Lexeme × List Char
  | [] => (⟨shape, read.reverse⟩, [])
  | c :: cs =>
    match shape.extend? c with
    | some longer => takeFrom longer (c :: read) cs
    | none => (⟨shape, read.reverse⟩, c :: cs)

/-- The first item of a text that begins at the byte offset `start`, the offset at which the item
ends, and the text behind it. -/
def Item.first? (start : Nat) : List Char → Option (Item × Nat × List Char)
  | [] => none
  | c :: cs =>
    if isBlank c then first? (start + c.utf8Size) cs
    else
      let (l, behind) := Lexeme.takeFrom (.ofChar c) [c] cs
      (l.item? start).map fun i => (i, start + Text.byteCount l.text, behind)

/-- A source text that is being read. -/
structure Reader where
  source : String
  /-- Where the characters begin that have not been read. -/
  place : Nat
  unread : List Char
  /-- The item that has been read but not taken. -/
  held : Option Item
  /-- The end of the text has been read. -/
  ended : Bool

namespace Reader

/-- A reader before the first item. -/
def ofSource (source : String) : Reader :=
  ⟨source, 0, source.toList, none, false⟩

/-- Reads an item of the text, then the token at its end, then nothing. -/
def read (r : Reader) : Option Item × Reader :=
  match Item.first? r.place r.unread with
  | some (i, place, unread) => (some i, { r with place, unread })
  | none =>
    if r.ended then (none, r) else (some (.token (.ofEnd r.source)), { r with ended := true })

/-- Shows the item that comes next, and holds it back. -/
def peek (r : Reader) : Option Item × Reader :=
  match r.held with
  | some i => (some i, r)
  | none =>
    let (i?, after) := r.read
    (i?, { after with held := i? })

/-- Takes the item that comes next. -/
def next (r : Reader) : Option Item × Reader :=
  match r.held with
  | some i => (some i, { r with held := none })
  | none => r.read

/-! Items can be taken only so often. -/

theorem length_takeFrom_le (shape : Lexeme.Shape) (read cs : List Char) :
    (Lexeme.takeFrom shape read cs).2.length ≤ cs.length := by
  induction cs generalizing shape read with
  | nil => exact Nat.le_refl _
  | cons c cs ih =>
    simp only [Lexeme.takeFrom]
    split
    · exact Nat.le_succ_of_le (ih _ _)
    · exact Nat.le_refl _

theorem length_of_first? {start place : Nat} {cs unread : List Char} {i : Item}
    (h : Item.first? start cs = some (i, place, unread)) : unread.length < cs.length := by
  induction cs generalizing start with
  | nil => cases h
  | cons c cs ih =>
    simp only [Item.first?] at h
    split at h
    · exact Nat.lt_succ_of_lt (ih h)
    · obtain ⟨_, -, same⟩ := Option.map_eq_some_iff.1 h
      cases same
      exact Nat.lt_succ_of_le (length_takeFrom_le _ _ _)

/-- No more items than this can be taken. -/
def bound (r : Reader) : Nat :=
  r.unread.length + r.held.toList.length + if r.ended then 0 else 1

theorem bound_of_read {r after : Reader} {i : Item} (h : r.read = (some i, after)) :
    after.bound < r.bound := by
  simp only [read] at h
  split at h
  · rename_i found
    have := length_of_first? found
    cases h
    simp only [bound]
    omega
  · split at h
    · cases h
    · rename_i begun
      cases h
      simp [bound, begun]

theorem bound_of_next {r after : Reader} {i : Item} (h : r.next = (some i, after)) :
    after.bound < r.bound := by
  simp only [next] at h
  split at h
  · rename_i held
    cases h
    simp [bound, held]
  · exact bound_of_read h

/-- Takes items until there is none left. -/
def drain (r : Reader) : List Item × Reader :=
  match h : r.next with
  | (none, after) => ([], after)
  | (some i, after) =>
    have : after.bound < r.bound := bound_of_next h
    let (items, last) := after.drain
    (i :: items, last)
termination_by r.bound

end Reader

end MonkeyFrontEnd
