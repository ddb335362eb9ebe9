/-!
# Text measured in bytes

Places in a text are byte offsets of its UTF-8 form, while everything else works on its
characters. `byteCount` is the one bridge between the two.
-/

set_option autoImplicit false

namespace MonkeyFrontEnd.Text

/-- The number of bytes that the UTF-8 form of `cs` takes. -/
def byteCount : List Char → Nat
  | [] => 0
  | c :: cs => c.utf8Size + byteCount cs

@[simp] theorem byteCount_nil : byteCount [] = 0 := rfl

@[simp] theorem byteCount_cons (c : Char) (cs : List Char) :
    byteCount (c :: cs) = c.utf8Size + byteCount cs := rfl

@[simp] theorem byteCount_append (as bs : List Char) :
    byteCount (as ++ bs) = byteCount as + byteCount bs := by
  induction as with
  | nil => simp
  | cons a as ih => simp [ih, Nat.add_assoc]

theorem byteCount_pos {c : Char} {cs : List Char} : 0 < byteCount (c :: cs) := by
  have := c.utf8Size_pos
  simp only [byteCount_cons]
  omega

theorem byteCount_eq_zero_iff {cs : List Char} : byteCount cs = 0 ↔ cs = [] := by
  cases cs with
  | nil => simp
  | cons c cs => simpa using Nat.ne_of_gt byteCount_pos

/-- A beginning of a text that is no shorter than another one goes on with it. -/
theorem exists_eq_append_of_byteCount_le {front behind before rest : List Char}
    (split : front ++ behind = before ++ rest) (le : byteCount front ≤ byteCount before) :
    ∃ more, before = front ++ more ∧ behind = more ++ rest := by
  rcases List.append_eq_append_iff.1 split with longer | ⟨more, rfl, hrest⟩
  · exact longer
  · cases more with
    | nil => exact ⟨[], by simp, by simpa using hrest.symm⟩
    | cons c more =>
      have positive : 0 < byteCount (c :: more) := byteCount_pos
      rw [byteCount_append] at le
      omega

/-- The first `n` bytes of a text. There are none if they would end within a character, or if the
text is shorter. -/
def takeBytes? : Nat → List Char → Option (List Char)
  | 0, _ => some []
  | _ + 1, [] => none
  | n + 1, c :: cs =>
    if c.utf8Size ≤ n + 1 then (takeBytes? (n + 1 - c.utf8Size) cs).map (c :: ·) else none

@[simp] theorem takeBytes?_zero (cs : List Char) : takeBytes? 0 cs = some [] := by
  cases cs <;> rfl

/-- The first `n` bytes of a text are the beginning of it that takes `n` bytes. -/
theorem takeBytes?_eq_some_iff {n : Nat} {cs front : List Char} :
    takeBytes? n cs = some front ↔ byteCount front = n ∧ ∃ rest, cs = front ++ rest := by
  constructor
  · intro h
    induction n, cs using takeBytes?.induct generalizing front with
    | case1 cs =>
      obtain rfl : [] = front := by simpa using h
      exact ⟨rfl, cs, rfl⟩
    | case2 => cases h
    | case3 n c cs fits ih =>
      rw [takeBytes?, if_pos fits] at h
      obtain ⟨more, taken, rfl⟩ := Option.map_eq_some_iff.1 h
      obtain ⟨size, rest, rfl⟩ := ih taken
      refine ⟨?_, rest, rfl⟩
      rw [byteCount_cons]
      omega
    | case4 n c cs wide =>
      rw [takeBytes?, if_neg wide] at h
      cases h
  · rintro ⟨rfl, rest, rfl⟩
    induction front with
    | nil => exact takeBytes?_zero rest
    | cons c front ih =>
      have positive : 0 < byteCount (c :: front) := byteCount_pos
      obtain ⟨n, size⟩ := Nat.exists_eq_add_one.2 positive
      have fits : c.utf8Size ≤ n + 1 := by
        rw [← size, byteCount_cons]
        omega
      have left : n + 1 - c.utf8Size = byteCount front := by
        rw [← size, byteCount_cons]
        omega
      rw [size, List.cons_append, takeBytes?, if_pos fits, left, ih]
      rfl

/-- Byte counts of characters and of the string that holds them agree. -/
theorem utf8ByteSize_ofList (cs : List Char) : (String.ofList cs).utf8ByteSize = byteCount cs := by
  induction cs with
  | nil => rfl
  | cons c cs ih =>
    rw [← List.singleton_append, String.ofList_append, String.utf8ByteSize_append, ih,
      byteCount_append, show String.ofList [c] = String.singleton c from rfl,
      String.utf8ByteSize_singleton]
    simp

theorem byteCount_toList (s : String) : byteCount s.toList = s.utf8ByteSize := by
  rw [← utf8ByteSize_ofList, String.ofList_toList]

end MonkeyFrontEnd.Text
