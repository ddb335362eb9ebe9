import MonkeyFrontEnd.Proofs.Json.Scanning

/-!
# What is written spells the value

Every layout that puts nothing but blanks between the parts of a value writes a text that spells the
value (`spelledBy_write`), and so the text is read back as it. This holds for the values whose
strings are put together from pieces that the writer can write (`Writable`); the pieces of a text
are such pieces.
-/

set_option autoImplicit false

namespace MonkeyFrontEnd.Json

variable {l : Layout} {j : Json} {rest : List Char} {ts : List Token} {p : Piece} {ps : List Piece}
  {c : Char}

/-! ### Strings -/

/-- The pieces of a string, each of which is written in one of its spellings. -/
def WritablePieces (ps : List Piece) : Prop :=
  ∀ p ∈ ps, p.Spelled p.write

/-- The values whose strings can be written. -/
inductive Writable : Json → Prop
  | null : Writable .null
  | bool (b : Bool) : Writable (.bool b)
  | int (i : Int) : Writable (.int i)
  | string {ps : List Piece} (pieces : WritablePieces ps) : Writable (.string ps)
  | array {js : List Json} (items : ∀ j ∈ js, Writable j) : Writable (.array js)
  | object {ms : List (List Piece × Json)} (keys : ∀ m ∈ ms, WritablePieces m.1)
      (values : ∀ m ∈ ms, Writable m.2) : Writable (.object ms)

theorem spelledPieces_write (h : WritablePieces ps) :
    SpelledPieces ps (ps.flatMap Piece.write) := by
  induction ps with
  | nil => exact .nil
  | cons p ps ih =>
    obtain ⟨first, others⟩ := List.forall_mem_cons.1 h
    exact .cons first (ih others)

/-- A hexadecimal digit is read as what it was written for. -/
theorem hexValue?_digitChar {n : Nat} (h : n < 16) : hexValue? (Nat.digitChar n) = some n := by
  interval_cases n <;> decide

/-- A unit of sixteen bits is written in one of its spellings. -/
theorem spelled_unit {n : Nat} (h : n < 0x10000) : (Piece.unit n).Spelled (Piece.unit n).write := by
  have value :
      n = ((n / 0x1000 % 16 * 16 + n / 0x100 % 16) * 16 + n / 0x10 % 16) * 16 + n % 16 := by
    omega
  have digit : ∀ m : Nat, hexValue? (Nat.digitChar (m % 16)) = some (m % 16) := fun m =>
    hexValue?_digitChar (Nat.mod_lt m (by decide))
  have spelled := Piece.Spelled.unit (digit (n / 0x1000)) (digit (n / 0x100)) (digit (n / 0x10))
    (digit n)
  rw [← value] at spelled
  exact spelled

/-- The letters that escapes are written with are read as what they stand for. -/
theorem ofLetter?_of_letterOf? {letter : Char} (h : letterOf? c = some letter) :
    ofLetter? letter = some c := by
  unfold letterOf? at h
  split at h <;> first | (cases h; decide) | cases h

/-- A character that no escape is written for is neither quotation mark nor backslash. -/
theorem printed_of_letterOf? (h : letterOf? c = none) : c ≠ '"' ∧ c ≠ '\\' := by
  constructor <;> rintro rfl <;> cases h

/-- The piece that a character is made into is written in one of its spellings. -/
theorem spelled_ofChar (c : Char) : (Piece.ofChar c).Spelled (Piece.ofChar c).write := by
  by_cases control : c < ' ' && (letterOf? c).isNone
  · have small : c.toNat < ' '.toNat := by
      simp only [Bool.and_eq_true, decide_eq_true_eq] at control
      exact control.1
    have bound : ' '.toNat ≤ 0x10000 := by decide
    rw [Piece.ofChar, if_pos control]
    exact spelled_unit (by omega)
  · rw [Piece.ofChar, if_neg control]
    cases escape : letterOf? c with
    | some letter =>
      have written : (Piece.char c).write = ['\\', letter] := by simp [Piece.write, escape]
      rw [written]
      exact .letter (ofLetter?_of_letterOf? escape)
    | none =>
      have written : (Piece.char c).write = [c] := by simp [Piece.write, escape]
      have printed : ¬ c < ' ' := by simpa [escape] using control
      obtain ⟨quote, backslash⟩ := printed_of_letterOf? escape
      rw [written]
      exact .plain printed quote backslash

/-- Every text can be written as a string. -/
theorem writablePieces_pieces (s : String) : WritablePieces (pieces s) := by
  intro p hp
  obtain ⟨c, -, rfl⟩ := List.mem_map.1 hp
  exact spelled_ofChar c

/-! ### Values -/

/-- A layout that puts nothing but blanks between the parts of a value. -/
structure Layout.Blank (l : Layout) : Prop where
  gap : ∀ depth, Blanks (l.gap depth)
  afterColon : Blanks l.afterColon

theorem Layout.blank_compact : Layout.compact.Blank where
  gap _ := by simp [Layout.compact, Blanks]
  afterColon := by simp [Layout.compact, Blanks]

theorem Layout.blank_indented : Layout.indented.Blank where
  gap depth := by simp [Layout.indented, Blanks, isSpace]
  afterColon := by simp [Layout.indented, Blanks, isSpace]

theorem spells_blanks {gap : List Char} (blank : Blanks gap) (h : Spells ts rest) :
    Spells ts (gap ++ rest) := by
  have joined : ∀ {gap' : List Char}, Blanks gap' → Blanks (gap ++ gap') := fun blank' c hc =>
    (List.mem_append.1 hc).elim (blank c) (blank' c)
  cases h with
  | nil blank' => exact .nil (joined blank')
  | @cons gap' cs ds t ts blank' first others =>
    rw [← List.append_assoc]
    exact .cons (joined blank') first others

theorem spells_token {t : Token} {cs : List Char} (first : t.Spelled cs) (h : Spells ts rest) :
    Spells (t :: ts) (cs ++ rest) :=
  @Spells.cons [] cs rest t ts (by simp [Blanks]) first h

theorem spells_sign {t : Token} (sign : punctuation? c = some t) (h : Spells ts rest) :
    Spells (t :: ts) (c :: rest) :=
  spells_token (.punctuation sign) h

theorem spells_string (h : WritablePieces ps) (others : Spells ts rest) :
    Spells (.scalar (.string ps) :: ts) (writeString ps rest) := by
  have spelled := spells_token (.string (spelledPieces_write h)) others
  rw [writeString]
  simpa using spelled

/-- What the writer puts before a text that spells tokens spells the tokens of the value first. -/
def WrittenAhead (l : Layout) (j : Json) : Prop :=
  ∀ depth ts rest, Spells ts rest → Spells (j.tokens ++ ts) (write l depth j rest)

/-- A key, a colon and a value. -/
theorem spells_member (blank : l.Blank) {key : List Piece} (writable : WritablePieces key)
    (value : WrittenAhead l j) (depth : Nat) (h : Spells ts rest) :
    Spells (.scalar (.string key) :: .colon :: (j.tokens ++ ts))
      (writeString key (':' :: l.afterColon ++ write l depth j rest)) :=
  spells_string writable (spells_sign rfl (spells_blanks blank.afterColon (value depth ts rest h)))

theorem spells_writeItems (blank : l.Blank) {js : List Json} (each : ∀ j ∈ js, WrittenAhead l j)
    (depth : Nat) (h : Spells ts rest) :
    Spells (tokensOfItems js ++ ts) (writeItems l depth js rest) := by
  induction js with
  | nil => exact h
  | cons j js ih =>
    obtain ⟨here, later⟩ := List.forall_mem_cons.1 each
    have value := here depth _ _ (ih later)
    rw [tokensOfItems, writeItems, List.cons_append, List.append_assoc]
    exact spells_sign rfl (spells_blanks (blank.gap depth) value)

theorem spells_writeMembers (blank : l.Blank) {ms : List (List Piece × Json)}
    (keys : ∀ m ∈ ms, WritablePieces m.1) (values : ∀ m ∈ ms, WrittenAhead l m.2) (depth : Nat)
    (h : Spells ts rest) : Spells (tokensOfMembers ms ++ ts) (writeMembers l depth ms rest) := by
  induction ms with
  | nil => exact h
  | cons m ms ih =>
    obtain ⟨key, j⟩ := m
    obtain ⟨firstKey, laterKeys⟩ := List.forall_mem_cons.1 keys
    obtain ⟨here, later⟩ := List.forall_mem_cons.1 values
    have member := spells_member blank firstKey here depth (ih laterKeys later)
    rw [tokensOfMembers, writeMembers, List.cons_append, List.cons_append, List.cons_append,
      List.append_assoc]
    exact spells_sign rfl (spells_blanks (blank.gap depth) member)

theorem writtenAhead (blank : l.Blank) (h : Writable j) : WrittenAhead l j := by
  induction h with
  | null => exact fun _ _ _ others => spells_token .nullWord others
  | bool b =>
    intro depth ts rest others
    cases b with
    | true => exact spells_token .trueWord others
    | false => exact spells_token .falseWord others
  | int i => exact fun _ _ _ others => spells_token (.int i) others
  | string pieces => exact fun _ _ _ others => spells_string pieces others
  | @array js _ ih =>
    intro depth ts rest others
    have close : Spells (.closeArray :: ts) (']' :: rest) := spells_sign rfl others
    cases js with
    | nil => exact spells_sign rfl close
    | cons j js =>
      obtain ⟨here, later⟩ := List.forall_mem_cons.1 ih
      have items := spells_writeItems blank later (depth + 1)
        (spells_blanks (blank.gap depth) close)
      rw [tokens, write, List.cons_append, List.append_assoc, List.append_assoc]
      exact spells_sign rfl (spells_blanks (blank.gap (depth + 1)) (here _ _ _ items))
  | @object ms keys _ ih =>
    intro depth ts rest others
    have close : Spells (.closeObject :: ts) ('\x7d' :: rest) := spells_sign rfl others
    cases ms with
    | nil => exact spells_sign rfl close
    | cons m ms =>
      obtain ⟨key, j⟩ := m
      obtain ⟨firstKey, laterKeys⟩ := List.forall_mem_cons.1 keys
      obtain ⟨here, later⟩ := List.forall_mem_cons.1 ih
      have members := spells_writeMembers blank laterKeys later (depth + 1)
        (spells_blanks (blank.gap depth) close)
      rw [tokens, write, List.cons_append, List.cons_append, List.cons_append, List.append_assoc,
        List.append_assoc]
      exact spells_sign rfl (spells_blanks (blank.gap (depth + 1))
        (spells_member blank firstKey here (depth + 1) members))

/-- What is written with blanks between the parts spells the value. -/
theorem spelledBy_write (blank : l.Blank) (h : Writable j) :
    j.SpelledBy (String.ofList (write l 0 j [])) := by
  have spelled := writtenAhead blank h 0 [] [] (.nil (by simp [Blanks]))
  rw [List.append_nil] at spelled
  rw [SpelledBy, String.toList_ofList]
  exact spelled

theorem read?_compact (h : Writable j) : read? (compact j) = some j :=
  read?_of_spelledBy (spelledBy_write Layout.blank_compact h)

theorem read?_indented (h : Writable j) : read? (indented j) = some j :=
  read?_of_spelledBy (spelledBy_write Layout.blank_indented h)

end MonkeyFrontEnd.Json
