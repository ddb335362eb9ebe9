import Mathlib.Data.List.Basic
import MonkeyFrontEnd.Tree.Decoded

/-!
# The parts of an object by their names

What decoders look up in an object. A name that occurs once gives its part, and any other name
nothing (`part?_cons_self`), so that the order of the parts and parts with other names play no role.
The pieces of a text stand for that text (`text?_pieces`), and therefore an object that was made
from named parts has just these (`parts?_ofFields`). An array of as many values as there are names
due has the same parts as the object with these names (`parts?_array`), and in both cases every part
is one of the values inside (`mem_values_of_parts?`).
-/

set_option autoImplicit false

namespace MonkeyFrontEnd.Json

variable {α β : Type} {key name : String} {v : α} {ps qs : List (String × α)}
  {ms ns : List (List Piece × α)} {k : List Piece}

/-! ### Texts -/

/-- A unit that is no half of a character is a character by itself, whatever follows. -/
theorem chars?_unit {n : Nat} (small : n < 0xD800) (ps : List Piece) :
    chars? (.unit n :: ps) = (chars? ps).map (Char.ofNat n :: ·) := by
  have high : isHighSurrogate n = false := by simp [isHighSurrogate]; omega
  have low : isLowSurrogate n = false := by simp [isLowSurrogate]; omega
  cases ps with
  | nil => simp [chars?, high, low]
  | cons p ps => cases p <;> simp [chars?, high, low]

theorem chars?_ofChar (c : Char) (ps : List Piece) :
    chars? (Piece.ofChar c :: ps) = (chars? ps).map (c :: ·) := by
  unfold Piece.ofChar
  split
  · rename_i control
    have small : c.toNat < ' '.toNat := by
      simp only [Bool.and_eq_true, decide_eq_true_eq] at control
      exact control.1
    have bound : ' '.toNat ≤ 0xD800 := by decide
    rw [chars?_unit (by omega), Char.ofNat_toNat]
  · rfl

theorem chars?_pieces (cs : List Char) : chars? (cs.map Piece.ofChar) = some cs := by
  induction cs with
  | nil => rfl
  | cons c cs ih => rw [List.map_cons, chars?_ofChar, ih, Option.map_some]

/-- The pieces of a text stand for it. -/
@[simp] theorem text?_pieces (s : String) : text? (pieces s) = some s := by
  rw [text?, pieces, chars?_pieces, Option.map_some, String.ofList_toList]

@[simp] theorem asText?_ofString (s : String) : (ofString s).asText? = some s :=
  text?_pieces s

@[simp] theorem asName?_ofString (s : String) : (ofString s).asName? = some s :=
  text?_pieces s

/-! ### Members with names -/

@[simp] theorem keyed?_nil : keyed? ([] : List (List Piece × α)) = some [] :=
  rfl

theorem keyed?_cons (m : List Piece × α) (ms : List (List Piece × α)) : keyed? (m :: ms) =
    (text? m.1).bind fun key => (keyed? ms).map ((key, m.2) :: ·) := by
  rw [keyed?, List.mapM_cons]
  cases text? m.1 with
  | none => rfl
  | some key =>
    change (keyed? ms).bind (fun ps => some ((key, m.2) :: ps)) = _
    cases keyed? ms <;> rfl

theorem keyed?_cons_eq_some_iff {m : List Piece × α} :
    keyed? (m :: ms) = some ps ↔
      ∃ key qs, text? m.1 = some key ∧ keyed? ms = some qs ∧ (key, m.2) :: qs = ps := by
  rw [keyed?_cons]
  simp [Option.bind_eq_some_iff]

/-- The parts of an object in two sections. -/
theorem keyed?_append :
    keyed? (ms ++ ns) = (keyed? ms).bind fun ps => (keyed? ns).map (ps ++ ·) := by
  induction ms with
  | nil => simp
  | cons m ms ih =>
    rw [List.cons_append, keyed?_cons, keyed?_cons, ih]
    cases text? m.1 <;> cases keyed? ms <;> cases keyed? ns <;> rfl

/-- An object with a member in some place has the parts of the others, and that one. -/
theorem keyed?_middle (hk : text? k = some name) :
    keyed? (ms ++ (k, v) :: ns) = some ps ↔
      ∃ before behind, keyed? ms = some before ∧ keyed? ns = some behind ∧
        before ++ (name, v) :: behind = ps := by
  rw [keyed?_append, keyed?_cons, hk]
  cases keyed? ms <;> cases keyed? ns <;> simp

theorem keyed?_insert (key : text? k = some name) (v : α)
    (h : keyed? (ms ++ ns) = some ps) :
    ∃ before behind, ps = before ++ behind ∧
      keyed? (ms ++ (k, v) :: ns) = some (before ++ (name, v) :: behind) := by
  rw [keyed?_append] at h
  obtain ⟨before, hbefore, h⟩ := Option.bind_eq_some_iff.1 h
  obtain ⟨behind, hbehind, rfl⟩ := Option.map_eq_some_iff.1 h
  exact ⟨before, behind, rfl, (keyed?_middle key).2 ⟨before, behind, hbefore, hbehind, rfl⟩⟩

theorem keyed?_remove (key : text? k = some name)
    (h : keyed? (ms ++ (k, v) :: ns) = some ps) :
    ∃ before behind, ps = before ++ (name, v) :: behind ∧
      keyed? (ms ++ ns) = some (before ++ behind) := by
  obtain ⟨before, behind, hbefore, hbehind, rfl⟩ := (keyed?_middle key).1 h
  refine ⟨before, behind, rfl, ?_⟩
  rw [keyed?_append, hbefore, hbehind]
  rfl

theorem keyed?_perm (h : ms.Perm ns) (hm : keyed? ms = some ps) :
    ∃ qs, keyed? ns = some qs ∧ ps.Perm qs := by
  induction h generalizing ps with
  | nil => exact ⟨ps, hm, .refl ps⟩
  | cons m _ ih =>
    obtain ⟨key, ps, hk, hp, rfl⟩ := keyed?_cons_eq_some_iff.1 hm
    obtain ⟨qs, hq, perm⟩ := ih hp
    exact ⟨(key, m.2) :: qs, keyed?_cons_eq_some_iff.2 ⟨key, qs, hk, hq, rfl⟩, perm.cons _⟩
  | swap m n ms =>
    obtain ⟨key, _, hk, rest, rfl⟩ := keyed?_cons_eq_some_iff.1 hm
    obtain ⟨key', ps, hk', hp, rfl⟩ := keyed?_cons_eq_some_iff.1 rest
    have swapped : keyed? (n :: ms) = some ((key, n.2) :: ps) :=
      keyed?_cons_eq_some_iff.2 ⟨key, ps, hk, hp, rfl⟩
    exact ⟨(key', m.2) :: (key, n.2) :: ps,
      keyed?_cons_eq_some_iff.2 ⟨key', _, hk', swapped, rfl⟩, .swap ..⟩
  | trans _ _ first second =>
    obtain ⟨qs, hq, perm⟩ := first hm
    obtain ⟨rs, hr, perm'⟩ := second hq
    exact ⟨rs, hr, perm.trans perm'⟩

/-- Every part is the value of a member. -/
theorem exists_mem_of_keyed? (h : keyed? ms = some ps) {p : String × α} (hp : p ∈ ps) :
    ∃ m ∈ ms, m.2 = p.2 := by
  induction ms generalizing ps with
  | nil =>
    cases h
    cases hp
  | cons m ms ih =>
    obtain ⟨key, qs, -, hq, rfl⟩ := keyed?_cons_eq_some_iff.1 h
    rcases List.mem_cons.1 hp with rfl | later
    · exact ⟨m, List.mem_cons_self, rfl⟩
    · obtain ⟨n, hn, same⟩ := ih hq later
      exact ⟨n, List.mem_cons_of_mem m hn, same⟩

theorem length_of_keyed? (h : keyed? ms = some ps) : ps.length = ms.length := by
  induction ms generalizing ps with
  | nil =>
    cases h
    rfl
  | cons m ms ih =>
    obtain ⟨key, qs, -, hq, rfl⟩ := keyed?_cons_eq_some_iff.1 h
    rw [List.length_cons, List.length_cons, ih hq]

/-- The members of an object that was made from named parts are these parts. -/
@[simp] theorem keyed?_pieces (fields : List (String × α)) :
    keyed? (fields.map fun f => (pieces f.1, f.2)) = some fields := by
  induction fields with
  | nil => rfl
  | cons f fields ih => simp [keyed?_cons, ih]

@[simp] theorem parts?_ofFields (names : List String) (fields : List (String × Json)) :
    (ofFields fields).parts? names = some fields :=
  keyed?_pieces fields

/-- What is done to the values of an object is done to its parts. -/
theorem keyed?_map (f : α → β) (ms : List (List Piece × α)) :
    keyed? (ms.map fun m => (m.1, f m.2)) = (keyed? ms).map (·.map fun p => (p.1, f p.2)) := by
  induction ms with
  | nil => rfl
  | cons m ms ih =>
    rw [List.map_cons, keyed?_cons, keyed?_cons, ih]
    cases text? m.1 <;> cases keyed? ms <;> rfl

/-! ### Values without names -/

theorem listed?_eq_some_iff {names : List String} {values : List α} :
    listed? names values = some ps ↔
      values.length = names.length ∧ names.zip values = ps := by
  rw [listed?, Option.ite_none_right_eq_some, Option.some_inj]

theorem listed?_map (f : α → β) (names : List String) (values : List α) :
    listed? names (values.map f) = (listed? names values).map (·.map fun p => (p.1, f p.2)) := by
  rw [listed?, listed?, List.length_map]
  split
  · rw [List.zip_map_right]
    rfl
  · rfl

/-- What is listed in the order of the names is found as if it had them. -/
theorem parts?_array {names : List String} {items : List Json}
    (size : items.length = names.length) :
    parts? names (.array items) = parts? names (ofFields (names.zip items)) := by
  rw [parts?, listed?, if_pos size, parts?_ofFields]

/-- The values that stand directly in an array or an object. -/
def values : Json → List Json
  | .array items => items
  | .object members => members.map Prod.snd
  | _ => []

theorem mem_values_of_parts? {names : List String} {j : Json} {ps : List (String × Json)}
    (h : j.parts? names = some ps) {p : String × Json} (hp : p ∈ ps) : p.2 ∈ j.values := by
  cases j with
  | object members =>
    obtain ⟨m, hm, same⟩ := exists_mem_of_keyed? h hp
    exact same ▸ List.mem_map_of_mem hm
  | array items =>
    obtain ⟨-, rfl⟩ := listed?_eq_some_iff.1 h
    exact (List.of_mem_zip hp).2
  | _ => cases h

/-! ### Single parts -/

theorem mem_of_part? (h : part? ps key = some v) : (key, v) ∈ ps := by
  unfold part? at h
  split at h
  · rename_i name value single
    cases h
    have found : (name, v) ∈ ps.filter fun p => decide (p.1 = key) := by simp [single]
    obtain ⟨member, same⟩ := List.mem_filter.1 found
    have same : name = key := by simpa using same
    rwa [← same]
  · cases h

/-- A part with another name plays no role. -/
theorem part?_cons_other (h : name ≠ key) : part? ((name, v) :: ps) key = part? ps key := by
  rw [part?, part?, List.filter_cons_of_neg (by simpa using h)]

/-- A part is found unless its name occurs again. -/
theorem part?_cons_self (key : String) (v : α) (ps : List (String × α)) :
    part? ((key, v) :: ps) key = if key ∈ ps.map Prod.fst then none else some v := by
  rw [part?, List.filter_cons_of_pos (by simp)]
  split
  · rename_i single
    obtain ⟨same, alone⟩ := List.cons.inj single
    have absent : key ∉ ps.map Prod.fst := by
      intro occurs
      obtain ⟨p, hp, rfl⟩ := List.mem_map.1 occurs
      exact List.filter_eq_nil_iff.1 alone p hp (by simp)
    rw [if_neg absent, (Prod.mk.inj same).2]
  · rename_i several
    rw [if_pos]
    by_contra absent
    have alone : ps.filter (fun p => decide (p.1 = key)) = [] := by
      rw [List.filter_eq_nil_iff]
      intro p hp same
      exact absent (List.mem_map.2 ⟨p, hp, by simpa using same⟩)
    exact several key v (by rw [alone])

theorem part?_perm (h : ps.Perm qs) (key : String) : part? ps key = part? qs key := by
  have perm := h.filter fun p => decide (p.1 = key)
  unfold part?
  generalize ps.filter _ = fs at perm ⊢
  generalize qs.filter _ = gs at perm ⊢
  match fs, gs with
  | [], gs => rw [perm.nil_eq]
  | [f], gs => rw [List.perm_singleton.1 perm.symm]
  | _ :: _ :: _, [] => rfl
  | _ :: _ :: _, [g] => simpa using perm.length_eq
  | _ :: _ :: _, _ :: _ :: _ => rfl

/-- Where a part stands among the others plays no role. -/
theorem part?_middle (before behind : List (String × α)) (name key : String) (v : α) :
    part? (before ++ (name, v) :: behind) key = part? ((name, v) :: (before ++ behind)) key :=
  part?_perm List.perm_middle key

/-- What is done to the values is done to the part that is found. -/
theorem part?_map (f : α → β) (ps : List (String × α)) (key : String) :
    part? (ps.map fun p => (p.1, f p.2)) key = (part? ps key).map f := by
  induction ps with
  | nil => rfl
  | cons p ps ih =>
    obtain ⟨name, v⟩ := p
    rw [List.map_cons]
    by_cases same : name = key
    · subst same
      rw [part?_cons_self, part?_cons_self, List.map_map]
      change (if name ∈ ps.map Prod.fst then none else some (f v)) = _
      split <;> rfl
    · rw [part?_cons_other same, part?_cons_other same, ih]

end MonkeyFrontEnd.Json
