import Mathlib.Data.List.Induction
import Mathlib.Tactic.IntervalCases
import MonkeyFrontEnd.Proofs.Json.Grammar

/-!
# Reading the numbers of a JSON text

A text that the grammar derives as a number is read as one: as the integer that it spells, if it is
the spelling of one (`number?_writeInt`), and otherwise as itself (`number?_of_number`). The decimal
digits of a natural number are the only digits without a superfluous zero that come to it
(`toDigits_ofDigitChars`), so that the two cases exclude each other.
-/

set_option autoImplicit false

namespace MonkeyFrontEnd.Json

variable {cs ds minus whole rest fraction exponent : List Char} {c d : Char} {i : Int}

/-! ### Digits -/

/-- Digits that begin with a zero only if it is the only one. -/
structure Whole (ds : List Char) : Prop where
  digits : Digits ds
  zero : ds.head? = some '0' → ds = ['0']

theorem Digits.exists_cons (h : Digits ds) : ∃ d r, ds = d :: r ∧ d.isDigit := by
  obtain ⟨d, r, rfl⟩ := List.exists_cons_of_ne_nil h.1
  exact ⟨d, r, rfl, h.2 d List.mem_cons_self⟩

theorem Whole.isWhole (h : Whole ds) : isWhole ds := by
  obtain ⟨d, r, rfl, -⟩ := h.digits.exists_cons
  by_cases hd : d = '0'
  · subst hd
    rw [h.zero rfl]
    rfl
  · unfold Json.isWhole
    split <;> simp_all

theorem ne_of_isDigit (hc : c.isDigit) (hd : d.isDigit = false) : c ≠ d := by
  rintro rfl
  rw [hc] at hd
  cases hd

theorem toNat_of_isDigit (h : d.isDigit) : 48 ≤ d.toNat ∧ d.toNat ≤ 57 :=
  Char.isDigit_iff_toNat.1 h

/-- A digit is the digit of its value. -/
theorem digitChar_toNat (h : d.isDigit) : Nat.digitChar (d.toNat - '0'.toNat) = d := by
  obtain ⟨low, high⟩ := toNat_of_isDigit h
  rw [← Char.ofNat_toNat d]
  generalize d.toNat = n at low high
  interval_cases n <;> rfl

theorem ofDigitChars_concat (ds : List Char) (d : Char) :
    Nat.ofDigitChars 10 (ds ++ [d]) 0 =
      10 * Nat.ofDigitChars 10 ds 0 + (d.toNat - '0'.toNat) := by
  rw [Nat.ofDigitChars_append, Nat.ofDigitChars_cons, Nat.ofDigitChars_nil]

/-- Digits without a superfluous zero are the decimal digits of their value. -/
theorem toDigits_ofDigitChars (h : Whole ds) : Nat.toDigits 10 (Nat.ofDigitChars 10 ds 0) = ds := by
  induction ds using List.reverseRecOn with
  | nil => exact absurd rfl h.digits.1
  | append_singleton ds d ih =>
    have digit : d.isDigit := h.digits.2 d (by simp)
    have small : d.toNat - '0'.toNat < 10 := by
      have := toNat_of_isDigit digit
      have : '0'.toNat = 48 := rfl
      omega
    rw [ofDigitChars_concat]
    cases ds with
    | nil => rw [Nat.ofDigitChars_nil, Nat.mul_zero, Nat.zero_add, Nat.toDigits_of_lt_base small,
        digitChar_toNat digit, List.nil_append]
    | cons e ds =>
      have front : Whole (e :: ds) := by
        refine ⟨⟨List.cons_ne_nil e ds, fun c hc => h.digits.2 c (List.mem_append_left _ hc)⟩, ?_⟩
        intro zero
        exact absurd (h.zero zero) (by simp)
      have digits := ih front
      -- the front is not zero, or a zero would stand before other digits
      have positive : 0 < Nat.ofDigitChars 10 (e :: ds) 0 := by
        rw [Nat.pos_iff_ne_zero]
        intro none
        rw [none, Nat.toDigits_zero] at digits
        cases digits
        exact absurd (h.zero rfl) (by simp)
      rw [← Nat.toDigits_append_toDigits (by decide) positive small, digits,
        Nat.toDigits_of_lt_base small, digitChar_toNat digit]

/-- The decimal digits of a number have no superfluous zero. -/
theorem whole_toDigits (n : Nat) : Whole (Nat.toDigits 10 n) := by
  refine ⟨⟨Nat.toDigits_ne_nil, fun d hd =>
    Nat.isDigit_of_mem_toDigits (by decide) (by decide) hd⟩, ?_⟩
  induction n using Nat.strongRecOn with
  | ind n ih =>
    rw [Nat.toDigits_eq_if (by decide)]
    split
    · rename_i small
      rintro zero
      simpa using zero
    · rename_i large
      intro zero
      rw [List.head?_append, Option.or_of_isSome (by simp [Nat.toDigits_ne_nil])] at zero
      have none := ih (n / 10) (by omega) zero
      -- the front would be the digits of zero
      have value := congrArg (Nat.ofDigitChars 10 · 0) none
      simp only [Nat.ofDigitChars_ten_toDigits] at value
      have : Nat.ofDigitChars 10 ['0'] 0 = 0 := rfl
      omega

/-! ### Numbers -/

theorem takeWhile_isDigit (digits : ∀ d ∈ ds, d.isDigit)
    (stop : ∀ c ∈ rest.head?, c.isDigit = false) :
    (ds ++ rest).takeWhile Char.isDigit = ds ∧ (ds ++ rest).dropWhile Char.isDigit = rest := by
  have none : rest.takeWhile Char.isDigit = [] ∧ rest.dropWhile Char.isDigit = rest := by
    cases rest with
    | nil => exact ⟨rfl, rfl⟩
    | cons c rest => simp [stop c rfl]
  rw [List.takeWhile_append_of_pos digits, List.dropWhile_append_of_pos digits, none.1, none.2,
    List.append_nil]
  exact ⟨rfl, rfl⟩

theorem Exponent.isExponent (h : Exponent exponent) : isExponent exponent := by
  cases h with
  | none => rfl
  | @some e sign ds letter signed digits =>
    obtain ⟨d, r, rfl, hd⟩ := digits.exists_cons
    have all := List.all_eq_true.2 digits.2
    have plus : d ≠ '+' := ne_of_isDigit hd rfl
    have minus : d ≠ '-' := ne_of_isDigit hd rfl
    rcases signed with rfl | rfl | rfl <;> simp [Json.isExponent, letter, plus, minus, all]

theorem Exponent.stops (h : Exponent exponent) : ∀ c ∈ exponent.head?, c.isDigit = false := by
  intro c hc
  cases h with
  | none => cases hc
  | some letter =>
    cases hc
    rcases letter with rfl | rfl <;> rfl

theorem Fraction.isFraction (hf : Fraction fraction) (he : Exponent exponent) :
    isFraction (fraction ++ exponent) := by
  cases hf with
  | none =>
    rw [List.nil_append]
    unfold Json.isFraction
    split
    · cases he with
      | some letter => rcases letter with h | h <;> cases h
    · exact he.isExponent
  | @some ds digits =>
    obtain ⟨taken, left⟩ := takeWhile_isDigit digits.2 he.stops
    have nonempty : ds.isEmpty = false := by simp [digits.1]
    rw [List.cons_append, Json.isFraction, taken, left, nonempty, he.isExponent]
    rfl

theorem Fraction.stops (hf : Fraction fraction) (he : Exponent exponent) :
    ∀ c ∈ (fraction ++ exponent).head?, c.isDigit = false := by
  cases hf with
  | none => exact he.stops
  | some digits =>
    intro c hc
    cases hc
    rfl

/-- How a number is read: its sign, its digits and what stands behind them. -/
theorem number?_eq (sign : minus = [] ∨ minus = ['-']) (hw : Whole whole)
    (stops : ∀ c ∈ rest.head?, c.isDigit = false) (hr : isFraction rest) :
    number? (minus ++ whole ++ rest) =
      if rest = [] ∧ ¬ (minus = ['-'] ∧ Nat.ofDigitChars 10 whole 0 = 0) then
        some (.int (if minus = ['-'] then -Nat.ofDigitChars 10 whole 0
          else Nat.ofDigitChars 10 whole 0))
      else some (.real (minus ++ whole ++ rest)) := by
  obtain ⟨taken, left⟩ := takeWhile_isDigit hw.digits.2 stops
  obtain ⟨d, r, hd, digit⟩ := hw.digits.exists_cons
  have plain : d ≠ '-' := ne_of_isDigit digit rfl
  have read : isWhole whole && isFraction rest := by rw [hw.isWhole, hr]; rfl
  rcases sign with rfl | rfl
  · unfold number?
    split
    rename_i negative unsigned signed
    split at signed
    · rename_i h
      rw [hd] at h
      cases h
      exact absurd rfl plain
    · cases signed
      simp [taken, left, read]
  · unfold number?
    simp only [List.cons_append, List.nil_append, taken, left, read, if_true]
    by_cases none : rest = [] <;> by_cases zero : Nat.ofDigitChars 10 whole 0 = 0 <;>
      simp [none, zero]

theorem writeInt_natCast (n : Nat) : writeInt n = Nat.toDigits 10 n := by
  have positive : ¬ (n : Int) < 0 := by omega
  rw [writeInt, if_neg positive, Int.natAbs_natCast]

theorem writeInt_neg {n : Nat} (h : 0 < n) : writeInt (-n) = '-' :: Nat.toDigits 10 n := by
  have negative : -(n : Int) < 0 := by omega
  rw [writeInt, if_pos negative, Int.natAbs_neg, Int.natAbs_natCast]

/-- The integers are the natural numbers, and those below zero with a minus sign. -/
theorem natCast_or_neg (i : Int) : (∃ n : Nat, i = n) ∨ ∃ n : Nat, 0 < n ∧ i = -n := by
  by_cases negative : i < 0
  · exact .inr ⟨i.natAbs, by omega, by omega⟩
  · exact .inl ⟨i.natAbs, by omega⟩

/-- An integer is read as itself. -/
theorem number?_writeInt (i : Int) : number? (writeInt i) = some (.int i) := by
  have stops : ∀ c ∈ ([] : List Char).head?, c.isDigit = false := by simp
  rcases natCast_or_neg i with ⟨n, rfl⟩ | ⟨n, positive, rfl⟩
  · have read := number?_eq (.inl rfl) (whole_toDigits n) stops rfl
    rw [Nat.ofDigitChars_ten_toDigits, List.append_nil] at read
    rw [writeInt_natCast]
    simpa using read
  · have read := number?_eq (.inr rfl) (whole_toDigits n) stops rfl
    rw [Nat.ofDigitChars_ten_toDigits, List.append_nil] at read
    rw [writeInt_neg positive]
    simpa [Nat.ne_of_gt positive] using read

/-- A number that is not the spelling of an integer is read as what it is written as. -/
theorem number?_of_number (h : Number cs) (other : ∀ i, cs ≠ writeInt i) :
    number? cs = some (.real cs) := by
  cases h with
  | @intro minus whole fraction exponent sign digits zero hf he =>
    have read := number?_eq sign ⟨digits, zero⟩ (hf.stops he) (hf.isFraction he)
    rw [← List.append_assoc] at read
    rw [read]
    split
    · -- it would be the spelling of an integer
      rename_i integer
      obtain ⟨none, notMinusZero⟩ := integer
      obtain ⟨rfl, rfl⟩ := List.append_eq_nil_iff.1 none
      have written := toDigits_ofDigitChars ⟨digits, zero⟩
      rcases sign with rfl | rfl
      · refine absurd ?_ (other (Nat.ofDigitChars 10 whole 0))
        rw [writeInt_natCast, written]
        simp
      · have positive : 0 < Nat.ofDigitChars 10 whole 0 :=
          Nat.pos_of_ne_zero fun h => notMinusZero ⟨rfl, h⟩
        refine absurd ?_ (other (-Nat.ofDigitChars 10 whole 0))
        rw [writeInt_neg positive, written]
        simp
    · rfl

/-! ### Scalars without quotation marks -/

theorem isBare_of_isDigit (h : c.isDigit) : isBare c := by
  simp [isBare, Char.isAlphanum, h]

theorem Exponent.isBare (h : Exponent exponent) : ∀ c ∈ exponent, isBare c := by
  cases h with
  | none => simp
  | @some e sign ds letter signed digits =>
    intro c hc
    simp only [List.mem_cons, List.mem_append] at hc
    rcases hc with rfl | hc | hc
    · rcases letter with rfl | rfl <;> decide
    · rcases signed with rfl | rfl | rfl
      · cases hc
      · rw [List.mem_singleton.1 hc]; decide
      · rw [List.mem_singleton.1 hc]; decide
    · exact isBare_of_isDigit (digits.2 c hc)

theorem Fraction.isBare (h : Fraction fraction) : ∀ c ∈ fraction, isBare c := by
  cases h with
  | none => simp
  | some digits =>
    refine List.forall_mem_cons.2 ⟨by decide, ?_⟩
    intro c hc
    exact isBare_of_isDigit (digits.2 c hc)

theorem isBare_sign (sign : minus = [] ∨ minus = ['-']) : ∀ c ∈ minus, isBare c := by
  rcases sign with rfl | rfl
  · simp
  · simp [isBare]

theorem Number.isBare (h : Number cs) : ∀ c ∈ cs, isBare c := by
  cases h with
  | intro sign digits zero hf he =>
    simp only [List.forall_mem_append]
    exact ⟨⟨⟨isBare_sign sign, fun c hc => isBare_of_isDigit (digits.2 c hc)⟩, hf.isBare⟩,
      he.isBare⟩

theorem number_writeInt (i : Int) : Number (writeInt i) := by
  rcases natCast_or_neg i with ⟨n, rfl⟩ | ⟨n, positive, rfl⟩
  · obtain ⟨digits, zero⟩ := whole_toDigits n
    have number := Number.intro (.inl rfl) digits zero .none .none
    rw [writeInt_natCast]
    simpa using number
  · obtain ⟨digits, zero⟩ := whole_toDigits n
    have number := Number.intro (.inr rfl) digits zero .none .none
    rw [writeInt_neg positive]
    simpa using number

theorem Number.ne_nil (h : Number cs) : cs ≠ [] := by
  cases h with
  | intro sign digits => simp [digits.1]

/-- A number is not one of the three words. -/
theorem bare?_of_number (h : Number cs) : bare? cs = number? cs := by
  obtain ⟨c, r, rfl⟩ := List.exists_cons_of_ne_nil h.ne_nil
  have first : c = '-' ∨ c.isDigit := by
    generalize whole : c :: r = cs at h
    cases h with
    | intro sign digits =>
      obtain ⟨d, ds, rfl, hd⟩ := digits.exists_cons
      rcases sign with rfl | rfl
      · cases whole
        exact .inr hd
      · cases whole
        exact .inl rfl
  have plain : c ≠ 'n' ∧ c ≠ 't' ∧ c ≠ 'f' := by
    rcases first with rfl | digit
    · decide
    · exact ⟨ne_of_isDigit digit rfl, ne_of_isDigit digit rfl, ne_of_isDigit digit rfl⟩
  simp [bare?, plain]

end MonkeyFrontEnd.Json
