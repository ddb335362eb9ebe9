import MonkeyFrontEnd.Proofs.Printing

/-!
# Tokens written down

Tokens that are spelled as their kinds say are the tokens of some text: each is written out, with a
blank behind it (`Token.exists_source`).
-/

set_option autoImplicit false

namespace MonkeyFrontEnd

open Lexeme (Legal Legible legible_cons legal_append)

namespace Lexeme

/-- The lexemes of the tokens, a blank behind each. -/
def written : List Token → List Lexeme
  | [] => []
  | t :: ts => t.lexeme :: space :: written ts

variable {ts : List Token}

theorem legible_written (h : ∀ t ∈ ts, t.Spelled) : Legible (written ts) := by
  induction ts with
  | nil => exact ⟨fun l hl => absurd hl List.not_mem_nil, .nil⟩
  | cons t ts ih =>
    rw [List.forall_mem_cons] at h
    have behind : Legible (space :: written ts) :=
      legible_cons.2 ⟨⟨' ', rfl, rfl⟩, fun m _ c _ => rfl, ih h.2⟩
    refine legible_cons.2 ⟨h.1.spells, fun m hm => ?_, behind⟩
    cases hm
    exact separate_space _

theorem legal_written (ts : List Token) : Legal (written ts) := by
  induction ts with
  | nil => exact fun l hl => absurd hl List.not_mem_nil
  | cons t ts ih =>
    have blank : Legal [space] := by simp [Legal, space]
    exact legal_append.2 ⟨legal_lexeme t, legal_append.2 ⟨blank, ih⟩⟩

theorem filterMap_token?_written (h : ∀ t ∈ ts, t.Spelled) :
    (written ts).filterMap token? = ts.map Token.erase := by
  induction ts with
  | nil => rfl
  | cons t ts ih =>
    rw [List.forall_mem_cons] at h
    have blank : space.token? = none := rfl
    rw [written, List.filterMap_cons_some h.1.token?_lexeme, List.filterMap_cons_none blank,
      ih h.2, List.map_cons]

end Lexeme

/-- Tokens that are spelled as their kinds say are those of a text without illegal characters. -/
theorem Token.exists_source {ts : List Token} (h : ∀ t ∈ ts, t.Spelled) :
    ∃ source, (Token.ofSource source).map Token.erase = ts.map Token.erase ∧
      IllegalChar.ofSource source = [] := by
  refine ⟨.ofList ((Lexeme.written ts).flatMap Lexeme.text), ?_⟩
  rw [← Lexeme.filterMap_token?_written h]
  exact (Lexeme.legible_written h).ofSource (Lexeme.legal_written ts) (by simp)

end MonkeyFrontEnd
