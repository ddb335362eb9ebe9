import MonkeyFrontEnd.Span
import MonkeyFrontEnd.Token.Kind

/-!
# Tokens

A token keeps its exact text beside its kind, so that `5` and `005` stay apart. Moving a token
(`shift`) and forgetting where it stood (`erase`) are the two maps that laws about layout are
stated with.
-/

set_option autoImplicit false

namespace MonkeyFrontEnd

/-- A token: its kind, its text and where it stands. -/
structure Token where
  kind : Token.Kind
  literal : String
  span : Span
  deriving DecidableEq

namespace Token

/-- A token that was not read from a text. -/
def synthetic (kind : Kind) (literal : String) : Token :=
  ⟨kind, literal, ⟨0, 0⟩⟩

/-- The token at the end of a text of `size` bytes. -/
def endAt (size : Nat) : Token :=
  ⟨.eof, "", ⟨size, size⟩⟩

/-- The token, moved `n` bytes towards the end. -/
def shift (n : Nat) (t : Token) : Token :=
  { t with span := t.span.shift n }

/-- The token without its place. -/
def erase (t : Token) : Token :=
  synthetic t.kind t.literal

@[simp] theorem kind_shift (n : Nat) (t : Token) : (t.shift n).kind = t.kind := rfl

@[simp] theorem literal_shift (n : Nat) (t : Token) : (t.shift n).literal = t.literal := rfl

@[simp] theorem kind_erase (t : Token) : t.erase.kind = t.kind := rfl

@[simp] theorem literal_erase (t : Token) : t.erase.literal = t.literal := rfl

end Token

end MonkeyFrontEnd
