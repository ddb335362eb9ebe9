/-!
# Text in columns

Padding with spaces to a least width, counted in characters, and lines put together to a text.
-/

set_option autoImplicit false

namespace MonkeyFrontEnd.Text

/-- `width` spaces. -/
def spaces (width : Nat) : String :=
  String.ofList (List.replicate width ' ')

/-- The text with spaces before it, up to `width` characters. -/
def alignRight (width : Nat) (s : String) : String :=
  spaces (width - s.length) ++ s

/-- The text with spaces behind it, up to `width` characters. -/
def alignLeft (width : Nat) (s : String) : String :=
  s ++ spaces (width - s.length)

/-- The lines as one text, each with a line feed at its end. -/
def unlines : List String → String
  | [] => ""
  | line :: lines => line ++ "\n" ++ unlines lines

@[simp] theorem unlines_nil : unlines [] = "" := rfl

@[simp] theorem unlines_cons (line : String) (lines : List String) :
    unlines (line :: lines) = line ++ "\n" ++ unlines lines := rfl

@[simp] theorem unlines_append (as bs : List String) :
    unlines (as ++ bs) = unlines as ++ unlines bs := by
  induction as with
  | nil => simp
  | cons a as ih => simp [ih, String.append_assoc]

end MonkeyFrontEnd.Text
