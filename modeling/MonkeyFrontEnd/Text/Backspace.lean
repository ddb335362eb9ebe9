import MonkeyFrontEnd.Text.Bytes
import MonkeyFrontEnd.Text.Cluster

/-!
# Backspaces in a line

A backspace that arrives as part of a line takes back the cluster before it and leaves no trace
itself. What is remembered of a cluster is its size in bytes, in one byte: of a cluster of 256 bytes
or more only the remainder is taken back, from its end, and the line cannot be edited at all if that
would leave a part of a character.
-/

set_option autoImplicit false

namespace MonkeyFrontEnd.Text

/-- The text without its last `n` bytes, unless they begin inside a character; the last character
of a text stands first. -/
def dropBytes : Nat → List Char → Option (List Char)
  | 0, cs => some cs
  | _ + 1, [] => none
  | n + 1, c :: cs => if c.utf8Size ≤ n + 1 then dropBytes (n + 1 - c.utf8Size) cs else none

/-- A line as far as it was edited: its characters, the last one first, and the remembered sizes of
its clusters, the last one first. -/
structure EditedLine where
  chars : List Char
  sizes : List Nat
  deriving DecidableEq

namespace EditedLine

/-- A line before its first character. -/
def empty : EditedLine :=
  ⟨[], []⟩

/-- The line with a cluster added. -/
def add (l : EditedLine) (cluster : List Char) : EditedLine :=
  ⟨cluster.reverse ++ l.chars, byteCount cluster % 256 :: l.sizes⟩

/-- The line with its last cluster taken back. -/
def takeBack (l : EditedLine) : Option EditedLine :=
  match l.sizes with
  | [] => some l
  | n :: sizes => (dropBytes n l.chars).map fun chars => ⟨chars, sizes⟩

/-- Reads a cluster. -/
def read (l : EditedLine) (cluster : List Char) : Option EditedLine :=
  if cluster = ['\x08'] then l.takeBack else some (l.add cluster)

/-- The text of the line. -/
def text (l : EditedLine) : String :=
  String.ofList l.chars.reverse

theorem foldlM_read (l : EditedLine) (clusters : List (List Char)) (h : ['\x08'] ∉ clusters) :
    ∃ sizes, clusters.foldlM read l = some ⟨clusters.flatten.reverse ++ l.chars, sizes⟩ := by
  induction clusters generalizing l with
  | nil => exact ⟨l.sizes, rfl⟩
  | cons x xs ih =>
    simp only [List.mem_cons, not_or] at h
    obtain ⟨sizes, eq⟩ := ih (l.add x) h.2
    refine ⟨sizes, ?_⟩
    simp only [List.foldlM_cons, read, if_neg (Ne.symm h.1), Option.bind_eq_bind, Option.bind_some]
    rw [eq]
    simp [add]

end EditedLine

/-- A line once its backspaces have taken effect; nothing if it cannot be edited. -/
def applyBackspaces? (line : String) : Option String :=
  ((clusters line.toList).foldlM EditedLine.read .empty).map EditedLine.text

/-- A line without backspaces stays as it is. -/
theorem applyBackspaces?_eq {line : String} (h : '\x08' ∉ line.toList) :
    applyBackspaces? line = some line := by
  have none_alone : ['\x08'] ∉ clusters line.toList := by
    intro mem
    apply h
    rw [← flatten_clusters line.toList]
    exact List.mem_flatten_of_mem mem (List.mem_singleton_self _)
  obtain ⟨sizes, eq⟩ := EditedLine.foldlM_read .empty _ none_alone
  rw [applyBackspaces?, eq]
  simp [EditedLine.text, EditedLine.empty, flatten_clusters, String.ofList_toList]

end MonkeyFrontEnd.Text
