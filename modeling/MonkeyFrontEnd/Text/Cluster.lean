import MonkeyFrontEnd.Text.Cluster.Class

/-!
# Clusters

A cluster is what a reader takes for one character: a letter with its marks, a syllable, a flag, a
picture joined from several. `clusters` divides a text by the rules for extended grapheme clusters
of Unicode 17. It reads the text once, and keeps of what it has read (`Ending`) the last character's
class and whether a flag, a picture or a conjunct could go on. `flatten_clusters` says that nothing
is lost.
-/

set_option autoImplicit false

namespace MonkeyFrontEnd.Text

namespace Cluster

/-- What the end of a text leaves open. -/
inductive Tail
  /-- nothing -/
  | plain
  /-- a flag of which the first half is there -/
  | halfFlag
  /-- a pictograph and its marks -/
  | pictograph
  /-- the same, with a joiner behind it -/
  | joinedPictograph
  /-- a consonant and its marks, none of them a linker -/
  | consonant
  /-- the same, with a linker among them -/
  | conjunct
  deriving DecidableEq

/-- What is left open once a character of the given class follows. -/
def Tail.after : Tail → Class → Tail
  | .halfFlag, .regional => .plain
  | _, .regional => .halfFlag
  | _, .pictograph => .pictograph
  | _, .consonant => .consonant
  | .pictograph, .extend | .pictograph, .linker | .pictograph, .nonJoiner => .pictograph
  | .pictograph, .joiner => .joinedPictograph
  | .consonant, .linker | .conjunct, .linker => .conjunct
  | .consonant, .extend | .consonant, .joiner => .consonant
  | .conjunct, .extend | .conjunct, .joiner => .conjunct
  | _, _ => .plain

/-- What the end of a text says about the character behind it. -/
structure Ending where
  last : Class
  tail : Tail
  deriving DecidableEq

namespace Ending

/-- The ending of a text of one character. -/
def ofClass (k : Class) : Ending :=
  ⟨k, Tail.plain.after k⟩

/-- The ending once a character of the class `k` follows. -/
def after (e : Ending) (k : Class) : Ending :=
  ⟨k, e.tail.after k⟩

/-- A character of the class `k` belongs to the cluster at the end. -/
def joins (e : Ending) (k : Class) : Bool :=
  if e.last = .carriageReturn && k = .lineFeed then true
  else if e.last.isAlone || k.isAlone then false
  else if k.isMark || e.last = .prependedMark || e.last.inSyllable k then true
  else match k with
    | .consonant => e.tail = .conjunct
    | .pictograph => e.tail = .joinedPictograph
    | .regional => e.tail = .halfFlag
    | _ => false

end Ending

end Cluster

/-- The clusters of a text of which some was read before: it ends as `e` says, and the characters
of its last cluster are `read`, the last one first. -/
def clustersFrom (e : Cluster.Ending) (read : List Char) : List Char → List (List Char)
  | [] => [read.reverse]
  | c :: cs =>
    let k := Cluster.Class.ofChar c
    if e.joins k then clustersFrom (e.after k) (c :: read) cs
    else read.reverse :: clustersFrom (e.after k) [c] cs

/-- The clusters of a text. -/
def clusters : List Char → List (List Char)
  | [] => []
  | c :: cs => clustersFrom (.ofClass (.ofChar c)) [c] cs

theorem flatten_clustersFrom (e : Cluster.Ending) (read cs : List Char) :
    (clustersFrom e read cs).flatten = read.reverse ++ cs := by
  induction cs generalizing e read with
  | nil => simp [clustersFrom]
  | cons c cs ih =>
    simp only [clustersFrom]
    split <;> simp [ih]

/-- The clusters of a text, put together, are the text. -/
theorem flatten_clusters (cs : List Char) : (clusters cs).flatten = cs := by
  cases cs with
  | nil => rfl
  | cons c cs => simp [clusters, flatten_clustersFrom]

end MonkeyFrontEnd.Text
