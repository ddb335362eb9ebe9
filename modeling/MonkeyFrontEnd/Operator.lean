import MonkeyFrontEnd.Token.Kind

/-!
# Operators

The two unary and the eight binary operators, the tokens that stand for them, and how strongly the
binary ones hold their operands. `Level` lists the strengths from loose to tight; a unary operator
binds tighter than every binary one.
-/

set_option autoImplicit false

namespace MonkeyFrontEnd

/-- An operator that stands before its operand. -/
inductive UnaryOp
  | neg | not
  deriving DecidableEq

/-- An operator that stands between its operands. -/
inductive BinaryOp
  | add | sub | mul | div | lt | gt | eq | ne
  deriving DecidableEq

/-- Strengths with which operators hold their operands, the loosest first. -/
inductive Level
  | lowest | equality | comparison | sum | product | unary
  deriving DecidableEq

namespace Level

/-- The level's place in the order. -/
def rank : Level → Nat
  | lowest => 0
  | equality => 1
  | comparison => 2
  | sum => 3
  | product => 4
  | unary => 5

instance : LE Level := ⟨fun a b => a.rank ≤ b.rank⟩

instance : LT Level := ⟨fun a b => a.rank < b.rank⟩

instance (a b : Level) : Decidable (a ≤ b) := inferInstanceAs (Decidable (a.rank ≤ b.rank))

instance (a b : Level) : Decidable (a < b) := inferInstanceAs (Decidable (a.rank < b.rank))

theorem le_iff {a b : Level} : a ≤ b ↔ a.rank ≤ b.rank := Iff.rfl

theorem lt_iff {a b : Level} : a < b ↔ a.rank < b.rank := Iff.rfl

end Level

namespace UnaryOp

/-- Every unary operator. -/
def all : List UnaryOp :=
  [neg, not]

/-- How the operator is written. -/
def sign : UnaryOp → String
  | neg => "-"
  | not => "!"

/-- The operator's own name, as encoded programs write it. -/
def name : UnaryOp → String
  | neg => "Neg"
  | not => "Not"

/-- The operator of a given name. -/
def ofName? (s : String) : Option UnaryOp :=
  all.find? fun op => op.name = s

@[simp] theorem ofName?_name (op : UnaryOp) : ofName? op.name = some op := by
  cases op <;> decide

/-- The operator that a token of the given kind stands for before an operand. -/
def ofKind? : Token.Kind → Option UnaryOp
  | .minus => some neg
  | .bang => some not
  | _ => none

end UnaryOp

namespace BinaryOp

/-- Every binary operator. -/
def all : List BinaryOp :=
  [add, sub, mul, div, lt, gt, eq, ne]

/-- How the operator is written. -/
def sign : BinaryOp → String
  | add => "+"
  | sub => "-"
  | mul => "*"
  | div => "/"
  | lt => "<"
  | gt => ">"
  | eq => "=="
  | ne => "!="

/-- The operator's own name, as encoded programs write it. -/
def name : BinaryOp → String
  | add => "Add"
  | sub => "Sub"
  | mul => "Mul"
  | div => "Div"
  | lt => "Lt"
  | gt => "Gt"
  | eq => "Eq"
  | ne => "Ne"

/-- The operator of a given name. -/
def ofName? (s : String) : Option BinaryOp :=
  all.find? fun op => op.name = s

@[simp] theorem ofName?_name (op : BinaryOp) : ofName? op.name = some op := by
  cases op <;> decide

/-- The operator that a token of the given kind stands for between operands. -/
def ofKind? : Token.Kind → Option BinaryOp
  | .plus => some add
  | .minus => some sub
  | .asterisk => some mul
  | .slash => some div
  | .lt => some lt
  | .gt => some gt
  | .eq => some eq
  | .notEq => some ne
  | _ => none

/-- How strongly the operator holds its operands. -/
def level : BinaryOp → Level
  | eq | ne => .equality
  | lt | gt => .comparison
  | add | sub => .sum
  | mul | div => .product

end BinaryOp

end MonkeyFrontEnd
