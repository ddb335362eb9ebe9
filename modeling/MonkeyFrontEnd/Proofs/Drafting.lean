import Mathlib.Data.List.Nodup
import MonkeyFrontEnd.Draft

/-!
# Drafts and the nodes that they become

A draft is opened with its token and what is fixed of the node (`Draft.Opening`), and children are
attached one after the other. What it comes to depends on which child went into which slot, and not
on the order (`Opening.filled`). So everything about it can be said of the node that its constructor
makes of the same parts: the text of the draft is that of the node with blanks in the empty slots,
and finishing the draft makes that node, or names the first slot that is empty
(`Opening.attach_refines`).
-/

set_option autoImplicit false

namespace MonkeyFrontEnd

/-- An expression without text. -/
def Expr.blank : Expr :=
  .ident (.ofToken (.synthetic .ident ""))

namespace Draft

/-- The slots of a construction, in the order in which an empty one is reported. -/
def Construct.slots : Construct → List Slot
  | .letStmt | .returnStmt => [.value]
  | .exprStmt => [.expression]
  | .unary => [.right]
  | .binary => [.left, .right]

/-- What a draft is opened with: the token that introduces the node, and what is fixed of it. -/
inductive Opening
  | letStmt (token : Token) (name : Identifier)
  | returnStmt (token : Token)
  | exprStmt (token : Token)
  | unary (token : Token) (op : UnaryOp)
  | binary (token : Token) (op : BinaryOp)

/-- Attaches children one after the other. -/
def attachAll (d : Draft) (children : List (Slot × Expr)) : Except AttachError Draft :=
  children.foldlM (fun d child => d.attach child.1 child.2) d

namespace Opening

/-- The token that introduces the node. -/
def token : Opening → Token
  | .letStmt t _ => t
  | .returnStmt t => t
  | .exprStmt t => t
  | .unary t _ => t
  | .binary t _ => t

/-- Which construction is opened. -/
def construct : Opening → Construct
  | .letStmt .. => .letStmt
  | .returnStmt .. => .returnStmt
  | .exprStmt .. => .exprStmt
  | .unary .. => .unary
  | .binary .. => .binary

/-- The draft with the given children in its slots. -/
def filled (child : Slot → Option Expr) : Opening → Draft
  | .letStmt t name => .letStmt t name (child .value)
  | .returnStmt t => .returnStmt t (child .value)
  | .exprStmt t => .exprStmt t (child .expression)
  | .unary t op => .unary t op (child .right)
  | .binary t op => .binary t op (child .left) (child .right)

/-- The draft before any child is attached. -/
def draft (o : Opening) : Draft :=
  o.filled fun _ => none

/-- The finished node with the given children. -/
def node (child : Slot → Expr) : Opening → Node
  | .letStmt t name => .stmt (.letStmt t name (child .value))
  | .returnStmt t => .stmt (.returnStmt t (child .value))
  | .exprStmt t => .stmt (.exprStmt t (child .expression))
  | .unary t op => .expr (.unary t op (child .right))
  | .binary t op => .expr (.binary t (child .left) op (child .right))

end Opening

/-- The child for a slot. -/
def childFor (children : List (Slot × Expr)) (slot : Slot) : Option Expr :=
  children.lookup slot

/-- The child for a slot, and the expression without text if there is none. -/
def childOrBlank (children : List (Slot × Expr)) (slot : Slot) : Expr :=
  (childFor children slot).getD .blank

/-- The first slot that none of the children is for. -/
def firstEmpty (c : Construct) (children : List (Slot × Expr)) : Option Slot :=
  c.slots.find? fun slot => slot ∉ children.map Prod.fst

variable {o : Opening} {slot : Slot} {e : Expr} {child : Slot → Option Expr}
  {children others gone : List (Slot × Expr)}

/-! ### Children by their slots -/

theorem childFor_eq_none_iff : childFor children slot = none ↔ slot ∉ children.map Prod.fst := by
  simp only [childFor, List.lookup_eq_none_iff, bne_iff_ne, List.mem_map, not_exists, not_and]
  exact forall₂_congr fun _ _ => ne_comm

theorem childFor_append (gone children : List (Slot × Expr)) (slot : Slot) :
    childFor (gone ++ children) slot = (childFor gone slot).or (childFor children slot) :=
  List.lookup_append

theorem childFor_eq_some_iff (once : (children.map Prod.fst).Nodup) :
    childFor children slot = some e ↔ (slot, e) ∈ children := by
  constructor
  · intro found
    obtain ⟨before, behind, rfl, -⟩ := List.lookup_eq_some_iff.1 found
    simp
  · intro mem
    obtain ⟨before, behind, rfl⟩ := List.append_of_mem mem
    rw [List.map_append, List.map_cons, List.nodup_middle, List.nodup_cons] at once
    have absent : childFor before slot = none :=
      childFor_eq_none_iff.2 fun h => once.1 (List.mem_append_left _ h)
    rw [childFor_append, absent, childFor, List.lookup_cons_self]
    rfl

/-- Where no slot is used twice, the order of the children does not matter. -/
theorem childFor_perm (perm : others.Perm children) (once : (children.map Prod.fst).Nodup) :
    childFor others = childFor children := by
  have once' : (others.map Prod.fst).Nodup := (perm.map Prod.fst).nodup_iff.2 once
  funext slot
  apply Option.ext
  intro e
  rw [childFor_eq_some_iff once, childFor_eq_some_iff once', perm.mem_iff]

/-! ### Drafts by their children -/

/-- Attaching looks at the slot of the child, and changes nothing else. -/
theorem Opening.attach_filled (own : slot ∈ o.construct.slots) (e : Expr) :
    (o.filled child).attach slot e =
      match child slot with
      | none => .ok (o.filled fun s => (child s).or (childFor [(slot, e)] s))
      | some _ => .error (.occupied slot) := by
  cases o
  all_goals
    simp only [construct, Construct.slots, List.mem_cons, List.not_mem_nil, or_false] at own
  case binary t op =>
    rcases own with rfl | rfl
    all_goals
      simp only [filled, attach, slot?]
      cases child .left <;> cases child .right <;> rfl
  all_goals
    subst own
    simp only [filled, attach, slot?]
    split <;> simp_all [fill, childFor]

/-- Finishing makes the node if every slot is full, and otherwise names the first empty one. -/
theorem Opening.finish_filled (o : Opening) (child : Slot → Option Expr) :
    (o.filled child).finish =
      match o.construct.slots.find? fun slot => child slot = none with
      | none => .ok (o.node fun slot => (child slot).getD .blank)
      | some slot => .error ⟨o.construct, slot, o.token.span⟩ := by
  cases o with
  | binary t op =>
    cases hl : child .left <;> cases hr : child .right <;>
      simp [filled, finish, construct, Construct.slots, node, token, hl, hr]
  | letStmt t name =>
    cases hv : child .value <;>
      simp [filled, finish, construct, Construct.slots, node, token, hv]
  | returnStmt t =>
    cases hv : child .value <;>
      simp [filled, finish, construct, Construct.slots, node, token, hv]
  | exprStmt t =>
    cases hv : child .expression <;>
      simp [filled, finish, construct, Construct.slots, node, token, hv]
  | unary t op =>
    cases hv : child .right <;>
      simp [filled, finish, construct, Construct.slots, node, token, hv]

theorem childText_eq (child : Option Expr) : childText child = (child.getD .blank).text := by
  cases child <;> rfl

/-- A draft is written like the node with blanks in the empty slots. -/
theorem Opening.text_filled (o : Opening) (child : Slot → Option Expr) :
    (o.filled child).text = (o.node fun slot => (child slot).getD .blank).text := by
  cases o <;> simp only [filled, Draft.text, childText_eq, node] <;> rfl

theorem Opening.token_filled (o : Opening) (child : Slot → Option Expr) :
    (o.filled child).token = o.token := by
  cases o <;> rfl

/-! ### Many children -/

theorem attachAll_append (d : Draft) (gone children : List (Slot × Expr)) :
    d.attachAll (gone ++ children) = (d.attachAll gone).bind (·.attachAll children) :=
  List.foldlM_append

theorem attachAll_cons (d : Draft) (child : Slot × Expr) (children : List (Slot × Expr)) :
    d.attachAll (child :: children) = (d.attach child.1 child.2).bind (·.attachAll children) :=
  List.foldlM_cons

/-- A draft to which some children have been attached takes more, if no slot is used twice. -/
theorem Opening.attachAll_filled (gone : List (Slot × Expr))
    (own : ∀ child ∈ children, child.1 ∈ o.construct.slots)
    (once : ((gone ++ children).map Prod.fst).Nodup) :
    (o.filled (childFor gone)).attachAll children =
      .ok (o.filled (childFor (gone ++ children))) := by
  induction children generalizing gone with
  | nil => rw [List.append_nil]; rfl
  | cons child children ih =>
    rw [List.forall_mem_cons] at own
    have split : gone ++ child :: children = gone ++ [child] ++ children := by simp
    have free : childFor gone child.1 = none := by
      rw [List.map_append, List.map_cons, List.nodup_middle, List.nodup_cons] at once
      exact childFor_eq_none_iff.2 fun h => once.1 (List.mem_append_left _ h)
    rw [split] at once
    have taken : (fun s => (childFor gone s).or (childFor [(child.1, child.2)] s)) =
        childFor (gone ++ [child]) := funext fun s => (childFor_append _ _ s).symm
    rw [attachAll_cons, attach_filled own.1, free, taken, split]
    exact ih _ own.2 once

theorem Opening.attachAll_draft (own : ∀ child ∈ children, child.1 ∈ o.construct.slots)
    (once : (children.map Prod.fst).Nodup) :
    o.draft.attachAll children = .ok (o.filled (childFor children)) :=
  attachAll_filled [] own once

/-- The first child for a slot that is full is refused, whatever comes behind it. -/
theorem Opening.attachAll_occupied {before behind : List (Slot × Expr)}
    (own : ∀ child ∈ before ++ (slot, e) :: behind, child.1 ∈ o.construct.slots)
    (once : (before.map Prod.fst).Nodup) (full : slot ∈ before.map Prod.fst) :
    o.draft.attachAll (before ++ (slot, e) :: behind) = .error (.occupied slot) := by
  rw [List.forall_mem_append, List.forall_mem_cons] at own
  obtain ⟨e', he'⟩ : ∃ e', childFor before slot = some e' :=
    Option.ne_none_iff_exists'.1 fun none => childFor_eq_none_iff.1 none full
  have taken : o.draft.attachAll before = .ok (o.filled (childFor before)) :=
    attachAll_draft own.1 once
  have refused : (o.filled (childFor before)).attach slot e = .error (.occupied slot) := by
    rw [attach_filled own.2.1, he']
  rw [attachAll_append, taken]
  change (o.filled (childFor before)).attachAll ((slot, e) :: behind) = _
  rw [attachAll_cons, refused]
  rfl

/-! ### Refinement -/

/-- What is said of a child for a slot that is full. -/
def Slot.occupiedMessage : Slot → String
  | .value => "value attached twice"
  | .expression => "expression attached twice"
  | .left => "left operand attached twice"
  | .right => "right operand attached twice"

/-- What the message about an empty slot calls the node and the slot. -/
def Construct.missing : Construct → Slot → String × String
  | .letStmt, _ => ("let statement", "value")
  | .returnStmt, _ => ("return statement", "value")
  | .exprStmt, _ => ("expression statement", "expression")
  | .unary, _ => ("prefix expression", "operand")
  | .binary, .left => ("infix expression", "left operand")
  | .binary, _ => ("infix expression", "right operand")

theorem Construct.missing_eq {c : Construct} {slot : Slot} (own : slot ∈ c.slots) (span : Span) :
    c.missing slot = (c.describe, Incomplete.slotName ⟨c, slot, span⟩) := by
  cases c <;> cases slot <;> first | rfl | exact absurd own (by decide)

/-- The draft `d` stands for the node that its constructor makes of the same parts: of the token and
the fixed parts that it was opened with, and of the children attached since. -/
structure Refines (o : Opening) (children : List (Slot × Expr)) (d : Draft) : Prop where
  token_eq : d.token = o.token
  text_eq : d.text = (o.node (childOrBlank children)).text
  finish_eq : d.finish =
    match firstEmpty o.construct children with
    | none => .ok (o.node (childOrBlank children))
    | some slot => .error ⟨o.construct, slot, o.token.span⟩
  finished_text : ∀ n, d.finish = .ok n → n.text = d.text
  incomplete_names : ∀ e, d.finish = .error e →
    (e.construct.describe, e.slotName) = o.construct.missing e.slot

theorem Opening.refines_filled (o : Opening) (children : List (Slot × Expr)) :
    Refines o children (o.filled (childFor children)) := by
  have empty : (o.construct.slots.find? fun slot => childFor children slot = none) =
      firstEmpty o.construct children := by
    simp only [firstEmpty, childFor_eq_none_iff]
  have finish := o.finish_filled (childFor children)
  rw [empty] at finish
  refine ⟨o.token_filled _, o.text_filled _, finish, ?_, ?_⟩
  · intro n hn
    rw [hn] at finish
    split at finish
    · cases finish
      exact (o.text_filled _).symm
    · cases finish
  · intro e he
    rw [he] at finish
    split at finish
    · cases finish
    · rename_i slot found
      cases finish
      exact (Construct.missing_eq (List.mem_of_find?_eq_some found) _).symm

/-- **Drafts refine their nodes.** Children are attached in any order, each to a slot that the
construction has. The first one for a slot that is full is refused, with the message of that slot,
and nothing else is. If no slot is used twice, all orders lead to the same draft; it is written like
the node with nothing in the place of an absent child, and finishing it makes the node, with the
same text, or names the first empty slot and the place of the token that the draft was opened
with. -/
theorem Opening.attach_refines (o : Opening) (children : List (Slot × Expr))
    (own : ∀ child ∈ children, child.1 ∈ o.construct.slots) :
    (∀ before slot e behind, children = before ++ (slot, e) :: behind →
      (before.map Prod.fst).Nodup → slot ∈ before.map Prod.fst →
      ∃ refusal, o.draft.attachAll children = .error refusal ∧
        refusal = .occupied slot ∧ refusal.message = slot.occupiedMessage) ∧
    ((children.map Prod.fst).Nodup → ∃ d, Refines o children d ∧
      ∀ others, others.Perm children → o.draft.attachAll others = .ok d) := by
  constructor
  · rintro before slot e behind rfl once full
    refine ⟨_, attachAll_occupied own once full, rfl, ?_⟩
    cases slot <;> decide
  · intro once
    refine ⟨_, o.refines_filled children, ?_⟩
    intro others perm
    have own' : ∀ child ∈ others, child.1 ∈ o.construct.slots :=
      fun child h => own child (perm.mem_iff.1 h)
    rw [attachAll_draft own' ((perm.map Prod.fst).nodup_iff.2 once),
      childFor_perm perm once]

/-- A sum that is yet to get its operands. -/
def Opening.sum : Opening :=
  .binary ⟨.plus, "+", ⟨2, 3⟩⟩ .add

/-- A name as an operand. -/
def operandNamed (name : String) : Expr :=
  .ident (.ofToken (.synthetic .ident name))

/-- The right operand is attached before the left one, and then once more. -/
theorem Opening.attach_refines_sum :
    (∀ child ∈ [(Slot.right, operandNamed "y"), (.left, operandNamed "x"),
      (.right, operandNamed "z")], child.1 ∈ sum.construct.slots) ∧
    sum.draft.attachAll [(.right, operandNamed "y"), (.left, operandNamed "x"),
      (.right, operandNamed "z")] = .error (.occupied .right) ∧
    ∃ d, sum.draft.attachAll [(.right, operandNamed "y")] = .ok d ∧
      d.finish = .error ⟨.binary, .left, ⟨2, 3⟩⟩ ∧ d.text = "( + y)" := by
  have own : ∀ child ∈ [(Slot.right, operandNamed "y"), (.left, operandNamed "x"),
      (.right, operandNamed "z")], child.1 ∈ sum.construct.slots := by decide
  obtain ⟨refusal, refused, same, -⟩ := (sum.attach_refines _ own).1
    [(.right, operandNamed "y"), (.left, operandNamed "x")] .right (operandNamed "z") [] rfl
    (by decide) (by decide)
  obtain ⟨d, refines, attached⟩ :=
    (sum.attach_refines [(.right, operandNamed "y")] (by decide)).2 (by decide)
  refine ⟨own, same ▸ refused, d, attached _ (.refl _), ?_, ?_⟩
  · rw [refines.finish_eq]
    rfl
  · rw [refines.text_eq]
    decide

end Draft

end MonkeyFrontEnd
