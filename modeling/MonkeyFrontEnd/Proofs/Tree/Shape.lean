import MonkeyFrontEnd.Proofs.Tree.Decoding

/-!
# The shapes of a program's JSON

Which objects the JSON of a program consists of: the parts of each of them by name (`Shape.fields`),
and where a place admits several kinds of node, the names of these (`Shape.variants`). What stands
at a place is decoded by `Shape.read`. About objects with parts three facts are enough for
everything that follows: they are decoded by what is found for their names and nothing else
(`read_eq`, `assemble_congr`), nothing may be missing there (`isSome_of_assemble`), and the number
of parts counts in a span only (`assemble_count`, `length_of_assemble_span`). An array of all the
parts is read as the object that it stands for (`read_array`).
-/

set_option autoImplicit false

namespace MonkeyFrontEnd

open Json

/-- What a place in the JSON of a program holds. -/
inductive Shape
  | program | stmts | stmt | letBody | returnBody | exprBody
  | expr | identifier | intBody | unaryBody | binaryBody
  | token | span | kind | unaryOp | binaryOp | text | offset | int64

namespace Shape

/-- The parts of an object, by name. -/
def fields : Shape → List (String × Shape)
  | program => [("statements", stmts)]
  | letBody => [("token", token), ("name", identifier), ("value", expr)]
  | returnBody => [("token", token), ("value", expr)]
  | exprBody => [("token", token), ("expression", expr)]
  | identifier => [("token", token), ("value", text)]
  | intBody => [("token", token), ("value", int64)]
  | unaryBody => [("token", token), ("operator", unaryOp), ("right", expr)]
  | binaryBody => [("token", token), ("left", expr), ("operator", binaryOp), ("right", expr)]
  | token => [("kind", kind), ("literal", text), ("span", span)]
  | span => [("start", offset), ("end", offset)]
  | _ => []

/-- The kinds of node that a place admits, by the name that an object around the node gives. -/
def variants : Shape → List (String × Shape)
  | stmt => [("Let", letBody), ("Return", returnBody), ("Expression", exprBody)]
  | expr =>
    [("Identifier", identifier), ("IntegerLiteral", intBody), ("Prefix", unaryBody),
      ("Infix", binaryBody)]
  | _ => []

/-- What a place stands for once it is decoded. -/
def Value : Shape → Type
  | program => Program
  | stmts => List Stmt
  | stmt | letBody | returnBody | exprBody => Stmt
  | expr | intBody | unaryBody | binaryBody => Expr
  | identifier => Identifier
  | token => Token
  | span => Span
  | kind => Token.Kind
  | unaryOp => UnaryOp
  | binaryOp => BinaryOp
  | text => String
  | offset => Nat
  | int64 => Int64

/-- A body, decoded as if the object with its kind stood around it. -/
def inKind {α : Type} (decode : Json → Option α) (kind : String) (j : Json) : Option α :=
  decode (.object [(pieces kind, j)])

/-- The decoder for a place. -/
def read : (s : Shape) → Json → Option s.Value
  | program => Program.ofJson?
  | stmts => asStmts?
  | stmt => Stmt.ofJson?
  | letBody => inKind Stmt.ofJson? "Let"
  | returnBody => inKind Stmt.ofJson? "Return"
  | exprBody => inKind Stmt.ofJson? "Expression"
  | expr => Expr.ofJson?
  | identifier => Identifier.ofJson?
  | intBody => inKind Expr.ofJson? "IntegerLiteral"
  | unaryBody => inKind Expr.ofJson? "Prefix"
  | binaryBody => inKind Expr.ofJson? "Infix"
  | token => Token.ofJson?
  | span => Span.ofJson?
  | kind => asKind?
  | unaryOp => asUnaryOp?
  | binaryOp => asBinaryOp?
  | text => asText?
  | offset => asOffset?
  | int64 => asInt64?

/-- An object with parts: what is found for each name decides, and in a span how many parts there
are. -/
def assemble : (s : Shape) → (∀ f : String × Shape, Option f.2.Value) → Nat → Option s.Value
  | program, found, _ => (found ("statements", stmts)).map Program.mk
  | letBody, found, _ =>
    (found ("token", token)).bind fun t => (found ("name", identifier)).bind fun name =>
      (found ("value", expr)).bind fun value => some (.letStmt t name value)
  | returnBody, found, _ =>
    (found ("token", token)).bind fun t => (found ("value", expr)).bind fun value =>
      some (.returnStmt t value)
  | exprBody, found, _ =>
    (found ("token", token)).bind fun t => (found ("expression", expr)).bind fun e =>
      some (.exprStmt t e)
  | identifier, found, _ =>
    (found ("token", token)).bind fun t => (found ("value", text)).bind fun name => some ⟨t, name⟩
  | intBody, found, _ =>
    (found ("token", token)).bind fun t => (found ("value", int64)).bind fun value =>
      some (.int t value)
  | unaryBody, found, _ =>
    (found ("token", token)).bind fun t => (found ("operator", unaryOp)).bind fun op =>
      (found ("right", expr)).bind fun right => some (.unary t op right)
  | binaryBody, found, _ =>
    (found ("token", token)).bind fun t => (found ("left", expr)).bind fun left =>
      (found ("operator", binaryOp)).bind fun op => (found ("right", expr)).bind fun right =>
        some (.binary t left op right)
  | token, found, _ =>
    (found ("kind", kind)).bind fun kind => (found ("literal", text)).bind fun literal =>
      (found ("span", span)).bind fun span => some ⟨kind, literal, span⟩
  | span, found, count =>
    (found ("start", offset)).bind fun start => (found ("end", offset)).bind fun stop =>
      if count = 2 then some ⟨start, stop⟩ else none
  | _, _, _ => none

variable {s : Shape} {f : String × Shape} {j j' : Json} {k : List Piece}
  {ps ps' : List (String × Json)} {get get' : ∀ f : String × Shape, Option f.2.Value} {n n' : Nat}

/-! ### Objects with parts -/

/-- The value that is found for a field. -/
def lookup (ps : List (String × Json)) (f : String × Shape) : Option f.2.Value :=
  found f.2.read ps f.1

theorem inKind_stmt (kind : String) (j : Json) :
    inKind Stmt.ofJson? kind j =
      (j.parts? (Stmt.partNames kind)).bind fun ps => Stmt.ofParts? kind ps := by
  rw [inKind, Stmt.ofJson?_object, text?_pieces, Option.bind_some]

theorem inKind_expr (kind : String) (j : Json) :
    inKind Expr.ofJson? kind j =
      (j.parts? (Expr.partNames kind)).bind fun ps =>
        Expr.ofParts? kind (Expr.annotated ps) := by
  rw [inKind, Expr.ofJson?_object, text?_pieces, Option.bind_some]

/-- The names of the parts. -/
def partNames (s : Shape) : List String :=
  s.fields.map Prod.fst

theorem read_eq (struct : s.fields ≠ []) (j : Json) :
    s.read j = (j.parts? s.partNames).bind fun ps => s.assemble (lookup ps) ps.length := by
  cases s with
  | program => exact Program.ofJson?_eq j
  | letBody => exact inKind_stmt "Let" j
  | returnBody => exact inKind_stmt "Return" j
  | exprBody => exact inKind_stmt "Expression" j
  | identifier => exact Identifier.ofJson?_eq j
  | intBody =>
    refine (inKind_expr "IntegerLiteral" j).trans ?_
    simp only [Expr.ofParts?_int]
    rfl
  | unaryBody =>
    refine (inKind_expr "Prefix" j).trans ?_
    simp only [Expr.ofParts?_unary]
    rfl
  | binaryBody =>
    refine (inKind_expr "Infix" j).trans ?_
    simp only [Expr.ofParts?_binary]
    rfl
  | token => exact Token.ofJson?_eq j
  | span => exact Span.ofJson?_eq j
  | _ => exact absurd rfl struct

/-- All parts of an object may be listed in their order instead, without names. -/
theorem read_array (struct : s.fields ≠ []) (items : List Json) :
    s.read (.array items) =
      if items.length = s.partNames.length then s.read (.ofFields (s.partNames.zip items))
      else none := by
  split
  · rename_i size
    rw [read_eq struct, read_eq struct, parts?_array size]
  · rename_i size
    rw [read_eq struct, parts?, listed?, if_neg size, Option.bind_none]

/-- Nothing counts but what is found for the names of the shape. -/
theorem assemble_congr (same : ∀ f ∈ s.fields, get' f = get f) (n : Nat) :
    s.assemble get' n = s.assemble get n := by
  cases s <;> simp only [fields, List.forall_mem_cons] at same <;> simp [assemble, same]

/-- No name of the shape may be missing. -/
theorem isSome_of_assemble {v : s.Value} (h : s.assemble get n = some v) :
    ∀ f ∈ s.fields, (get f).isSome := by
  cases s <;> simp only [assemble, Option.bind_eq_some_iff] at h
  case program =>
    obtain ⟨_, statements, -⟩ := Option.map_eq_some_iff.1 h
    rw [fields, List.forall_mem_singleton, statements]
    rfl
  case letBody =>
    obtain ⟨_, token, _, name, _, value, -⟩ := h
    simp [fields, token, name, value]
  case returnBody =>
    obtain ⟨_, token, _, value, -⟩ := h
    simp [fields, token, value]
  case exprBody =>
    obtain ⟨_, token, _, expression, -⟩ := h
    simp [fields, token, expression]
  case identifier =>
    obtain ⟨_, token, _, name, -⟩ := h
    simp [fields, token, name]
  case intBody =>
    obtain ⟨_, token, _, value, -⟩ := h
    simp [fields, token, value]
  case unaryBody =>
    obtain ⟨_, token, _, op, _, right, -⟩ := h
    simp [fields, token, op, right]
  case binaryBody =>
    obtain ⟨_, token, _, left, _, op, _, right, -⟩ := h
    simp [fields, token, left, op, right]
  case token =>
    obtain ⟨_, kind, _, literal, _, span, -⟩ := h
    simp [fields, kind, literal, span]
  case span =>
    obtain ⟨_, start, _, stop, -⟩ := h
    simp [fields, start, stop]
  all_goals cases h

/-- A span has two parts. -/
theorem length_of_assemble_span {v : span.Value} (h : span.assemble get n = some v) : n = 2 := by
  simp only [assemble, Option.bind_eq_some_iff] at h
  obtain ⟨_, -, _, -, h⟩ := h
  split at h
  · assumption
  · cases h

/-- The number of parts counts in a span only. -/
theorem assemble_count (open' : s ≠ span) : s.assemble get n' = s.assemble get n := by
  cases s <;> first | rfl | exact absurd rfl open'

/-! ### Objects with the kind of a node -/

/-- The node that an object with its kind stands around is decoded alike, whatever the pieces of the
key are that spell the kind. -/
theorem ofJson?_stmt {name : String} (hk : text? k = some name) (j : Json) :
    Stmt.ofJson? (.object [(k, j)]) = inKind Stmt.ofJson? name j := by
  rw [Stmt.ofJson?_object, hk, Option.bind_some, inKind_stmt]

theorem ofJson?_expr {name : String} (hk : text? k = some name) (j : Json) :
    Expr.ofJson? (.object [(k, j)]) = inKind Expr.ofJson? name j := by
  rw [Expr.ofJson?_object, hk, Option.bind_some, inKind_expr]

theorem inKind_identifier (j : Json) :
    inKind Expr.ofJson? "Identifier" j = (Identifier.ofJson? j).map .ident := by
  rw [inKind_expr, Identifier.ofJson?_eq]
  simp only [Expr.ofParts?_ident, Option.map_bind, Function.comp_def, Option.map_some]
  rfl

/-- A node counts for what its body is decoded as. -/
theorem read_variant_congr (hf : f ∈ s.variants) (hk : text? k = some f.1)
    (same : f.2.read j' = f.2.read j) :
    s.read (.object [(k, j')]) = s.read (.object [(k, j)]) := by
  cases s with
  | stmt =>
    have both : ∀ j, read stmt (.object [(k, j)]) = inKind Stmt.ofJson? f.1 j := ofJson?_stmt hk
    rw [both, both]
    simp only [variants, List.mem_cons, List.not_mem_nil, or_false] at hf
    rcases hf with rfl | rfl | rfl <;> exact same
  | expr =>
    have both : ∀ j, read expr (.object [(k, j)]) = inKind Expr.ofJson? f.1 j := ofJson?_expr hk
    rw [both, both]
    simp only [variants, List.mem_cons, List.not_mem_nil, or_false] at hf
    rcases hf with rfl | rfl | rfl | rfl
    · exact (inKind_identifier j').trans
        ((congrArg (Option.map Expr.ident) same).trans (inKind_identifier j).symm)
    all_goals exact same
  | _ => cases hf

/-- A node whose body is not decoded is not decoded. -/
theorem read_variant_eq_none (hf : f ∈ s.variants) (hk : text? k = some f.1)
    (refused : f.2.read j = none) : s.read (.object [(k, j)]) = none := by
  cases s with
  | stmt =>
    refine (ofJson?_stmt hk j).trans ?_
    simp only [variants, List.mem_cons, List.not_mem_nil, or_false] at hf
    rcases hf with rfl | rfl | rfl <;> exact refused
  | expr =>
    refine (ofJson?_expr hk j).trans ?_
    simp only [variants, List.mem_cons, List.not_mem_nil, or_false] at hf
    rcases hf with rfl | rfl | rfl | rfl
    · exact (inKind_identifier j).trans (congrArg (Option.map Expr.ident) refused)
    all_goals exact refused
  | _ => cases hf

/-- The body of a node that is decoded is decoded. -/
theorem exists_body_of_read {v : s.Value} (hf : f ∈ s.variants) (hk : text? k = some f.1)
    (h : s.read (.object [(k, j)]) = some v) : ∃ w, f.2.read j = some w := by
  cases body : f.2.read j with
  | some w => exact ⟨w, rfl⟩
  | none =>
    rw [read_variant_eq_none hf hk body] at h
    cases h

/-- A node is an object with one key, which names its kind. -/
theorem exists_variant_of_read {v : s.Value} {ms : List (List Piece × Json)}
    (several : s.variants ≠ []) (h : s.read (.object ms) = some v) :
    ∃ k j, ms = [(k, j)] ∧ ∃ f ∈ s.variants, text? k = some f.1 := by
  cases s with
  | stmt =>
    obtain ⟨k, j, same⟩ := Stmt.eq_object_of_ofJson? h
    obtain rfl := Json.object.inj same
    refine ⟨k, j, rfl, ?_⟩
    have body := (Stmt.ofJson?_object k j).symm.trans h
    obtain ⟨kind, hk, body⟩ := Option.bind_eq_some_iff.1 body
    obtain ⟨ps, -, body⟩ := Option.bind_eq_some_iff.1 body
    rcases Stmt.kind_of_ofParts? body with rfl | rfl | rfl
    · exact ⟨("Let", letBody), by simp [variants], hk⟩
    · exact ⟨("Return", returnBody), by simp [variants], hk⟩
    · exact ⟨("Expression", exprBody), by simp [variants], hk⟩
  | expr =>
    obtain ⟨k, j, same⟩ := Expr.eq_object_of_ofJson? h
    obtain rfl := Json.object.inj same
    refine ⟨k, j, rfl, ?_⟩
    have body := (Expr.ofJson?_object k j).symm.trans h
    obtain ⟨kind, hk, body⟩ := Option.bind_eq_some_iff.1 body
    obtain ⟨ps, -, body⟩ := Option.bind_eq_some_iff.1 body
    rcases Expr.kind_of_ofParts? body with rfl | rfl | rfl | rfl
    · exact ⟨("Identifier", identifier), by simp [variants], hk⟩
    · exact ⟨("IntegerLiteral", intBody), by simp [variants], hk⟩
    · exact ⟨("Prefix", unaryBody), by simp [variants], hk⟩
    · exact ⟨("Infix", binaryBody), by simp [variants], hk⟩
  | _ => exact absurd rfl several

end Shape

end MonkeyFrontEnd
