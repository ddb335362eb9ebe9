import MonkeyFrontEnd.Proofs.Json.Parts

/-!
# What decoding a node looks up

Each decoder as what it looks up in the parts of a value, one name after the other (`Json.found`). A
node that is wrapped in an object with its kind is decoded by the text of that one key; what stands
behind the key has parts again. Nothing else about the value enters, except that a span counts its
parts.
-/

set_option autoImplicit false

namespace MonkeyFrontEnd

open Json

variable {j : Json} {k : List Piece} {ps : List (String × Json)} {name : String}

/-- The part with the given name, read. -/
def Json.found {α : Type} (read : Json → Option α) (ps : List (String × Json)) (name : String) :
    Option α :=
  (part? ps name).bind read

theorem Json.found_bind {α β : Type} {read : Json → Option α} {f : α → Option β} :
    (part? ps name >>= fun j => read j >>= f) = (found read ps name).bind f := by
  unfold found
  cases part? ps name <;> rfl

theorem Json.found_eq_some_iff {α : Type} {read : Json → Option α} {v : α} :
    found read ps name = some v ↔ ∃ j, part? ps name = some j ∧ read j = some v :=
  Option.bind_eq_some_iff

/-- A part that names something. -/
theorem Json.named_bind {α β : Type} (ofName? : String → Option α) (j : Json) (f : α → Option β) :
    (j.asName? >>= fun s => ofName? s >>= f) = (j.asName?.bind ofName? >>= f) :=
  (Option.bind_assoc j.asName? ofName? f).symm

/-! ### Nodes with fixed parts -/

theorem Span.ofJson?_eq (j : Json) : Span.ofJson? j =
    (j.parts? ["start", "end"]).bind fun ps => (found asOffset? ps "start").bind fun start =>
      (found asOffset? ps "end").bind fun stop =>
        if ps.length = 2 then some ⟨start, stop⟩ else none := by
  unfold Span.ofJson?
  simp only [found_bind]
  rfl

/-- The kind of token that a value names. -/
def Json.asKind? (j : Json) : Option Token.Kind :=
  j.asName?.bind Token.Kind.ofName?

theorem Token.ofJson?_eq (j : Json) : Token.ofJson? j =
    (j.parts? ["kind", "literal", "span"]).bind fun ps =>
      (found asKind? ps "kind").bind fun kind => (found asText? ps "literal").bind fun literal =>
        (found Span.ofJson? ps "span").bind fun span => some ⟨kind, literal, span⟩ := by
  have kind : ∀ (j : Json) (f : Token.Kind → Option Token),
      (j.asName? >>= fun s => Token.Kind.ofName? s >>= f) = (asKind? j >>= f) :=
    named_bind Token.Kind.ofName?
  unfold Token.ofJson?
  simp only [kind, found_bind]
  rfl

theorem Identifier.ofJson?_eq (j : Json) : Identifier.ofJson? j =
    (j.parts? ["token", "value"]).bind fun ps => (found Token.ofJson? ps "token").bind fun token =>
      (found asText? ps "value").bind fun name => some ⟨token, name⟩ := by
  unfold Identifier.ofJson?
  simp only [found_bind]
  rfl

/-! ### Expressions -/

/-- The unary operator that a value names. -/
def Json.asUnaryOp? (j : Json) : Option UnaryOp :=
  j.asName?.bind UnaryOp.ofName?

/-- The binary operator that a value names. -/
def Json.asBinaryOp? (j : Json) : Option BinaryOp :=
  j.asName?.bind BinaryOp.ofName?

namespace Expr

theorem readParts_eq_map (ms : List (List Piece × Json)) :
    readParts ms = ms.map fun m => (m.1, m.2, ofJson? m.2) := by
  induction ms with
  | nil => rfl
  | cons m ms ih => rw [readParts, ih, List.map_cons]

theorem readItems_eq_map (items : List Json) :
    readItems items = items.map fun j => (j, ofJson? j) := by
  induction items with
  | nil => rfl
  | cons j items ih => rw [readItems, ih, List.map_cons]

/-- Nothing but an object with one key stands for an expression. -/
theorem eq_object_of_ofJson? {e : Expr} (h : ofJson? j = some e) :
    ∃ k body, j = .object [(k, body)] := by
  unfold ofJson? at h
  split at h
  · exact ⟨_, _, rfl⟩
  · exact ⟨_, _, rfl⟩
  · cases h

/-- Parts, each with the expression that it stands for. -/
def annotated (ps : List (String × Json)) : List (String × Json × Option Expr) :=
  ps.map fun p => (p.1, p.2, ofJson? p.2)

/-- An object around a body is decoded by the text of its key and the parts of the body. -/
theorem ofJson?_object (k : List Piece) (j : Json) : ofJson? (.object [(k, j)]) =
    (text? k).bind fun kind =>
      (j.parts? (partNames kind)).bind fun ps => ofParts? kind (annotated ps) := by
  cases j with
  | object ms =>
    rw [ofJson?, readParts_eq_map, keyed?_map (fun j => (j, ofJson? j))]
    simp only [parts?]
    cases text? k <;> cases keyed? ms <;> rfl
  | array items =>
    rw [ofJson?, readItems_eq_map]
    refine congrArg (text? k).bind (funext fun kind => ?_)
    rw [listed?_map (fun j => (j, ofJson? j)), parts?]
    cases listed? (partNames kind) items <;> rfl
  | _ => cases text? k <;> rfl

/-- An expression that was put together from a kind and named parts. -/
theorem ofJson?_ofFields (kind : String) (ps : List (String × Json)) :
    ofJson? (.ofFields [(kind, .ofFields ps)]) = ofParts? kind (annotated ps) := by
  rw [ofFields, List.map_singleton, ofJson?_object, text?_pieces, Option.bind_some, parts?_ofFields,
    Option.bind_some]

theorem found_annotated {α β : Type} {read : Json → Option α} {f : α → Option β} :
    (part? (annotated ps) name >>= fun p => read p.1 >>= f) = (found read ps name).bind f := by
  unfold found annotated
  rw [part?_map (fun j => (j, ofJson? j))]
  cases part? ps name <;> rfl

theorem found_annotated_self {β : Type} {f : Expr → Option β} :
    (part? (annotated ps) name >>= fun p => p.2 >>= f) = (found ofJson? ps name).bind f := by
  unfold found annotated
  rw [part?_map (fun j => (j, ofJson? j))]
  cases part? ps name <;> rfl

theorem ofParts?_ident : ofParts? "Identifier" (annotated ps) =
    (found Token.ofJson? ps "token").bind fun token =>
      (found asText? ps "value").bind fun name => some (.ident ⟨token, name⟩) := by
  unfold ofParts?
  simp only [found_annotated]
  rfl

theorem ofParts?_int : ofParts? "IntegerLiteral" (annotated ps) =
    (found Token.ofJson? ps "token").bind fun token =>
      (found asInt64? ps "value").bind fun value => some (.int token value) := by
  unfold ofParts?
  simp only [found_annotated]
  rfl

theorem ofParts?_unary : ofParts? "Prefix" (annotated ps) =
    (found Token.ofJson? ps "token").bind fun token =>
      (found asUnaryOp? ps "operator").bind fun op =>
        (found ofJson? ps "right").bind fun right => some (.unary token op right) := by
  have op : ∀ (j : Json) (f : UnaryOp → Option Expr),
      (j.asName? >>= fun s => UnaryOp.ofName? s >>= f) = (asUnaryOp? j >>= f) :=
    named_bind UnaryOp.ofName?
  unfold ofParts?
  simp only [op, found_annotated, found_annotated_self]
  rfl

theorem ofParts?_binary : ofParts? "Infix" (annotated ps) =
    (found Token.ofJson? ps "token").bind fun token =>
      (found ofJson? ps "left").bind fun left =>
        (found asBinaryOp? ps "operator").bind fun op =>
          (found ofJson? ps "right").bind fun right => some (.binary token left op right) := by
  have op : ∀ (j : Json) (f : BinaryOp → Option Expr),
      (j.asName? >>= fun s => BinaryOp.ofName? s >>= f) = (asBinaryOp? j >>= f) :=
    named_bind BinaryOp.ofName?
  unfold ofParts?
  simp only [op, found_annotated, found_annotated_self]
  rfl

/-- Expressions are of four kinds. -/
theorem kind_of_ofParts? {kind : String} {parts : List (String × Json × Option Expr)} {e : Expr}
    (h : ofParts? kind parts = some e) :
    kind = "Identifier" ∨ kind = "IntegerLiteral" ∨ kind = "Prefix" ∨ kind = "Infix" := by
  obtain ⟨j, -, h⟩ := Option.bind_eq_some_iff.1 h
  obtain ⟨token, -, h⟩ := Option.bind_eq_some_iff.1 h
  split at h
  · exact .inl rfl
  · exact .inr (.inl rfl)
  · exact .inr (.inr (.inl rfl))
  · exact .inr (.inr (.inr rfl))
  · cases h

end Expr

/-! ### Statements and programs -/

namespace Stmt

/-- The statement of the given kind that has the given parts. -/
def ofParts? (kind : String) (ps : List (String × Json)) : Option Stmt :=
  (found Token.ofJson? ps "token").bind fun token =>
    match kind with
    | "Let" =>
      (found Identifier.ofJson? ps "name").bind fun name =>
        (found Expr.ofJson? ps "value").bind fun value => some (.letStmt token name value)
    | "Return" =>
      (found Expr.ofJson? ps "value").bind fun value => some (.returnStmt token value)
    | "Expression" =>
      (found Expr.ofJson? ps "expression").bind fun e => some (.exprStmt token e)
    | _ => none

theorem ofJson?_object (k : List Piece) (j : Json) : ofJson? (.object [(k, j)]) =
    (text? k).bind fun kind => (j.parts? (partNames kind)).bind fun ps => ofParts? kind ps := by
  unfold ofJson? ofParts?
  simp only [found_bind]
  rfl

theorem ofParts?_let : ofParts? "Let" ps =
    (found Token.ofJson? ps "token").bind fun token =>
      (found Identifier.ofJson? ps "name").bind fun name =>
        (found Expr.ofJson? ps "value").bind fun value => some (.letStmt token name value) :=
  rfl

theorem ofParts?_return : ofParts? "Return" ps =
    (found Token.ofJson? ps "token").bind fun token =>
      (found Expr.ofJson? ps "value").bind fun value => some (.returnStmt token value) :=
  rfl

theorem ofParts?_expr : ofParts? "Expression" ps =
    (found Token.ofJson? ps "token").bind fun token =>
      (found Expr.ofJson? ps "expression").bind fun e => some (.exprStmt token e) :=
  rfl

/-- A statement that was put together from a kind and named parts. -/
theorem ofJson?_ofFields (kind : String) (ps : List (String × Json)) :
    ofJson? (.ofFields [(kind, .ofFields ps)]) = ofParts? kind ps := by
  rw [ofFields, List.map_singleton, ofJson?_object, text?_pieces, Option.bind_some, parts?_ofFields,
    Option.bind_some]

/-- Nothing but an object with one key stands for a statement. -/
theorem eq_object_of_ofJson? {s : Stmt} (h : ofJson? j = some s) :
    ∃ k body, j = .object [(k, body)] := by
  unfold ofJson? at h
  split at h
  · exact ⟨_, _, rfl⟩
  · cases h

/-- Statements are of three kinds. -/
theorem kind_of_ofParts? {kind : String} {s : Stmt} (h : ofParts? kind ps = some s) :
    kind = "Let" ∨ kind = "Return" ∨ kind = "Expression" := by
  obtain ⟨token, -, h⟩ := Option.bind_eq_some_iff.1 h
  split at h
  · exact .inl rfl
  · exact .inr (.inl rfl)
  · exact .inr (.inr rfl)
  · cases h

end Stmt

/-- The statements that a value lists. -/
def Json.asStmts? : Json → Option (List Stmt)
  | .array items => items.mapM Stmt.ofJson?
  | _ => none

@[simp] theorem Json.asStmts?_nil : asStmts? (.array []) = some [] :=
  rfl

theorem Json.asStmts?_cons (j : Json) (js : List Json) : asStmts? (.array (j :: js)) =
    (Stmt.ofJson? j).bind fun s => (asStmts? (.array js)).map (s :: ·) := by
  rw [asStmts?, List.mapM_cons]
  cases Stmt.ofJson? j with
  | none => rfl
  | some s =>
    change (js.mapM Stmt.ofJson?).bind (fun ss => some (s :: ss)) = _
    rw [Option.bind_some, asStmts?]
    cases js.mapM Stmt.ofJson? <;> rfl

theorem Program.ofJson?_eq (j : Json) : Program.ofJson? j =
    (j.parts? ["statements"]).bind fun ps =>
      (found asStmts? ps "statements").map Program.mk := by
  refine congrArg (j.parts? ["statements"]).bind (funext fun ps => ?_)
  unfold found
  cases part? ps "statements" with
  | none => rfl
  | some j =>
    cases j with
    | array items =>
      change (items.mapM Stmt.ofJson?).bind (fun ss => some (Program.mk ss)) = _
      rw [Option.bind_some, asStmts?]
      cases items.mapM Stmt.ofJson? <;> rfl
    | _ => rfl

end MonkeyFrontEnd
