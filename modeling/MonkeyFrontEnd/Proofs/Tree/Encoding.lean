import MonkeyFrontEnd.Command.Parse
import MonkeyFrontEnd.Proofs.Json.Writing
import MonkeyFrontEnd.Proofs.Tree.Decoding

/-!
# Programs survive being written as JSON

A program whose places fit into 64 bits (`Program.InRange`) is decoded from the value that it is
encoded as (`Program.ofJson?_toJson`), the value can be written (`Program.writable_toJson`), and so
it is read from its compact text and from the indented text that is shown for it, as long as it is
not nested too deep. Whatever is read is such a program, and can therefore be written and read again
any number of times (`Program.read?_written`).
-/

set_option autoImplicit false

namespace MonkeyFrontEnd

open Json

/-! ### Places in range -/

/-- Both offsets fit into 64 bits. -/
def Span.InRange (s : Span) : Prop :=
  s.start < UInt64.size ∧ s.stop < UInt64.size

/-- Every token in the expression has its place in range. -/
def Expr.InRange : Expr → Prop
  | .ident i => i.token.span.InRange
  | .int t _ => t.span.InRange
  | .unary t _ operand => t.span.InRange ∧ operand.InRange
  | .binary t left _ right => t.span.InRange ∧ left.InRange ∧ right.InRange

/-- Every token in the statement has its place in range. -/
def Stmt.InRange : Stmt → Prop
  | .letStmt t name value => t.span.InRange ∧ name.token.span.InRange ∧ value.InRange
  | .returnStmt t value => t.span.InRange ∧ value.InRange
  | .exprStmt t e => t.span.InRange ∧ e.InRange

/-- Every token in the program has its place in range. -/
def Program.InRange (p : Program) : Prop :=
  ∀ s ∈ p.statements, s.InRange

variable {p : Program} {s : Stmt} {e : Expr} {i : Identifier} {t : Token} {span : Span} {j : Json}

/-! ### Decoding what was encoded -/

/-- A part among parts with other names, read. -/
theorem Json.found_of_part? {α : Type} {read : Json → Option α} {ps : List (String × Json)}
    {name : String} {v : α} (part : part? ps name = some j) (value : read j = some v) :
    found read ps name = some v :=
  found_eq_some_iff.2 ⟨j, part, value⟩

theorem Json.asOffset?_int {n : Nat} (h : n < UInt64.size) : (Json.int n).asOffset? = some n := by
  have range : (0 : Int) ≤ n ∧ (n : Int) < UInt64.size := by omega
  rw [asOffset?, if_pos range, Int.toNat_natCast]

theorem Json.asInt64?_int (v : Int64) : (Json.int v.toInt).asInt64? = some v := by
  have range : Int64.minValue.toInt ≤ v.toInt ∧ v.toInt ≤ Int64.maxValue.toInt :=
    ⟨v.minValue_le_toInt, v.toInt_le⟩
  rw [asInt64?, if_pos range, Int64.ofInt_toInt]

theorem Span.ofJson?_toJson (h : span.InRange) : Span.ofJson? span.toJson = some span := by
  rw [Span.ofJson?_eq, Span.toJson, parts?_ofFields, Option.bind_some,
    found_of_part? (by simp [part?]) (asOffset?_int h.1),
    Option.bind_some, found_of_part? (by simp [part?]) (asOffset?_int h.2), Option.bind_some]
  rfl

theorem Token.ofJson?_toJson (h : t.span.InRange) : Token.ofJson? t.toJson = some t := by
  have kind : asKind? (.ofString t.kind.name) = some t.kind := by simp [asKind?]
  rw [Token.ofJson?_eq, Token.toJson, parts?_ofFields, Option.bind_some,
    found_of_part? (by simp [part?]) kind, Option.bind_some,
    found_of_part? (by simp [part?]) (asText?_ofString t.literal), Option.bind_some,
    found_of_part? (by simp [part?]) (Span.ofJson?_toJson h), Option.bind_some]

theorem Identifier.ofJson?_toJson (h : i.token.span.InRange) :
    Identifier.ofJson? i.toJson = some i := by
  rw [Identifier.ofJson?_eq, Identifier.toJson, parts?_ofFields, Option.bind_some,
    found_of_part? (by simp [part?]) (Token.ofJson?_toJson h), Option.bind_some,
    found_of_part? (by simp [part?]) (asText?_ofString i.name), Option.bind_some]

theorem Expr.ofJson?_toJson (h : e.InRange) : Expr.ofJson? e.toJson = some e := by
  induction e with
  | ident i =>
    rw [Expr.toJson, Identifier.toJson, Expr.ofJson?_ofFields, Expr.ofParts?_ident,
      found_of_part? (by simp [part?]) (Token.ofJson?_toJson h), Option.bind_some,
      found_of_part? (by simp [part?]) (asText?_ofString i.name), Option.bind_some]
  | int t v =>
    rw [Expr.toJson, Expr.ofJson?_ofFields, Expr.ofParts?_int,
      found_of_part? (by simp [part?]) (Token.ofJson?_toJson h), Option.bind_some,
      found_of_part? (by simp [part?]) (asInt64?_int v), Option.bind_some]
  | unary t op right ih =>
    obtain ⟨ht, hr⟩ := h
    have named : asUnaryOp? (.ofString op.name) = some op := by simp [asUnaryOp?]
    rw [Expr.toJson, Expr.ofJson?_ofFields, Expr.ofParts?_unary,
      found_of_part? (by simp [part?]) (Token.ofJson?_toJson ht), Option.bind_some,
      found_of_part? (by simp [part?]) named, Option.bind_some,
      found_of_part? (by simp [part?]) (ih hr), Option.bind_some]
  | binary t left op right ihl ihr =>
    obtain ⟨ht, hl, hr⟩ := h
    have named : asBinaryOp? (.ofString op.name) = some op := by simp [asBinaryOp?]
    rw [Expr.toJson, Expr.ofJson?_ofFields, Expr.ofParts?_binary,
      found_of_part? (by simp [part?]) (Token.ofJson?_toJson ht), Option.bind_some,
      found_of_part? (by simp [part?]) (ihl hl), Option.bind_some,
      found_of_part? (by simp [part?]) named, Option.bind_some,
      found_of_part? (by simp [part?]) (ihr hr), Option.bind_some]

theorem Stmt.ofJson?_toJson (h : s.InRange) : Stmt.ofJson? s.toJson = some s := by
  cases s with
  | letStmt t name value =>
    obtain ⟨ht, hn, hv⟩ := h
    rw [Stmt.toJson, Stmt.ofJson?_ofFields, Stmt.ofParts?_let,
      found_of_part? (by simp [part?]) (Token.ofJson?_toJson ht), Option.bind_some,
      found_of_part? (by simp [part?]) (Identifier.ofJson?_toJson hn), Option.bind_some,
      found_of_part? (by simp [part?]) (Expr.ofJson?_toJson hv), Option.bind_some]
  | returnStmt t value =>
    obtain ⟨ht, hv⟩ := h
    rw [Stmt.toJson, Stmt.ofJson?_ofFields, Stmt.ofParts?_return,
      found_of_part? (by simp [part?]) (Token.ofJson?_toJson ht), Option.bind_some,
      found_of_part? (by simp [part?]) (Expr.ofJson?_toJson hv), Option.bind_some]
  | exprStmt t e =>
    obtain ⟨ht, he⟩ := h
    rw [Stmt.toJson, Stmt.ofJson?_ofFields, Stmt.ofParts?_expr,
      found_of_part? (by simp [part?]) (Token.ofJson?_toJson ht), Option.bind_some,
      found_of_part? (by simp [part?]) (Expr.ofJson?_toJson he), Option.bind_some]

theorem Json.asStmts?_toJson {ss : List Stmt} (h : ∀ s ∈ ss, s.InRange) :
    asStmts? (.array (ss.map Stmt.toJson)) = some ss := by
  induction ss with
  | nil => rfl
  | cons s ss ih =>
    obtain ⟨first, others⟩ := List.forall_mem_cons.1 h
    rw [List.map_cons, asStmts?_cons, Stmt.ofJson?_toJson first, ih others]
    rfl

/-- A program in range is decoded from what it is encoded as. -/
theorem Program.ofJson?_toJson (h : p.InRange) : Program.ofJson? p.toJson = some p := by
  rw [Program.ofJson?_eq, Program.toJson, parts?_ofFields, Option.bind_some,
    found_of_part? (by simp [part?]) (asStmts?_toJson h), Option.map_some]

/-! ### What was decoded is in range -/

theorem Json.lt_of_asOffset? {n : Nat} (h : j.asOffset? = some n) : n < UInt64.size := by
  unfold asOffset? at h
  split at h
  · split at h
    · cases h
      omega
    · cases h
  · cases h

theorem Json.lt_of_found_asOffset? {ps : List (String × Json)} {name : String} {n : Nat}
    (h : found asOffset? ps name = some n) : n < UInt64.size := by
  obtain ⟨j, -, hj⟩ := found_eq_some_iff.1 h
  exact lt_of_asOffset? hj

theorem Span.inRange_of_ofJson? (h : Span.ofJson? j = some span) : span.InRange := by
  rw [Span.ofJson?_eq] at h
  simp only [Option.bind_eq_some_iff] at h
  obtain ⟨ps, -, start, hstart, stop, hstop, h⟩ := h
  split at h
  · cases h
    exact ⟨lt_of_found_asOffset? hstart, lt_of_found_asOffset? hstop⟩
  · cases h

theorem Token.inRange_of_ofJson? (h : Token.ofJson? j = some t) : t.span.InRange := by
  rw [Token.ofJson?_eq] at h
  simp only [Option.bind_eq_some_iff] at h
  obtain ⟨ps, -, kind, -, literal, -, span, hspan, h⟩ := h
  cases h
  obtain ⟨j, -, hj⟩ := found_eq_some_iff.1 hspan
  exact Span.inRange_of_ofJson? hj

theorem Token.inRange_of_found {ps : List (String × Json)} {name : String}
    (h : found Token.ofJson? ps name = some t) : t.span.InRange := by
  obtain ⟨j, -, hj⟩ := found_eq_some_iff.1 h
  exact Token.inRange_of_ofJson? hj

theorem Identifier.inRange_of_ofJson? (h : Identifier.ofJson? j = some i) :
    i.token.span.InRange := by
  rw [Identifier.ofJson?_eq] at h
  simp only [Option.bind_eq_some_iff] at h
  obtain ⟨ps, -, token, ht, name, -, h⟩ := h
  cases h
  exact Token.inRange_of_found ht

/-- An expression is in range if those in its parts are. -/
theorem Expr.inRange_of_ofParts? {kind : String} {ps : List (String × Json)}
    (h : Expr.ofParts? kind (annotated ps) = some e)
    (each : ∀ p ∈ ps, ∀ e, Expr.ofJson? p.2 = some e → e.InRange) : e.InRange := by
  have inner : ∀ {name : String} {e : Expr}, found Expr.ofJson? ps name = some e → e.InRange := by
    intro name e he
    obtain ⟨j, hj, he⟩ := found_eq_some_iff.1 he
    exact each _ (mem_of_part? hj) e he
  rcases Expr.kind_of_ofParts? h with rfl | rfl | rfl | rfl
  · rw [Expr.ofParts?_ident] at h
    simp only [Option.bind_eq_some_iff] at h
    obtain ⟨token, ht, name, -, h⟩ := h
    cases h
    exact Token.inRange_of_found ht
  · rw [Expr.ofParts?_int] at h
    simp only [Option.bind_eq_some_iff] at h
    obtain ⟨token, ht, value, -, h⟩ := h
    cases h
    exact Token.inRange_of_found ht
  · rw [Expr.ofParts?_unary] at h
    simp only [Option.bind_eq_some_iff] at h
    obtain ⟨token, ht, op, -, right, hr, h⟩ := h
    cases h
    exact ⟨Token.inRange_of_found ht, inner hr⟩
  · rw [Expr.ofParts?_binary] at h
    simp only [Option.bind_eq_some_iff] at h
    obtain ⟨token, ht, left, hl, op, -, right, hr, h⟩ := h
    cases h
    exact ⟨Token.inRange_of_found ht, inner hl, inner hr⟩

/-- The parts of an expression stand two values further in, so what is carried along is that it
holds of the values inside an array or an object, too. -/
theorem Expr.inRange_of_ofJson?_and (j : Json) :
    (∀ e, Expr.ofJson? j = some e → e.InRange) ∧
      ∀ i ∈ j.values, ∀ e, Expr.ofJson? i = some e → e.InRange := by
  induction j using Json.induct with
  | object ms ih =>
    constructor
    · intro e he
      obtain ⟨k, body, same⟩ := Expr.eq_object_of_ofJson? he
      cases same
      rw [Expr.ofJson?_object] at he
      simp only [Option.bind_eq_some_iff] at he
      obtain ⟨kind, -, ps, hps, he⟩ := he
      refine Expr.inRange_of_ofParts? he fun p hp e he => ?_
      exact (ih _ (List.mem_singleton_self _)).2 p.2 (mem_values_of_parts? hps hp) e he
    · intro i hi e he
      obtain ⟨m, hm, rfl⟩ := List.mem_map.1 hi
      exact (ih m hm).1 e he
  | array items ih =>
    constructor
    · intro e he
      obtain ⟨k, body, same⟩ := Expr.eq_object_of_ofJson? he
      cases same
    · intro i hi e he
      exact (ih i hi).1 e he
  | _ =>
    constructor
    · intro e he
      obtain ⟨k, body, same⟩ := Expr.eq_object_of_ofJson? he
      cases same
    · intro i hi
      cases hi

theorem Expr.inRange_of_found {ps : List (String × Json)} {name : String}
    (h : found Expr.ofJson? ps name = some e) : e.InRange := by
  obtain ⟨j, -, hj⟩ := found_eq_some_iff.1 h
  exact (Expr.inRange_of_ofJson?_and j).1 e hj

theorem Stmt.inRange_of_ofJson? (h : Stmt.ofJson? j = some s) : s.InRange := by
  obtain ⟨k, b, rfl⟩ := Stmt.eq_object_of_ofJson? h
  rw [Stmt.ofJson?_object] at h
  simp only [Option.bind_eq_some_iff] at h
  obtain ⟨kind, -, ps, -, h⟩ := h
  rcases Stmt.kind_of_ofParts? h with rfl | rfl | rfl
  · rw [Stmt.ofParts?_let] at h
    simp only [Option.bind_eq_some_iff] at h
    obtain ⟨token, ht, name, hn, value, hv, h⟩ := h
    cases h
    obtain ⟨n, -, hn⟩ := found_eq_some_iff.1 hn
    exact ⟨Token.inRange_of_found ht, Identifier.inRange_of_ofJson? hn, Expr.inRange_of_found hv⟩
  · rw [Stmt.ofParts?_return] at h
    simp only [Option.bind_eq_some_iff] at h
    obtain ⟨token, ht, value, hv, h⟩ := h
    cases h
    exact ⟨Token.inRange_of_found ht, Expr.inRange_of_found hv⟩
  · rw [Stmt.ofParts?_expr] at h
    simp only [Option.bind_eq_some_iff] at h
    obtain ⟨token, ht, e, he, h⟩ := h
    cases h
    exact ⟨Token.inRange_of_found ht, Expr.inRange_of_found he⟩

theorem Stmt.inRange_of_asStmts? {ss : List Stmt} (h : asStmts? j = some ss) :
    ∀ s ∈ ss, s.InRange := by
  cases j with
  | array items =>
    induction items generalizing ss with
    | nil =>
      cases h
      simp
    | cons item items ih =>
      rw [asStmts?_cons] at h
      obtain ⟨s, hs, h⟩ := Option.bind_eq_some_iff.1 h
      obtain ⟨others, ho, rfl⟩ := Option.map_eq_some_iff.1 h
      exact List.forall_mem_cons.2 ⟨Stmt.inRange_of_ofJson? hs, ih ho⟩
  | _ => cases h

/-- Whatever is decoded as a program is in range. -/
theorem Program.inRange_of_ofJson? (h : Program.ofJson? j = some p) : p.InRange := by
  rw [Program.ofJson?_eq] at h
  obtain ⟨ps, -, h⟩ := Option.bind_eq_some_iff.1 h
  obtain ⟨ss, hs, rfl⟩ := Option.map_eq_some_iff.1 h
  obtain ⟨j, -, hj⟩ := found_eq_some_iff.1 hs
  exact Stmt.inRange_of_asStmts? hj

/-! ### The encoded value can be written -/

theorem Json.writable_ofString (s : String) : Writable (.ofString s) :=
  .string (writablePieces_pieces s)

theorem Json.writable_ofFields {fields : List (String × Json)}
    (h : ∀ f ∈ fields, Writable f.2) : Writable (.ofFields fields) := by
  refine .object ?_ ?_
  · intro m hm
    obtain ⟨f, -, rfl⟩ := List.mem_map.1 hm
    exact writablePieces_pieces f.1
  · intro m hm
    obtain ⟨f, hf, rfl⟩ := List.mem_map.1 hm
    exact h f hf

theorem Token.writable_toJson (t : Token) : Writable t.toJson := by
  refine writable_ofFields ?_
  simp only [List.forall_mem_cons]
  refine ⟨writable_ofString _, writable_ofString _, writable_ofFields ?_, by simp⟩
  simp only [List.forall_mem_cons]
  exact ⟨.int _, .int _, by simp⟩

theorem Identifier.writable_toJson (i : Identifier) : Writable i.toJson := by
  refine writable_ofFields ?_
  simp only [List.forall_mem_cons]
  exact ⟨i.token.writable_toJson, writable_ofString _, by simp⟩

/-- A node in an object with its kind. -/
theorem Json.writable_kind {kind : String} {fields : List (String × Json)}
    (h : ∀ f ∈ fields, Writable f.2) : Writable (.ofFields [(kind, .ofFields fields)]) :=
  writable_ofFields (List.forall_mem_singleton.2 (writable_ofFields h))

theorem Expr.writable_toJson (e : Expr) : Writable e.toJson := by
  induction e with
  | ident i => exact writable_ofFields (List.forall_mem_singleton.2 i.writable_toJson)
  | int t v =>
    refine writable_kind ?_
    simp only [List.forall_mem_cons]
    exact ⟨t.writable_toJson, .int _, by simp⟩
  | unary t op right ih =>
    refine writable_kind ?_
    simp only [List.forall_mem_cons]
    exact ⟨t.writable_toJson, writable_ofString _, ih, by simp⟩
  | binary t left op right ihl ihr =>
    refine writable_kind ?_
    simp only [List.forall_mem_cons]
    exact ⟨t.writable_toJson, ihl, writable_ofString _, ihr, by simp⟩

theorem Stmt.writable_toJson (s : Stmt) : Writable s.toJson := by
  cases s with
  | letStmt t name value =>
    refine writable_kind ?_
    simp only [List.forall_mem_cons]
    exact ⟨t.writable_toJson, name.writable_toJson, value.writable_toJson, by simp⟩
  | returnStmt t value =>
    refine writable_kind ?_
    simp only [List.forall_mem_cons]
    exact ⟨t.writable_toJson, value.writable_toJson, by simp⟩
  | exprStmt t e =>
    refine writable_kind ?_
    simp only [List.forall_mem_cons]
    exact ⟨t.writable_toJson, e.writable_toJson, by simp⟩

theorem Program.writable_toJson (p : Program) : Writable p.toJson := by
  refine writable_ofFields (List.forall_mem_singleton.2 (.array ?_))
  intro j hj
  obtain ⟨s, -, rfl⟩ := List.mem_map.1 hj
  exact s.writable_toJson

/-! ### Whole texts -/

namespace Program

variable {text : String}

/-- What a text is read as, from the value that it spells. -/
theorem read?_eq_some_iff_of_read? (h : Json.read? text = some j) :
    read? text = some p ↔ Program.ofJson? j = some p ∧ p.toJson.nesting ≤ maxNesting := by
  rw [read?, h, Option.bind_some, Option.filter_eq_some_iff]
  simp

/-- What is read can be written. -/
theorem of_read? (h : read? text = some p) : p.InRange ∧ p.toJson.nesting ≤ maxNesting := by
  obtain ⟨h, near⟩ := Option.filter_eq_some_iff.1 h
  obtain ⟨j, -, hj⟩ := Option.bind_eq_some_iff.1 h
  exact ⟨inRange_of_ofJson? hj, by simpa using near⟩

/-- A program in range that is not nested too deep is read from its compact text, and from the text
that is shown for it. -/
theorem read?_texts (range : p.InRange) (near : p.toJson.nesting ≤ maxNesting) :
    read? (compact p.toJson) = some p ∧ (Command.programLines true p).map read? = [some p] := by
  have decoded := ofJson?_toJson range
  constructor
  · exact (read?_eq_some_iff_of_read? (read?_compact p.writable_toJson)).2 ⟨decoded, near⟩
  · have shown := (read?_eq_some_iff_of_read? (read?_indented p.writable_toJson)).2 ⟨decoded, near⟩
    rw [Command.programLines, if_pos rfl, List.map_singleton, shown]

/-- Programs, however they were made, survive being written and read: from the compact text as well
as from the text that is shown, and again after they were read from any text at all. -/
theorem read?_written (p : Program) :
    (p.InRange → p.toJson.nesting ≤ maxNesting →
      read? (compact p.toJson) = some p ∧ (Command.programLines true p).map read? = [some p]) ∧
    ∀ text, read? text = some p →
      read? (compact p.toJson) = some p ∧ (Command.programLines true p).map read? = [some p] := by
  refine ⟨read?_texts, fun text h => ?_⟩
  obtain ⟨range, near⟩ := of_read? h
  exact read?_texts range near

/-- No parser makes this program: places run backwards and to the end of the range, texts hold what
has to be escaped, and tokens have any kind and text. -/
def extreme : Program where
  statements :=
    [.letStmt ⟨.eof, "\x00\x1f\"\\\n", ⟨18446744073709551615, 0⟩⟩
      ⟨⟨.kwFn, "", ⟨1, 1⟩⟩, "\x08\t\x0c\r/\x7f😀"⟩
      (.unary ⟨.int, "é", ⟨7, 3⟩⟩ .neg (.int ⟨.ident, "-", ⟨0, 0⟩⟩ Int64.minValue)),
    .returnStmt ⟨.comma, "let", ⟨0, 18446744073709551615⟩⟩
      (.binary ⟨.rbrace, "==", ⟨2, 1⟩⟩ (.ident ⟨⟨.lt, "", ⟨0, 0⟩⟩, "1 +"⟩) .ne
        (.int ⟨.bang, "", ⟨0, 0⟩⟩ Int64.maxValue)),
    .exprStmt ⟨.assign, "", ⟨0, 0⟩⟩ (.int ⟨.semicolon, "", ⟨0, 0⟩⟩ (-1))]

theorem inRange_extreme : extreme.InRange := by
  simp [InRange, extreme, Stmt.InRange, Expr.InRange, Span.InRange, UInt64.size]

theorem read?_written_extreme :
    (extreme.InRange ∧ extreme.toJson.nesting ≤ maxNesting) ∧
      read? (compact extreme.toJson) = some extreme ∧
      (Command.programLines true extreme).map read? = [some extreme] :=
  ⟨⟨inRange_extreme, by decide⟩, (read?_written extreme).1 inRange_extreme (by decide)⟩

end Program

end MonkeyFrontEnd
