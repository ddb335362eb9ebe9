import MonkeyFrontEnd.Json.Reader
import MonkeyFrontEnd.Tree.Encoded

/-!
# Programs from JSON values

The reverse of encoding. The parts of a node may come in any order and among parts with other
names, which are passed over; each part has to be there exactly once. A span admits no further
parts, and the object around a node no second key. Instead of an object there may be an array of all
parts in their order, without names, and instead of the name of a token kind or of an operator an
object with `null` under that name. Numbers have to be integers in range: 64 bits with a sign for
the value of a literal, 64 bits without one for a place. A program that is nested too deep is not
read.
-/

set_option autoImplicit false

namespace MonkeyFrontEnd

namespace Json

/-- The parts of an object by the texts of their keys, if every key stands for a text. -/
def keyed? {α : Type} (members : List (List Piece × α)) : Option (List (String × α)) :=
  members.mapM fun m => (text? m.1).map fun key => (key, m.2)

/-- The part with the given key, if there is exactly one. -/
def part? {α : Type} (parts : List (String × α)) (key : String) : Option α :=
  match parts.filter fun p => p.1 = key with
  | [(_, value)] => some value
  | _ => none

/-- Values that are listed without their names, with the names that they have by their order. -/
def listed? {α : Type} (names : List String) (values : List α) : Option (List (String × α)) :=
  if values.length = names.length then some (names.zip values) else none

/-- The parts of a value, if it is an object, or if it lists parts with the given names. -/
def parts? (names : List String) : Json → Option (List (String × Json))
  | .object members => keyed? members
  | .array items => listed? names items
  | _ => none

/-- The text that a value is, if it is one. -/
def asText? : Json → Option String
  | .string ps => text? ps
  | _ => none

/-- The name that a value gives, if nothing but a name is due. -/
def asName? : Json → Option String
  | .string ps => text? ps
  | .object [(key, .null)] => text? key
  | _ => none

/-- The byte offset that a value is, if it is one. -/
def asOffset? : Json → Option Nat
  | .int i => if 0 ≤ i ∧ i < UInt64.size then some i.toNat else none
  | _ => none

/-- The 64-bit integer that a value is, if it is one. -/
def asInt64? : Json → Option Int64
  | .int i =>
    if Int64.minValue.toInt ≤ i ∧ i ≤ Int64.maxValue.toInt then some (Int64.ofInt i) else none
  | _ => none

end Json

/-- The span that a JSON value stands for. -/
def Span.ofJson? (j : Json) : Option Span := do
  let parts ← j.parts? ["start", "end"]
  let start ← (← Json.part? parts "start").asOffset?
  let stop ← (← Json.part? parts "end").asOffset?
  if parts.length = 2 then some ⟨start, stop⟩ else none

/-- The token that a JSON value stands for. -/
def Token.ofJson? (j : Json) : Option Token := do
  let parts ← j.parts? ["kind", "literal", "span"]
  let kind ← Token.Kind.ofName? (← (← Json.part? parts "kind").asName?)
  let literal ← (← Json.part? parts "literal").asText?
  let span ← Span.ofJson? (← Json.part? parts "span")
  return ⟨kind, literal, span⟩

/-- The identifier that a JSON value stands for. -/
def Identifier.ofJson? (j : Json) : Option Identifier := do
  let parts ← j.parts? ["token", "value"]
  let token ← Token.ofJson? (← Json.part? parts "token")
  let name ← (← Json.part? parts "value").asText?
  return ⟨token, name⟩

namespace Expr

/-- The names of the parts of an expression of the given kind. -/
def partNames : String → List String
  | "Identifier" | "IntegerLiteral" => ["token", "value"]
  | "Prefix" => ["token", "operator", "right"]
  | "Infix" => ["token", "left", "operator", "right"]
  | _ => []

/-- The expression of the given kind that has the given parts, each of which comes with the
expression that it stands for itself. -/
def ofParts? (kind : String) (parts : List (String × Json × Option Expr)) : Option Expr := do
  let token ← Token.ofJson? (← Json.part? parts "token").1
  match kind with
  | "Identifier" =>
    let name ← (← Json.part? parts "value").1.asText?
    return .ident ⟨token, name⟩
  | "IntegerLiteral" =>
    let value ← (← Json.part? parts "value").1.asInt64?
    return .int token value
  | "Prefix" =>
    let op ← UnaryOp.ofName? (← (← Json.part? parts "operator").1.asName?)
    let right ← (← Json.part? parts "right").2
    return .unary token op right
  | "Infix" =>
    let left ← (← Json.part? parts "left").2
    let op ← BinaryOp.ofName? (← (← Json.part? parts "operator").1.asName?)
    let right ← (← Json.part? parts "right").2
    return .binary token left op right
  | _ => none

mutual

/-- The expression that a JSON value stands for. -/
def ofJson? : Json → Option Expr
  | .object [(key, .object members)] => do
    let kind ← Json.text? key
    ofParts? kind (← Json.keyed? (readParts members))
  | .object [(key, .array items)] => do
    let kind ← Json.text? key
    ofParts? kind (← Json.listed? (partNames kind) (readItems items))
  | _ => none
termination_by structural j => j

/-- Each member of an object with the expression that it stands for. -/
def readParts : List (List Json.Piece × Json) → List (List Json.Piece × Json × Option Expr)
  | [] => []
  | (key, j) :: members => (key, j, ofJson? j) :: readParts members
termination_by structural members => members

/-- Each value with the expression that it stands for. -/
def readItems : List Json → List (Json × Option Expr)
  | [] => []
  | j :: items => (j, ofJson? j) :: readItems items
termination_by structural items => items

end

end Expr

/-- The names of the parts of a statement of the given kind. -/
def Stmt.partNames : String → List String
  | "Let" => ["token", "name", "value"]
  | "Return" => ["token", "value"]
  | "Expression" => ["token", "expression"]
  | _ => []

/-- The statement that a JSON value stands for. -/
def Stmt.ofJson? : Json → Option Stmt
  | .object [(key, j)] => do
    let kind ← Json.text? key
    let parts ← j.parts? (partNames kind)
    let token ← Token.ofJson? (← Json.part? parts "token")
    match kind with
    | "Let" =>
      let name ← Identifier.ofJson? (← Json.part? parts "name")
      let value ← Expr.ofJson? (← Json.part? parts "value")
      return .letStmt token name value
    | "Return" =>
      let value ← Expr.ofJson? (← Json.part? parts "value")
      return .returnStmt token value
    | "Expression" =>
      let e ← Expr.ofJson? (← Json.part? parts "expression")
      return .exprStmt token e
    | _ => none
  | _ => none

/-- The program that a JSON value stands for. -/
def Program.ofJson? (j : Json) : Option Program := do
  match ← Json.part? (← j.parts? ["statements"]) "statements" with
  | .array items => return ⟨← items.mapM Stmt.ofJson?⟩
  | _ => none

namespace Program

/-- The nesting that the JSON of a program may have at most if it is to be read. -/
def maxNesting : Nat :=
  127

/-- The program that a JSON text stands for. Only what belongs to the program counts for its
nesting, and that is as deep in every form of it: parts that are passed over may go deeper. -/
def read? (text : String) : Option Program :=
  ((Json.read? text).bind ofJson?).filter fun p => p.toJson.nesting ≤ maxNesting

end Program

end MonkeyFrontEnd
