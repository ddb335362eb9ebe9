import MonkeyFrontEnd.Json.Scanner

/-!
# Reading JSON

The tokens of a JSON text are put together by a machine whose state says what is due next, with
the arrays and objects that are still open as a stack of `Frame`s, the innermost first. Nothing
may follow the value.
-/

set_option autoImplicit false

namespace MonkeyFrontEnd.Json

/-- An open array or object that waits for a value; what it holds so far, the last one first. -/
inductive Frame
  | array (done : List Json)
  | object (done : List (List Piece × Json)) (key : List Piece)

/-- What is due next. -/
inductive Due
  | value (outer : List Frame)
  | itemOrEnd (outer : List Frame)
  | keyOrEnd (outer : List Frame)
  | key (done : List (List Piece × Json)) (outer : List Frame)
  | colon (done : List (List Piece × Json)) (key : List Piece) (outer : List Frame)
  | separator (read : Json) (outer : List Frame)

namespace Due

/-- Begins a value. -/
def enter (outer : List Frame) : Token → Option Due
  | .scalar j => some (.separator j outer)
  | .openArray => some (.itemOrEnd outer)
  | .openObject => some (.keyOrEnd outer)
  | _ => none

/-- Reads a token. -/
def step : Due → Token → Option Due
  | .value outer, t => enter outer t
  | .itemOrEnd outer, .closeArray => some (.separator (.array []) outer)
  | .itemOrEnd outer, t => enter (.array [] :: outer) t
  | .keyOrEnd outer, .closeObject => some (.separator (.object []) outer)
  | .keyOrEnd outer, .scalar (.string k) => some (.colon [] k outer)
  | .key done outer, .scalar (.string k) => some (.colon done k outer)
  | .colon done k outer, .colon => some (.value (.object done k :: outer))
  | .separator j (.array done :: outer), .comma => some (.value (.array (j :: done) :: outer))
  | .separator j (.array done :: outer), .closeArray =>
    some (.separator (.array (j :: done).reverse) outer)
  | .separator j (.object done k :: outer), .comma => some (.key ((k, j) :: done) outer)
  | .separator j (.object done k :: outer), .closeObject =>
    some (.separator (.object ((k, j) :: done).reverse) outer)
  | _, _ => none

/-- The value that the rest of the tokens completes. -/
def run : Due → List Token → Option Json
  | .separator j [], [] => some j
  | _, [] => none
  | d, t :: ts =>
    match d.step t with
    | some d => run d ts
    | none => none

end Due

/-- Reads a JSON text that holds one value. -/
def read? (text : String) : Option Json :=
  (tokens? text.toList).bind (Due.run (.value []))

end MonkeyFrontEnd.Json
