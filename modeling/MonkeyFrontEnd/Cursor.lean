import MonkeyFrontEnd.Item

/-!
# Reading a source text item by item

A `Cursor` hands out the items of a source text one at a time, the token at the end once, and
nothing after that. `peek` shows the item that the following `next` hands out.
-/

set_option autoImplicit false

namespace MonkeyFrontEnd

/-- A source text and what has not been taken of it yet. -/
structure Cursor where
  source : String
  ahead : List Item

namespace Cursor

/-- A cursor before the first item. -/
def ofSource (source : String) : Cursor :=
  ⟨source, Item.stream source⟩

/-- The item that comes next, without taking it. -/
def peek (c : Cursor) : Option Item :=
  c.ahead.head?

/-- Takes the item that comes next. -/
def next (c : Cursor) : Option Item × Cursor :=
  (c.ahead.head?, { c with ahead := c.ahead.tail })

/-- Takes everything that is left. -/
def drain (c : Cursor) : List Item × Cursor :=
  (c.ahead, { c with ahead := [] })

end Cursor

end MonkeyFrontEnd
