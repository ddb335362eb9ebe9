import MonkeyFrontEnd.Proofs.Lexing.Joining
import MonkeyFrontEnd.Proofs.Notices
import MonkeyFrontEnd.Proofs.Outcomes

/-!
# Semicolons divide programs

A text with a semicolon in it is read as the part through the semicolon is, and then as the part
behind it is, that many bytes further on. Nothing that is wrong on one side reaches the other:
unclosed brackets, statements without an end and illegal characters stay where they are.
-/

set_option autoImplicit false

namespace MonkeyFrontEnd

variable (a b : String)

theorem Token.ofSource_semicolon :
    Token.ofSource (a ++ ";") = Token.ofSource a ++
      [⟨.semicolon, ";", ⟨a.utf8ByteSize, a.utf8ByteSize + 1⟩⟩] := by
  rw [ofSource, Item.ofSource_semicolon, List.filterMap_append]
  rfl

theorem Token.ofSource_semicolon_append :
    Token.ofSource (a ++ ";" ++ b) = Token.ofSource (a ++ ";") ++
      (Token.ofSource b).map (Token.moved (Span.shift (a.utf8ByteSize + 1))) := by
  have moved : ∀ i : Item, (i.shift (a.utf8ByteSize + 1)).token? =
      i.token?.map (Token.moved (Span.shift (a.utf8ByteSize + 1))) := by
    intro i
    cases i <;> rfl
  rw [ofSource, Item.ofSource_semicolon_append, List.filterMap_append, List.filterMap_map]
  simp only [Function.comp_def, moved, ofSource, List.map_filterMap]

theorem Token.ofEnd_semicolon_append :
    Token.ofEnd (a ++ ";" ++ b) = (Token.ofEnd b).moved (Span.shift (a.utf8ByteSize + 1)) := by
  have size : (a ++ ";" ++ b).utf8ByteSize = b.utf8ByteSize + (a.utf8ByteSize + 1) := by
    have semicolon : ";".utf8ByteSize = 1 := rfl
    rw [String.utf8ByteSize_append, String.utf8ByteSize_append, semicolon, Nat.add_comm]
  rw [ofEnd, size]
  rfl

theorem IllegalChar.ofSource_semicolon_append :
    IllegalChar.ofSource (a ++ ";" ++ b) = IllegalChar.ofSource (a ++ ";") ++
      (IllegalChar.ofSource b).map (IllegalChar.shift (a.utf8ByteSize + 1)) := by
  have moved : ∀ i : Item, (i.shift (a.utf8ByteSize + 1)).illegal? =
      i.illegal?.map (IllegalChar.shift (a.utf8ByteSize + 1)) := by
    intro i
    cases i <;> rfl
  rw [ofSource, Item.ofSource_semicolon_append, List.filterMap_append, List.filterMap_map]
  simp only [Function.comp_def, moved, ofSource, List.map_filterMap]

namespace Parse

/-- But for what is read ahead, the events behind a semicolon are those of the text that begins
there. -/
theorem map_blind_events_semicolon :
    (events (a ++ ";" ++ b)).map Event.blind = (events (a ++ ";")).map Event.blind ++
      ((events b).map (Event.moved (Span.shift (a.utf8ByteSize + 1)))).map Event.blind := by
  have behind := State.run_moved (g := Span.shift (a.utf8ByteSize + 1)) (.ofEnd b) .start
    (Token.ofSource b)
  rw [events, Token.ofSource_semicolon_append, Token.ofEnd_semicolon_append, events,
    Token.ofSource_semicolon, State.map_blind_run_semicolon _ _ (.ofEnd (a ++ ";")) _ _ rfl]
  exact congrArg _ (congrArg _ behind)

/-- **Statement boundaries.** What is read of a text with a semicolon in it is what is read of the
text through the semicolon, followed by what is read of the text behind it, moved to where that
stands: the statements, the faults and the illegal characters. -/
theorem ofSource_across_semicolon :
    (Parse.ofSource (a ++ ";" ++ b)).program.statements =
      (Parse.ofSource (a ++ ";")).program.statements ++
        (Parse.ofSource b).program.statements.map
          (Stmt.moved (Span.shift (a.utf8ByteSize + 1))) ∧
    (Parse.ofSource (a ++ ";" ++ b)).faults =
      (Parse.ofSource (a ++ ";")).faults ++
        (Parse.ofSource b).faults.map (ParseError.moved (Span.shift (a.utf8ByteSize + 1))) ∧
    (Parse.ofSource (a ++ ";" ++ b)).illegals =
      (Parse.ofSource (a ++ ";")).illegals ++
        (Parse.ofSource b).illegals.map (IllegalChar.shift (a.utf8ByteSize + 1)) := by
  have divided := map_blind_events_semicolon a b
  refine ⟨?_, ?_, ?_⟩
  · have stmts := congrArg (List.filterMap Event.stmt?) divided
    rw [List.filterMap_append, filterMap_stmt?_map_blind, filterMap_stmt?_map_blind,
      filterMap_stmt?_map_blind, filterMap_stmt?_map_moved] at stmts
    exact stmts
  · have errors := congrArg (List.filterMap Event.error?) divided
    rw [List.filterMap_append, filterMap_error?_map_blind, filterMap_error?_map_blind,
      filterMap_error?_map_blind, filterMap_error?_map_moved] at errors
    rw [faults_ofSource, faults_ofSource, faults_ofSource]
    exact errors
  · rw [illegals_ofSource, illegals_ofSource, illegals_ofSource,
      IllegalChar.ofSource_semicolon_append]

end Parse

end MonkeyFrontEnd
