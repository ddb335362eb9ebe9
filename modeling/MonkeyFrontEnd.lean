import MonkeyFrontEnd.Cursor
import MonkeyFrontEnd.Reader
import MonkeyFrontEnd.Main
import MonkeyFrontEnd.Proofs.Attempt
import MonkeyFrontEnd.Proofs.ErrorFree
import MonkeyFrontEnd.Proofs.Grammar
import MonkeyFrontEnd.Proofs.Attribution
import MonkeyFrontEnd.Proofs.Lexing.Lexemes
import MonkeyFrontEnd.Proofs.Lexing.Places
import MonkeyFrontEnd.Proofs.Notices
import MonkeyFrontEnd.Proofs.Reading.Completeness
import MonkeyFrontEnd.Proofs.Reading.Soundness
import MonkeyFrontEnd.Proofs.Reading.Statement
import MonkeyFrontEnd.Tree.Decoded
import MonkeyFrontEnd.Proofs.Recovery
import MonkeyFrontEnd.Proofs.Lexing.Legible
import MonkeyFrontEnd.Proofs.Lexing.Spelling
import MonkeyFrontEnd.Proofs.Canonical
import MonkeyFrontEnd.Proofs.Erasure
import MonkeyFrontEnd.Proofs.Printing
import MonkeyFrontEnd.Proofs.RoundTrip
import MonkeyFrontEnd.Proofs.Relocation
import MonkeyFrontEnd.Proofs.Outcomes
import MonkeyFrontEnd.Proofs.Lexing.Joining
import MonkeyFrontEnd.Proofs.Boundary
import MonkeyFrontEnd.Proofs.Layout
import MonkeyFrontEnd.Proofs.Reporting
import MonkeyFrontEnd.Proofs.Lexing.Written
import MonkeyFrontEnd.Proofs.Earliest
import MonkeyFrontEnd.Proofs.Lexing.Tiling
import MonkeyFrontEnd.Proofs.Json.Grammar
import MonkeyFrontEnd.Proofs.Json.Numbers
import MonkeyFrontEnd.Proofs.Json.Scanning
import MonkeyFrontEnd.Proofs.Json.Writing
import MonkeyFrontEnd.Proofs.Json.Parts
import MonkeyFrontEnd.Proofs.Tree.Decoding
import MonkeyFrontEnd.Proofs.Tree.Encoding
import MonkeyFrontEnd.Proofs.Tree.Shape
import MonkeyFrontEnd.Proofs.Tree.Editing
import MonkeyFrontEnd.Parse.Descent
import MonkeyFrontEnd.Proofs.Descent
import MonkeyFrontEnd.Proofs.Accuracy
import MonkeyFrontEnd.Proofs.Lexing.Alphabet
import MonkeyFrontEnd.Proofs.Lexing.Separation
import MonkeyFrontEnd.Proofs.Appearance
import MonkeyFrontEnd.Proofs.Command.Checking
import MonkeyFrontEnd.Proofs.Command.Dialogue
import MonkeyFrontEnd.Proofs.Command.Agreement
import MonkeyFrontEnd.Proofs.Lexing.Cutting
import MonkeyFrontEnd.Proofs.Lexing.Lookahead
import MonkeyFrontEnd.Proofs.Location
import MonkeyFrontEnd.Proofs.Command.Diagnostics
import MonkeyFrontEnd.Proofs.Drafting
import MonkeyFrontEnd.Proofs.Numbers
import MonkeyFrontEnd.Proofs.Command.Listing
import MonkeyFrontEnd.Parse.Walker
import MonkeyFrontEnd.Proofs.Walker.Standing
import MonkeyFrontEnd.Proofs.Walker.Following
import MonkeyFrontEnd.Proofs.Walker.Contract
import MonkeyFrontEnd.Proofs.Walker.Recording
