import ServiceIdl.Diagnostic.Styled
import ServiceIdl.Error.Parse
import ServiceIdl.Text.Lines
import ServiceIdl.Text.Slice

/-!
# Diagnostics

A diagnostic shows an error with the source line on which it starts and underlines the
faulty text in that line. An error whose line is not in the source is shown without one.
-/

namespace ServiceIdl

/-- An error and the source text that it was found in. -/
structure Diagnostic where
  source : String
  error : ParseError
  deriving DecidableEq

namespace Diagnostic

/-- The message of a diagnostic says what is wrong and leaves out where. -/
def message (d : Diagnostic) : String := d.error.fault.message

/-- What the underline calls the fault. -/
def label (d : Diagnostic) : String :=
  match d.error.fault with
  | .lexical _ => "lexical error"
  | _ => "parse error"

/-- The source line on which the error starts, if there is one. -/
def sourceLine? (d : Diagnostic) : Option (List Char) :=
  match d.error.span.start.line with
  | 0 => none
  | index + 1 => (lines d.source.toList)[index]?

/-- The width of the column of line numbers: two digits, or as many as the number of the
following line takes. -/
def gutterWidth (d : Diagnostic) : Nat :=
  max 2 (toString (d.error.span.start.line + 1)).length

/-- A text in the column of line numbers, moved to its right end, up to the frame. -/
def gutter (d : Diagnostic) (text : String) : List Styled :=
  [⟨.plain, " " ++ String.ofList (List.replicate (d.gutterWidth - text.length) ' ') ++ text ++ " "⟩,
    ⟨.frame, "|"⟩]

/-- What stands in the row of the underline before it: as many characters as in the source
line before the fault. A tab stays a tab, so that both rows have the same width. -/
def padding (d : Diagnostic) (line : List Char) : List Char :=
  (line.take (d.error.span.start.col - 1)).map fun c => if c = '\t' then '\t' else ' '

/-- The number of carets in the underline: one for each character on the first line of the
faulty text, but at least one. -/
def caretCount (d : Diagnostic) : Nat :=
  match slice? d.source.toList d.error.span.start.offset d.error.span.stop with
  | some text => max 1 (firstLine text).length
  | none => 1

/-- The row that repeats the source line. -/
def echoRow (d : Diagnostic) (line : List Char) : List Styled :=
  d.gutter (toString d.error.span.start.line) ++ [⟨.plain, " " ++ String.ofList line⟩]

/-- The row that underlines the faulty text. -/
def caretRow (d : Diagnostic) (line : List Char) : List Styled :=
  d.gutter "" ++
    [⟨.plain, " " ++ String.ofList (d.padding line)⟩,
      ⟨.fault, String.ofList (List.replicate d.caretCount '^')⟩,
      ⟨.plain, " " ++ d.label⟩]

/-- The row of the message. -/
def titleRow (d : Diagnostic) : List Styled :=
  [⟨.fault, "error"⟩, ⟨.plain, ": " ++ d.message⟩]

/-- The row of the place. -/
def placeRow (d : Diagnostic) : List Styled :=
  let start := d.error.span.start
  [⟨.plain, "  "⟩, ⟨.frame, "-->"⟩,
    ⟨.plain, " line " ++ toString start.line ++ ":" ++ toString start.col⟩]

/-- An empty row of the frame. -/
def frameRow : List Styled :=
  [⟨.plain, "   "⟩, ⟨.frame, "|"⟩]

/-- The rows that show the source line; there are none without it. -/
def snippet (d : Diagnostic) : List (List Styled) :=
  match d.sourceLine? with
  | some line => [d.echoRow line, d.caretRow line]
  | none => []

/-- All rows of a diagnostic. -/
def rows (d : Diagnostic) : List (List Styled) :=
  [d.titleRow, d.placeRow, frameRow] ++ d.snippet ++ [frameRow]

/-- A diagnostic as it is written, with or without colours. -/
def render (color : Bool) (d : Diagnostic) : String :=
  paintRows color d.rows

/-- A diagnostic as it is written where there are no styles. -/
def plainText (d : Diagnostic) : String :=
  plainRows d.rows

instance : ToString Diagnostic := ⟨plainText⟩

end Diagnostic

end ServiceIdl
