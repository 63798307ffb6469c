/-!
# Styled text

Text for a terminal is a sequence of pieces with a style each. It can be written with
colours, as escape sequences around the pieces, or without.
-/

namespace ServiceIdl

/-- How a piece of text is to look. -/
inductive Style where
  | plain
  /-- Bold red, for what is wrong. -/
  | fault
  /-- Bold blue, for what frames the source text. -/
  | frame
  deriving DecidableEq

/-- The escape sequence that switches a style on; plain text needs none. -/
def Style.opening? : Style → Option String
  | plain => none
  | fault => some "\x1b[1;31m"
  | frame => some "\x1b[1;34m"

/-- The escape sequence that switches every style off. -/
def Style.closing : String := "\x1b[0m"

/-- A text with a style. -/
structure Styled where
  style : Style
  text : String
  deriving DecidableEq

/-- A piece of text as it is written, with or without colours. -/
def Styled.paint (color : Bool) (piece : Styled) : String :=
  match piece.style.opening? with
  | some opening => if color then opening ++ piece.text ++ Style.closing else piece.text
  | none => piece.text

/-- A row of pieces as it is written. -/
def paintRow (color : Bool) (row : List Styled) : String :=
  String.join (row.map (Styled.paint color))

/-- Rows as they are written, with a line feed between them. -/
def paintRows (color : Bool) (rows : List (List Styled)) : String :=
  String.intercalate "\n" (rows.map (paintRow color))

/-- The texts of rows, with a line feed between them. -/
def plainRows (rows : List (List Styled)) : String :=
  String.intercalate "\n" (rows.map fun row => String.join (row.map Styled.text))

end ServiceIdl
