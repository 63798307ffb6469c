/-!
# Lines of a text

A line ends at a line feed, and a carriage return directly before the line feed
belongs to the line end, not to the line. A carriage return elsewhere is an
ordinary character, and the end of the text adds no empty line.
-/

namespace ServiceIdl

/-- The lines of a text, without their line ends. -/
def lines : List Char → List (List Char)
  | [] => []
  | '\n' :: rest => [] :: lines rest
  | '\r' :: '\n' :: rest => [] :: lines rest
  | c :: rest =>
    match lines rest with
    | [] => [[c]]
    | line :: others => (c :: line) :: others

/-- The first line of a text; the empty text has the empty one. -/
def firstLine (text : List Char) : List Char :=
  (lines text).headD []

end ServiceIdl
