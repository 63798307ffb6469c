import ServiceIdl.Text.Trim
import ServiceIdl.Token.CharClass

/-!
# The text of documentation comments

A documentation comment says what stands between its delimiters, without blank space around it.
-/

namespace ServiceIdl

/-- A comment without its delimiters; a text that lacks one of them is left as it is. -/
def stripDelimiters (comment : List Char) : List Char :=
  match comment with
  | '/' :: '*' :: '*' :: rest =>
    if ['*', '/'].isSuffixOf rest then rest.take (rest.length - 2) else comment
  | _ => comment

/-- What a documentation comment says: its text between the delimiters, without blank
space around it. -/
def docBody (comment : String) : String :=
  String.ofList (trim isBlank (stripDelimiters comment.toList))

end ServiceIdl
