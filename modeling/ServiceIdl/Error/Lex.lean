import ServiceIdl.Text.Escape
import ServiceIdl.Text.Position

/-!
# Lexical errors

A lexical error is a stretch of text that is not a token. It ends the token
stream.
-/

namespace ServiceIdl

/-- Why a stretch of text is not a token. -/
inductive LexFault where
  /-- No token starts with this character. -/
  | unexpectedChar (c : Char)
  /-- The closing quote is missing. -/
  | unterminatedString
  /-- The end of a block comment is missing. -/
  | unterminatedComment
  /-- A number without the strict form, where that form is required. -/
  | invalidNumber (text : String)
  deriving DecidableEq

/-- The wording of a lexical fault. -/
def LexFault.message : LexFault → String
  | .unexpectedChar c => "unexpected character '" ++ escapeChar c ++ "'"
  | .unterminatedString => "unterminated string literal"
  | .unterminatedComment => "unterminated block comment"
  | .invalidNumber text => "invalid number: '" ++ text ++ "'"

/-- A lexical fault and the text it was found in. -/
structure LexError where
  /-- What is wrong. -/
  fault : LexFault
  /-- Where it is wrong. -/
  span : Span
  deriving DecidableEq

/-- The wording of a lexical error, which does not name the place. -/
def LexError.message (e : LexError) : String := e.fault.message

end ServiceIdl
