import ServiceIdl.Error.Lex

/-!
# Parse errors

Reading stops at the first fault. A lexical error is one kind of parse error; the
other kinds are faults of a token that does not fit its place.
-/

namespace ServiceIdl

/-- The two kinds of ascending numbers in a document. -/
inductive IndexKind where
  | field
  | enumValue
  deriving DecidableEq

/-- The name of a kind of numbers. -/
def IndexKind.name : IndexKind → String
  | .field => "field index"
  | .enumValue => "enum value"

/-- Why a source text is not a document. -/
inductive ParseFault where
  /-- A token stands where only others are allowed. -/
  | unexpectedToken (expected found : String)
  /-- A number is lower than the one that its list had reached. -/
  | indexOutOfOrder (kind : IndexKind) (value : Int32) (expected : Int)
  /-- A number is not an integer of 32 bits. -/
  | invalidInteger (text : String)
  /-- A type nests more containers than the options allow. -/
  | typeTooDeep (limit : Nat)
  /-- The text is not a sequence of tokens. -/
  | lexical (fault : LexFault)
  deriving DecidableEq

/-- The wording of a fault, without its place. -/
def ParseFault.message : ParseFault → String
  | .unexpectedToken expected found => "expected " ++ expected ++ ", found " ++ found
  | .indexOutOfOrder kind value expected =>
    kind.name ++ " " ++ toString value.toInt ++ " is out of order, expected at least "
      ++ toString expected
  | .invalidInteger text => "invalid integer '" ++ text ++ "'"
  | .typeTooDeep limit => "type nesting exceeds the limit of " ++ toString limit
  | .lexical fault => fault.message

/-- A fault and the text it was found in. -/
structure ParseError where
  /-- What is wrong. -/
  fault : ParseFault
  /-- Where it is wrong. -/
  span : Span
  deriving DecidableEq

namespace ParseError

/-- A lexical error as a parse error. -/
def ofLex (e : LexError) : ParseError := ⟨.lexical e.fault, e.span⟩

/-- The wording of an error: its fault, then its place. -/
def message (e : ParseError) : String :=
  e.fault.message ++ " at " ++ e.span.place

/-- The wording of the lexical fault behind an error, if there is one. -/
def cause? (e : ParseError) : Option String :=
  match e.fault with
  | .lexical fault => some fault.message
  | _ => none

/-- The byte offset at which the faulty text starts. -/
def offset (e : ParseError) : Nat := e.span.start.offset

end ParseError

end ServiceIdl
