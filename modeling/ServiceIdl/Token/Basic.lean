import ServiceIdl.Text.Position

/-!
# Tokens

Keywords and symbols are fixed texts; the other tokens carry the text they were
written with. Constructors of `Keyword` are named for what the word introduces.
-/

namespace ServiceIdl

/-- The reserved words. -/
inductive Keyword where
  | namespaceHeader
  | includeHeader
  | constDef
  | typedefDef
  | enumDef
  | structDef
  | exceptionDef
  | serviceDef
  | extendsClause
  | requiredMark
  | optionalMark
  | onewayMark
  | throwsClause
  | voidResult
  | listType
  | setType
  | mapType
  deriving DecidableEq

namespace Keyword

/-- How a reserved word is written. -/
def text : Keyword → String
  | namespaceHeader => "namespace"
  | includeHeader => "include"
  | constDef => "const"
  | typedefDef => "typedef"
  | enumDef => "enum"
  | structDef => "struct"
  | exceptionDef => "exception"
  | serviceDef => "service"
  | extendsClause => "extends"
  | requiredMark => "required"
  | optionalMark => "optional"
  | onewayMark => "oneway"
  | throwsClause => "throws"
  | voidResult => "void"
  | listType => "list"
  | setType => "set"
  | mapType => "map"

/-- Every reserved word. -/
def all : List Keyword :=
  [namespaceHeader, includeHeader, constDef, typedefDef, enumDef, structDef, exceptionDef,
    serviceDef, extendsClause, requiredMark, optionalMark, onewayMark, throwsClause, voidResult,
    listType, setType, mapType]

/-- The reserved word with a given text. -/
def ofText? (word : String) : Option Keyword :=
  all.find? fun k => k.text = word

/-- A word is reserved exactly if it is the text of a reserved word. -/
theorem ofText?_eq_some_iff {word : String} {k : Keyword} :
    ofText? word = some k ↔ k.text = word := by
  constructor
  · intro h
    simpa using List.find?_some h
  · rintro rfl
    cases k <;> decide

end Keyword

/-- The punctuation characters. -/
inductive Symbol where
  | leftBrace
  | rightBrace
  | leftParen
  | rightParen
  | leftAngle
  | rightAngle
  | comma
  | semicolon
  | colon
  | assign
  | star
  deriving DecidableEq

namespace Symbol

/-- The character of a symbol. -/
def char : Symbol → Char
  | leftBrace => '{'
  | rightBrace => '}'
  | leftParen => '('
  | rightParen => ')'
  | leftAngle => '<'
  | rightAngle => '>'
  | comma => ','
  | semicolon => ';'
  | colon => ':'
  | assign => '='
  | star => '*'

/-- Every symbol. -/
def all : List Symbol :=
  [leftBrace, rightBrace, leftParen, rightParen, leftAngle, rightAngle, comma, semicolon, colon,
    assign, star]

/-- The symbol with a given character. -/
def ofChar? (c : Char) : Option Symbol :=
  all.find? fun s => s.char = c

/-- A character is punctuation exactly if it is the character of a symbol. -/
theorem ofChar?_eq_some_iff {c : Char} {s : Symbol} : ofChar? c = some s ↔ s.char = c := by
  constructor
  · intro h
    simpa using List.find?_some h
  · rintro rfl
    cases s <;> decide

end Symbol

/-- The units of a source text. -/
inductive Token where
  /-- A reserved word. -/
  | keyword (word : Keyword)
  /-- A punctuation character. -/
  | symbol (symbol : Symbol)
  /-- A name that is no reserved word. -/
  | identifier (text : String)
  /-- A number as it was written. -/
  | number (text : String)
  /-- A string literal with its quotes. -/
  | string (text : String)
  /-- A documentation comment with its delimiters. -/
  | docComment (text : String)
  /-- The end of the source text. -/
  | endOfInput
  deriving DecidableEq

namespace Token

/-- How a token is written. -/
def text : Token → String
  | keyword word => word.text
  | symbol s => s.char.toString
  | identifier text => text
  | number text => text
  | string text => text
  | docComment text => text
  | endOfInput => ""

/-- How messages name a token. -/
def displayName : Token → String
  | keyword word => "keyword '" ++ word.text ++ "'"
  | symbol s => "'" ++ s.char.toString ++ "'"
  | identifier text => "identifier '" ++ text ++ "'"
  | number text => "number " ++ text
  | string text => "string " ++ text
  | docComment _ => "doc comment"
  | endOfInput => "end of input"

end Token

/-- A token and where it stands. -/
structure SpannedToken where
  /-- The token. -/
  token : Token
  /-- Where it stands. -/
  span : Span
  deriving DecidableEq

end ServiceIdl
