import ServiceIdl.Text.Alphabetic
import ServiceIdl.Text.Numeric

/-!
# Classes of characters

The classes of characters that tell the pieces of a source text apart. Names may
hold letters and numbers of every script; all other classes are plain lists.
-/

namespace ServiceIdl

/-- Tells whether a character is blank space between tokens. -/
def isBlank (c : Char) : Bool :=
  c = ' ' || c = '\t' || c = '\r' || c = '\n'

/-- Tells whether a character ends a line comment. -/
def isLineEnd (c : Char) : Bool :=
  c = '\n' || c = '\r'

/-- Tells whether a character delimits string literals. -/
def isQuote (c : Char) : Bool :=
  c = '"' || c = '\''

/-- Tells whether a number can start with a character. -/
def isNumberStart (c : Char) : Bool :=
  c = '+' || c = '-' || c.isDigit

/-- Tells whether a number can go on with a character. -/
def isNumberPart (c : Char) : Bool :=
  c.isDigit || c = '.'

/-- Tells whether a name can start with a character. -/
def isNameStart (c : Char) : Bool :=
  isAlphabetic c || c = '_'

/-- Tells whether a name can go on with a character. -/
def isNamePart (c : Char) : Bool :=
  isAlphabetic c || isNumeric c || c = '_' || c = '.'

end ServiceIdl
