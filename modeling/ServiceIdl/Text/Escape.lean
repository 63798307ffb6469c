import ServiceIdl.Text.DefaultIgnorable
import ServiceIdl.Text.GraphemeExtend
import ServiceIdl.Text.Printable

/-!
# Characters in messages

A message that quotes one character must show it unmistakably, whatever it is.
Quotes, the backslash and the common controls have short escapes; a character
that cannot be shown alone is written by its code point.
-/

namespace ServiceIdl

/-- Tells whether a character has a shape of its own: it is printable, it is not
ignorable by default, and it does not attach to the character before it. -/
def canStandAlone (c : Char) : Bool :=
  isPrintable c && !isDefaultIgnorable c && !isExtendingMark c

/-- A character by its code point in lower-case hexadecimal, without padding. -/
def escapeCodePoint (c : Char) : String :=
  "\\u\x7b" ++ String.ofList (Nat.toDigits 16 c.toNat) ++ "\x7d"

/-- A character as messages show it between single quotes. -/
def escapeChar (c : Char) : String :=
  match c with
  | '\x00' => "\\0"
  | '\t' => "\\t"
  | '\r' => "\\r"
  | '\n' => "\\n"
  | '\\' => "\\\\"
  | '"' => "\\\""
  | '\'' => "\\'"
  | _ => if canStandAlone c then c.toString else escapeCodePoint c

end ServiceIdl
