/-!
# Trimming

What counts as blank space is left to the caller. Inside a text nothing is dropped.
-/

namespace ServiceIdl

/-- A text without the characters of a class at its start and at its end. -/
def trim (drop : Char → Bool) (text : List Char) : List Char :=
  ((text.dropWhile drop).reverse.dropWhile drop).reverse

end ServiceIdl
