/-!
# Numerals

Numbers in interface definitions are decimal. Two readings are needed: whether
a number is written in the strict form, and which 32-bit integer it denotes.
-/

namespace ServiceIdl

/-- A numeral without its sign, if it has one. -/
def unsigned : List Char → List Char
  | '+' :: digits => digits
  | '-' :: digits => digits
  | digits => digits

/-- Tells whether a text is one digit or more. -/
def isDigits (text : List Char) : Bool :=
  !text.isEmpty && text.all Char.isDigit

/-- Tells whether a text is an optional sign, digits, and at most one fraction,
which is a dot and digits. -/
def hasStrictForm (text : List Char) : Bool :=
  let whole := (unsigned text).takeWhile Char.isDigit
  match (unsigned text).dropWhile Char.isDigit with
  | [] => isDigits whole
  | dot :: fraction => isDigits whole && dot == '.' && isDigits fraction

/-- The value of a list of digits. -/
def digitsValue (digits : List Char) : Nat :=
  digits.foldl (fun value digit => 10 * value + (digit.toNat - '0'.toNat)) 0

/-- The integer that an optional sign and one digit or more denote. -/
def readInt? (text : List Char) : Option Int :=
  if isDigits (unsigned text) then
    let magnitude : Int := digitsValue (unsigned text)
    some (if text.head? = some '-' then -magnitude else magnitude)
  else none

/-- An integer as one of 32 bits, if it fits. -/
def int32? (value : Int) : Option Int32 :=
  if Int32.minValue.toInt ≤ value ∧ value ≤ Int32.maxValue.toInt then
    some (Int32.ofInt value)
  else none

/-- The 32-bit integer that a text denotes. -/
def readInt32? (text : List Char) : Option Int32 :=
  (readInt? text).bind int32?

/-- An integer that fits into 32 bits keeps its value there. -/
theorem toInt_of_int32?_eq_some {value : Int} {word : Int32} (h : int32? value = some word) :
    word.toInt = value := by
  unfold int32? at h
  split at h
  · next hrange =>
    obtain rfl := Option.some.inj h
    exact Int32.toInt_ofInt_of_le hrange.1 (by
      have := hrange.2
      simp only [Int32.toInt_maxValue] at this
      omega)
  · simp at h

end ServiceIdl
