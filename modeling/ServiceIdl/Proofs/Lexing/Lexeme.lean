import ServiceIdl.Proofs.Lexing.Comment

/-!
# Lexemes

A lexeme is a text that is a token as a whole. Its form is said here by the characters
it consists of; that the scanner cuts off lexemes is said elsewhere.

## Main definitions

- `IsName`, `IsNumber`, `IsStrictNumber`, `IsQuoted`: the forms of lexemes
- `Token.IsLexeme`: the text of a token is of the form of its kind
- `Token.GoesOnWith`, `Token.EndsBefore`: where a token ends
-/

namespace ServiceIdl

/-- One digit or more. -/
def IsDigits (text : List Char) : Prop :=
  text ≠ [] ∧ ∀ c ∈ text, c.isDigit = true

/-- A letter or an underscore, then letters, numerals, underscores and dots. -/
def IsName (text : List Char) : Prop :=
  ∃ first rest, text = first :: rest ∧ isNameStart first = true ∧
    ∀ c ∈ rest, isNamePart c = true

/-- A sign or a digit, then digits and dots. -/
def IsNumber (text : List Char) : Prop :=
  ∃ first rest, text = first :: rest ∧ isNumberStart first = true ∧
    ∀ c ∈ rest, isNumberPart c = true

/-- At most one sign, digits, and at most one fraction, which is a dot and digits. -/
def IsStrictNumber (text : List Char) : Prop :=
  ∃ sign whole fraction, text = sign ++ whole ++ fraction ∧
    (sign = [] ∨ sign = ['+'] ∨ sign = ['-']) ∧ IsDigits whole ∧
    (fraction = [] ∨ ∃ digits, fraction = '.' :: digits ∧ IsDigits digits)

/-- A quote, characters other than that quote, and the quote again. -/
def IsQuoted (text : List Char) : Prop :=
  ∃ quote body, text = quote :: (body ++ [quote]) ∧ isQuote quote = true ∧ quote ∉ body

namespace Token

/-- The text of a token has the form of its kind. With `strict`, numbers have the strict
form. The end of the input has no text. -/
def IsLexeme (strict : Bool) : Token → Prop
  | keyword _ => True
  | symbol _ => True
  | identifier text => IsName text.toList ∧ ∀ k : Keyword, k.text ≠ text
  | number text => IsNumber text.toList ∧ (strict = true → IsStrictNumber text.toList)
  | string text => IsQuoted text.toList
  | docComment text => IsDocComment text.toList
  | endOfInput => False

/-- Tells whether a character right behind a token would have been part of it. -/
def GoesOnWith : Token → Char → Bool
  | keyword _, c => isNamePart c
  | identifier _, c => isNamePart c
  | number _, c => isNumberPart c
  | _, _ => false

/-- What stands behind a token does not continue it. -/
def EndsBefore (token : Token) (rest : List Char) : Prop :=
  ∀ c, rest.head? = some c → token.GoesOnWith c = false

end Token

section Runs

variable {p : Char → Bool} {first rest : List Char}

/-- A run of characters of a class ends before the first character outside of it. -/
theorem takeWhile_append_of_head (hfirst : ∀ c ∈ first, p c = true)
    (hrest : ∀ c, rest.head? = some c → p c = false) : (first ++ rest).takeWhile p = first := by
  rw [List.takeWhile_append_of_pos hfirst]
  cases rest with
  | nil => rw [List.takeWhile_nil, List.append_nil]
  | cons c rest => rw [List.takeWhile_cons_of_neg (by simp [hrest c rfl]), List.append_nil]

/-- What stands behind a run starts with the first character outside of its class. -/
theorem dropWhile_append_of_head (hfirst : ∀ c ∈ first, p c = true)
    (hrest : ∀ c, rest.head? = some c → p c = false) : (first ++ rest).dropWhile p = rest := by
  rw [List.dropWhile_append_of_pos hfirst]
  cases rest with
  | nil => rw [List.dropWhile_nil]
  | cons c rest => rw [List.dropWhile_cons_of_neg (by simp [hrest c rfl])]

/-- What stands behind a run does not start with a character of its class. -/
theorem eq_false_of_head?_dropWhile {c : Char} (h : (rest.dropWhile p).head? = some c) :
    p c = false := by
  have := List.head?_dropWhile_not p rest
  rw [h] at this
  simpa using this

end Runs

theorem isDigits_iff {text : List Char} : isDigits text = true ↔ IsDigits text := by
  simp [isDigits, IsDigits]

private theorem digit_ne_sign {c : Char} (h : c.isDigit = true) : c ≠ '+' ∧ c ≠ '-' := by
  constructor <;> rintro rfl <;> simp at h

/-- Only a sign is taken off a numeral. -/
theorem unsigned_append {sign text : List Char}
    (hsign : sign = [] ∨ sign = ['+'] ∨ sign = ['-']) (htext : IsDigits text)
    (fraction : List Char) : unsigned (sign ++ (text ++ fraction)) = text ++ fraction := by
  obtain ⟨hne, hdigits⟩ := htext
  rcases hsign with rfl | rfl | rfl
  · cases text with
    | nil => exact absurd rfl hne
    | cons c text =>
      obtain ⟨hplus, hminus⟩ := digit_ne_sign (hdigits c List.mem_cons_self)
      unfold unsigned
      split
      · next heq => exact absurd (List.cons.inj heq).1 hplus
      · next heq => exact absurd (List.cons.inj heq).1 hminus
      · rfl
  · rfl
  · rfl

private theorem exists_sign (text : List Char) :
    ∃ sign, text = sign ++ unsigned text ∧ (sign = [] ∨ sign = ['+'] ∨ sign = ['-']) := by
  unfold unsigned
  split
  · exact ⟨['+'], rfl, .inr (.inl rfl)⟩
  · exact ⟨['-'], rfl, .inr (.inr rfl)⟩
  · exact ⟨[], rfl, .inl rfl⟩

/-- The test for the strict form is exact. -/
theorem hasStrictForm_iff {text : List Char} :
    hasStrictForm text = true ↔ IsStrictNumber text := by
  constructor
  · intro h
    obtain ⟨sign, htext, hsign⟩ := exists_sign text
    have happend := List.takeWhile_append_dropWhile (p := Char.isDigit) (l := unsigned text)
    refine ⟨sign, (unsigned text).takeWhile Char.isDigit, (unsigned text).dropWhile Char.isDigit,
      by rw [List.append_assoc, happend]; exact htext, hsign, ?_⟩
    unfold hasStrictForm at h
    split at h
    · next hdrop => exact ⟨isDigits_iff.1 h, .inl hdrop⟩
    · next dot digits hdrop =>
      simp only [Bool.and_eq_true, beq_iff_eq] at h
      obtain ⟨⟨hwhole, rfl⟩, hdigits⟩ := h
      exact ⟨isDigits_iff.1 hwhole, .inr ⟨digits, hdrop, isDigits_iff.1 hdigits⟩⟩
  · rintro ⟨sign, whole, fraction, rfl, hsign, hwhole, hfraction⟩
    have hhead : ∀ c, fraction.head? = some c → c.isDigit = false := by
      rcases hfraction with rfl | ⟨digits, rfl, _⟩
      · simp
      · simp
    unfold hasStrictForm
    rw [List.append_assoc, unsigned_append hsign hwhole, takeWhile_append_of_head hwhole.2 hhead,
      dropWhile_append_of_head hwhole.2 hhead]
    rcases hfraction with rfl | ⟨digits, rfl, hdigits⟩
    · exact isDigits_iff.2 hwhole
    · simp [isDigits_iff.2 hwhole, isDigits_iff.2 hdigits]

namespace Token

/-- The text of a lexeme is not empty. -/
theorem IsLexeme.text_ne_nil {strict : Bool} {token : Token} (h : token.IsLexeme strict) :
    token.text.toList ≠ [] := by
  cases token with
  | keyword word => cases word <;> decide
  | symbol s => simp [text]
  | identifier text =>
    obtain ⟨⟨first, rest, htext, _⟩, _⟩ := h
    simp [Token.text, htext]
  | number text =>
    obtain ⟨⟨first, rest, htext, _⟩, _⟩ := h
    simp [Token.text, htext]
  | string text =>
    obtain ⟨quote, body, htext, _⟩ := h
    simp [Token.text, htext]
  | docComment text =>
    obtain ⟨rest, htext⟩ := h.opening
    simp [Token.text, ← htext]
  | endOfInput => exact absurd h id

end Token

end ServiceIdl
