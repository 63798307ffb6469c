import ServiceIdl.Proofs.Lexing.Comment

/-!
# Trivia

Trivia separate tokens and mean nothing. Whether a stretch of text is trivia depends on
what follows it, because a line comment takes the whole rest of its line.

## Main definitions

- `IsTriviaPiece`, `IsTrivia`: trivia in front of a text
- `IsClosedTrivia`: trivia in front of any text
-/

namespace ServiceIdl

/-- One blank or one comment without documentation, in front of the text `rest`. -/
inductive IsTriviaPiece : List Char → List Char → Prop where
  | blank {c : Char} {rest : List Char} (hblank : isBlank c = true) : IsTriviaPiece [c] rest
  | lineComment {comment rest : List Char} (hcomment : IsLineComment comment)
      (hends : EndsLine rest) : IsTriviaPiece comment rest
  | blockComment {comment rest : List Char} (hcomment : IsBlockComment comment)
      (hdoc : ¬IsDocComment comment) : IsTriviaPiece comment rest

/-- Blanks and comments without documentation, in front of the text `rest`. -/
inductive IsTrivia : List Char → List Char → Prop where
  | nil {rest : List Char} : IsTrivia [] rest
  | cons {piece gap rest : List Char} (hpiece : IsTriviaPiece piece (gap ++ rest))
      (hgap : IsTrivia gap rest) : IsTrivia (piece ++ gap) rest

/-- Blanks, line comments with the end of their line, and block comments without
documentation. -/
inductive IsClosedTrivia : List Char → Prop where
  | nil : IsClosedTrivia []
  | blank {c : Char} {gap : List Char} (hblank : isBlank c = true) (hgap : IsClosedTrivia gap) :
      IsClosedTrivia (c :: gap)
  | lineComment {comment : List Char} {c : Char} {gap : List Char}
      (hcomment : IsLineComment comment) (hend : isLineEnd c = true)
      (hgap : IsClosedTrivia gap) : IsClosedTrivia (comment ++ c :: gap)
  | blockComment {comment gap : List Char} (hcomment : IsBlockComment comment)
      (hdoc : ¬IsDocComment comment) (hgap : IsClosedTrivia gap) :
      IsClosedTrivia (comment ++ gap)

theorem EndsLine.cons {c : Char} (hc : isLineEnd c = true) (text : List Char) :
    EndsLine (c :: text) := by
  intro d hd
  obtain rfl : c = d := by simpa using hd
  exact hc

/-- A line ends at its line feed if it ended at the end of the text before. -/
theorem EndsLine.append_newline {text : List Char} (h : EndsLine text) (rest : List Char) :
    EndsLine (text ++ '\n' :: rest) := by
  cases text with
  | nil => exact .cons rfl rest
  | cons c text => exact .cons (h c rfl) _

/-- The ends of lines are blank. -/
theorem isBlank_of_isLineEnd {c : Char} (h : isLineEnd c = true) : isBlank c = true := by
  simp only [isLineEnd, Bool.or_eq_true, decide_eq_true_eq] at h
  rcases h with rfl | rfl <;> rfl

/-- A piece of trivia takes at least one character. -/
theorem IsTriviaPiece.ne_nil {piece rest : List Char} (h : IsTriviaPiece piece rest) :
    piece ≠ [] := by
  cases h with
  | blank => simp
  | lineComment hcomment =>
    rintro rfl
    simp [IsLineComment] at hcomment
  | blockComment hcomment =>
    rintro rfl
    obtain ⟨tail, htail⟩ := hcomment.opening
    simp at htail

/-- A piece of trivia stays one if a line feed is put behind the text that follows. -/
theorem IsTriviaPiece.append_newline {piece rest : List Char} (h : IsTriviaPiece piece rest)
    (more : List Char) : IsTriviaPiece piece (rest ++ '\n' :: more) := by
  cases h with
  | blank hblank => exact .blank hblank
  | lineComment hcomment hends => exact .lineComment hcomment (hends.append_newline more)
  | blockComment hcomment hdoc => exact .blockComment hcomment hdoc

namespace IsTrivia

theorem cons_blank {c : Char} {gap rest : List Char} (h : IsTrivia gap rest)
    (hblank : isBlank c = true) : IsTrivia (c :: gap) rest := by
  have hpiece : IsTriviaPiece [c] (gap ++ rest) := .blank hblank
  exact .cons hpiece h

/-- Trivia stay trivia if a line feed is put behind the text that follows. -/
theorem append_newline {gap rest : List Char} (h : IsTrivia gap rest) (more : List Char) :
    IsTrivia gap (rest ++ '\n' :: more) := by
  induction h with
  | nil => exact .nil
  | cons hpiece _ ih =>
    refine .cons ?_ ih
    rw [← List.append_assoc]
    exact hpiece.append_newline more

end IsTrivia

/-- Closed trivia are trivia wherever they stand. -/
theorem IsClosedTrivia.isTrivia {gap : List Char} (h : IsClosedTrivia gap) (rest : List Char) :
    IsTrivia gap rest := by
  induction h with
  | nil => exact .nil
  | @blank c gap hblank _ ih => exact ih.cons_blank hblank
  | @lineComment comment c gap hcomment hend _ ih =>
    refine .cons (.lineComment hcomment (.cons hend (gap ++ rest))) ?_
    exact ih.cons_blank (isBlank_of_isLineEnd hend)
  | blockComment hcomment hdoc _ ih => exact .cons (.blockComment hcomment hdoc) ih

end ServiceIdl
