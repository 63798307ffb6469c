import ServiceIdl.Error.Lex
import ServiceIdl.Text.Numeral
import ServiceIdl.Token.Basic
import ServiceIdl.Token.CharClass

/-!
# Pieces of a source text

A source text is a sequence of pieces: trivia, which separate tokens and mean
nothing, tokens, and faulty stretches. The first character of a text decides
which piece stands at its head, except that a slash may also begin a comment.

## Main definitions

- `PieceKind`, `Piece`: what a piece is, and a piece with the text behind it
- `Piece.head`: the piece at the head of a nonempty text

## Design notes

A blank is a piece of its own, so a run of blanks is a run of pieces. Names,
numbers and comments take as many characters as they can.
-/

namespace ServiceIdl

/-- What a stretch of source text is. -/
inductive PieceKind where
  /-- Blank space or a comment without documentation. -/
  | trivia
  /-- A token. -/
  | token (token : Token)
  /-- A stretch that is no token. -/
  | fault (fault : LexFault)
  deriving DecidableEq

/-- A stretch at the head of a text, and the text behind it. -/
structure Piece where
  /-- What the stretch is. -/
  kind : PieceKind
  /-- The stretch. -/
  text : List Char
  /-- The text behind it. -/
  rest : List Char
  deriving DecidableEq

namespace Piece

/-- The text up to the first end of a block comment, and the text behind that end. -/
def splitCommentEnd? : List Char → Option (List Char × List Char)
  | [] => none
  | '*' :: '/' :: rest => some ([], rest)
  | c :: text => (splitCommentEnd? text).map fun (body, rest) => (c :: body, rest)

/-- A comment up to the end of the line. -/
def lineComment (text : List Char) : Piece :=
  ⟨.trivia, text.takeWhile (!isLineEnd ·), text.dropWhile (!isLineEnd ·)⟩

/-- A comment whose opening is cut off already. It is documentation if its body
starts with a further star, which cannot be the star of its end. -/
def blockComment (text : List Char) : Piece :=
  match splitCommentEnd? text with
  | none => ⟨.fault .unterminatedComment, '/' :: '*' :: text, []⟩
  | some (body, rest) =>
    let whole := '/' :: '*' :: (body ++ ['*', '/'])
    if body.head? = some '*' then ⟨.token (.docComment (String.ofList whole)), whole, rest⟩
    else ⟨.trivia, whole, rest⟩

/-- The piece that starts with a slash: a comment, or a fault. -/
def afterSlash (text : List Char) : Piece :=
  match text with
  | '/' :: _ => lineComment ('/' :: text)
  | '*' :: body => blockComment body
  | _ => ⟨.fault (.unexpectedChar '/'), ['/'], text⟩

/-- The string literal that starts with a quote and ends at the next one of its
kind. It has no escapes and may span lines. -/
def quoted (quote : Char) (text : List Char) : Piece :=
  match text.dropWhile (· ≠ quote) with
  | [] => ⟨.fault .unterminatedString, quote :: text, []⟩
  | close :: rest =>
    let whole := quote :: (text.takeWhile (· ≠ quote) ++ [close])
    ⟨.token (.string (String.ofList whole)), whole, rest⟩

/-- The number at the head of a text that starts with `first`. -/
def number (strict : Bool) (first : Char) (text : List Char) : Piece :=
  let whole := first :: text.takeWhile isNumberPart
  if strict && !hasStrictForm whole then
    ⟨.fault (.invalidNumber (String.ofList whole)), whole, text.dropWhile isNumberPart⟩
  else ⟨.token (.number (String.ofList whole)), whole, text.dropWhile isNumberPart⟩

/-- A word as a token: a reserved word or an identifier. -/
def wordToken (word : String) : Token :=
  match Keyword.ofText? word with
  | some k => .keyword k
  | none => .identifier word

/-- The word at the head of a text that starts with `first`. -/
def word (first : Char) (text : List Char) : Piece :=
  let whole := first :: text.takeWhile isNamePart
  ⟨.token (wordToken (String.ofList whole)), whole, text.dropWhile isNamePart⟩

/-- The piece of one character that belongs to no longer piece. -/
def punctuation (c : Char) (text : List Char) : Piece :=
  match Symbol.ofChar? c with
  | some s => ⟨.token (.symbol s), [c], text⟩
  | none => ⟨.fault (.unexpectedChar c), [c], text⟩

/-- The piece at the head of the text `c :: text`. With `strict`, numbers must have
the strict form. -/
def head (strict : Bool) (c : Char) (text : List Char) : Piece :=
  if isBlank c then ⟨.trivia, [c], text⟩
  else if c = '#' then lineComment (c :: text)
  else if c = '/' then afterSlash text
  else if isQuote c then quoted c text
  else if isNumberStart c then number strict c text
  else if isNameStart c then word c text
  else punctuation c text

private theorem append_of_splitCommentEnd? {text body rest : List Char}
    (h : splitCommentEnd? text = some (body, rest)) : text = body ++ '*' :: '/' :: rest := by
  fun_induction splitCommentEnd? text generalizing body rest with
  | case1 => simp at h
  | case2 tail =>
    obtain ⟨rfl, rfl⟩ := Prod.mk.inj (Option.some.inj h)
    rfl
  | case3 c tail _ ih =>
    obtain ⟨⟨b, r⟩, hsplit, heq⟩ := Option.map_eq_some_iff.1 h
    obtain ⟨rfl, rfl⟩ := Prod.mk.inj heq
    rw [ih hsplit, List.cons_append]

private theorem text_append_rest_blockComment (text : List Char) :
    (blockComment text).text ++ (blockComment text).rest = '/' :: '*' :: text := by
  unfold blockComment
  split
  · simp
  · next body rest hsplit =>
    rw [append_of_splitCommentEnd? hsplit]
    dsimp only
    split <;> simp

private theorem text_append_rest_quoted (quote : Char) (text : List Char) :
    (quoted quote text).text ++ (quoted quote text).rest = quote :: text := by
  unfold quoted
  split
  · simp
  · next close rest hrest =>
    have happend := List.takeWhile_append_dropWhile (p := (· ≠ quote)) (l := text)
    rw [hrest] at happend
    simp only [List.cons_append, List.append_assoc, List.nil_append]
    rw [happend]

/-- The piece at the head of a text and the text behind it make up the text. -/
theorem text_append_rest_head (strict : Bool) (c : Char) (text : List Char) :
    (head strict c text).text ++ (head strict c text).rest = c :: text := by
  unfold head
  split
  · rfl
  split
  · exact List.takeWhile_append_dropWhile
  split
  · next hslash =>
    subst hslash
    unfold afterSlash
    split
    · exact List.takeWhile_append_dropWhile
    · exact text_append_rest_blockComment _
    · rfl
  split
  · exact text_append_rest_quoted c text
  split
  · unfold number
    dsimp only
    split <;> exact congrArg (c :: ·) List.takeWhile_append_dropWhile
  split
  · exact congrArg (c :: ·) List.takeWhile_append_dropWhile
  · unfold punctuation
    split <;> rfl

private theorem text_lineComment_ne_nil {c : Char} {text : List Char} (h : isLineEnd c = false) :
    (lineComment (c :: text)).text ≠ [] := by
  simp [lineComment, h]

/-- Every piece takes at least one character. -/
theorem text_head_ne_nil (strict : Bool) (c : Char) (text : List Char) :
    (head strict c text).text ≠ [] := by
  unfold head
  split
  · simp
  split
  · next hhash =>
    subst hhash
    exact text_lineComment_ne_nil rfl
  split
  · unfold afterSlash
    split
    · exact text_lineComment_ne_nil rfl
    · unfold blockComment
      split
      · simp
      · dsimp only
        split <;> simp
    · simp
  split
  · unfold quoted
    split <;> simp
  split
  · unfold number
    dsimp only
    split <;> simp
  split
  · simp [word]
  · unfold punctuation
    split <;> simp

/-- The text behind the piece at the head is shorter than the whole text. -/
theorem length_rest_head_lt (strict : Bool) (c : Char) (text : List Char) :
    (head strict c text).rest.length < (c :: text).length := by
  have happend := congrArg List.length (text_append_rest_head strict c text)
  have hpos := List.length_pos_iff.2 (text_head_ne_nil strict c text)
  rw [List.length_append] at happend
  omega

end Piece

end ServiceIdl
