import ServiceIdl.Token.Piece

/-!
# Scanning for one token

A cursor is a position in a source text together with the text that follows. A
scan passes over trivia and ends with the first token, or with the end of the
stream: the end of the text, or a fault.
-/

namespace ServiceIdl

/-- An element of a token stream as it is handed out: a token, or the error that
ends the stream. -/
abbrev Item := Except LexError SpannedToken

/-- How a token stream ends. -/
inductive Ending where
  /-- The text is used up. -/
  | endOfInput (span : Span)
  /-- The text goes on with something that is no token. -/
  | fault (error : LexError)
  deriving DecidableEq

/-- The last element of a stream with a given end. -/
def Ending.item : Ending → Item
  | endOfInput span => .ok ⟨.endOfInput, span⟩
  | fault error => .error error

/-- A place in a source text and the text from there on. -/
structure Cursor where
  /-- The place. -/
  position : Position
  /-- The text that follows. -/
  rest : List Char
  deriving DecidableEq

/-- What a scan finds: a token and the cursor behind it, or the end of the stream. -/
inductive Scanned where
  | token (token : SpannedToken) (next : Cursor)
  | ending (ending : Ending)
  deriving DecidableEq

namespace Cursor

/-- The cursor before the first character of a source text. -/
def start (source : String) : Cursor := ⟨.start, source.toList⟩

/-- The first token from a cursor on, with trivia skipped. -/
def scan (strict : Bool) : Cursor → Scanned
  | ⟨position, []⟩ => .ending (.endOfInput (.between position position))
  | ⟨position, c :: text⟩ =>
    let piece := Piece.head strict c text
    let behind := position.after piece.text
    match piece.kind with
    | .trivia => scan strict ⟨behind, piece.rest⟩
    | .token token => .token ⟨token, .between position behind⟩ ⟨behind, piece.rest⟩
    | .fault fault => .ending (.fault ⟨fault, .between position behind⟩)
termination_by cursor => cursor.rest.length
decreasing_by exact Piece.length_rest_head_lt strict c text

/-- The cursor behind a token has less text before it. -/
theorem length_rest_of_scan_eq_token {strict : Bool} {cursor next : Cursor}
    {token : SpannedToken} (h : cursor.scan strict = .token token next) :
    next.rest.length < cursor.rest.length := by
  fun_induction scan strict cursor with
  | case1 => simp at h
  | case2 position c text piece behind hkind ih =>
    exact Nat.lt_trans (ih h) (Piece.length_rest_head_lt strict c text)
  | case3 position c text piece behind found hkind =>
    obtain ⟨rfl, rfl⟩ := Scanned.token.inj h
    exact Piece.length_rest_head_lt strict c text
  | case4 => simp at h

end Cursor

end ServiceIdl
