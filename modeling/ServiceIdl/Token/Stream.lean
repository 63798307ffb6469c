import ServiceIdl.Options
import ServiceIdl.Token.Cursor

/-!
# Token streams

The token stream of a source text is all its tokens in order and the way it ends. It is the
same whether it is read at once or by one scan after the other.
-/

namespace ServiceIdl

/-- The tokens of a text and the end behind them. -/
structure TokenStream where
  /-- The tokens; none of them is the end of the input. -/
  tokens : List SpannedToken
  /-- How the stream ends. -/
  ending : Ending
  deriving DecidableEq

namespace TokenStream

/-- A stream element by element; the last one is the ending. -/
def items (stream : TokenStream) : List Item :=
  stream.tokens.map .ok ++ [stream.ending.item]

/-- A token put in front of a stream. -/
def cons (token : SpannedToken) (stream : TokenStream) : TokenStream :=
  ⟨token :: stream.tokens, stream.ending⟩

/-- The stream from a cursor on: trivia are dropped, and a fault ends the stream. -/
def fromCursor (strict : Bool) : Cursor → TokenStream
  | ⟨position, []⟩ => ⟨[], .endOfInput (.between position position)⟩
  | ⟨position, c :: text⟩ =>
    let piece := Piece.head strict c text
    let behind := position.after piece.text
    match piece.kind with
    | .trivia => fromCursor strict ⟨behind, piece.rest⟩
    | .token token =>
      (fromCursor strict ⟨behind, piece.rest⟩).cons ⟨token, .between position behind⟩
    | .fault fault => ⟨[], .fault ⟨fault, .between position behind⟩⟩
termination_by cursor => cursor.rest.length
decreasing_by all_goals exact Piece.length_rest_head_lt strict c text

/-- A stream is what one scan finds, and the stream behind it. -/
theorem fromCursor_eq_scan (strict : Bool) (cursor : Cursor) :
    fromCursor strict cursor =
      match cursor.scan strict with
      | .token token next => (fromCursor strict next).cons token
      | .ending ending => ⟨[], ending⟩ := by
  fun_induction Cursor.scan strict cursor with
  | case1 position => rw [fromCursor]
  | case2 position c text piece behind hkind ih =>
    rw [← ih, fromCursor]
    simp only [piece, behind, hkind]
  | case3 position c text piece behind token hkind =>
    rw [fromCursor]
    simp only [piece, behind, hkind]
  | case4 position c text piece behind fault hkind =>
    rw [fromCursor]
    simp only [piece, behind, hkind]

/-- The stream of a source text. -/
def ofSource (options : ParseOptions) (source : String) : TokenStream :=
  fromCursor options.strictNumbers (.start source)

end TokenStream

/-- All tokens of a source text, the end of the input last, or the fault that ends
its stream. -/
def tokenize (options : ParseOptions) (source : String) :
    Except LexError (List SpannedToken) :=
  let stream := TokenStream.ofSource options source
  match stream.ending with
  | .endOfInput span => .ok (stream.tokens ++ [⟨.endOfInput, span⟩])
  | .fault error => .error error

end ServiceIdl
