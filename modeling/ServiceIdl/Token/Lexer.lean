import ServiceIdl.Token.Stream

/-!
# Reading a token stream on demand

A lexer hands out the elements of a token stream one at a time and scans no
further than it is asked to. It can be asked in two ways that may be mixed: as a
source that repeats its last element forever, or as a sequence that stops behind
it.

## Main definitions

- `Lexer`, `Lexer.ofSource`
- `Lexer.nextToken`: repeats the ending
- `Lexer.next?`: nothing follows the ending
- `Lexer.drain`: all that `Lexer.next?` still has to give
-/

namespace ServiceIdl

/-- A token stream that is being read. -/
inductive Lexer where
  /-- The stream goes on from a cursor. -/
  | reading (strict : Bool) (cursor : Cursor)
  /-- The ending has been handed out. -/
  | ended (ending : Ending)
  deriving DecidableEq

namespace Lexer

/-- The lexer of a source text, with nothing read yet. -/
def ofSource (options : ParseOptions) (source : String) : Lexer :=
  .reading options.strictNumbers (.start source)

/-- The next element. Once the stream has ended, the ending is repeated. -/
def nextToken : Lexer → Item × Lexer
  | reading strict cursor =>
    match cursor.scan strict with
    | .token token next => (.ok token, reading strict next)
    | .ending ending => (ending.item, ended ending)
  | ended ending => (ending.item, ended ending)

/-- The next element, if the ending has not been handed out. -/
def next? (lexer : Lexer) : Option Item × Lexer :=
  match lexer with
  | reading .. => (some lexer.nextToken.1, lexer.nextToken.2)
  | ended _ => (none, lexer)

/-- The elements that have not been handed out, all at once. -/
def drain : Lexer → List Item × Lexer
  | reading strict cursor =>
    let stream := TokenStream.fromCursor strict cursor
    (stream.items, ended stream.ending)
  | ended ending => ([], ended ending)

/-- Draining gives one element after the other as long as there is a next one. -/
theorem drain_eq_next? (lexer : Lexer) :
    lexer.drain.1 =
      match lexer.next? with
      | (some item, rest) => item :: rest.drain.1
      | (none, _) => [] := by
  cases lexer with
  | ended ending => rfl
  | reading strict cursor =>
    simp only [drain, next?, nextToken]
    rw [TokenStream.fromCursor_eq_scan]
    cases cursor.scan strict <;> rfl

end Lexer

end ServiceIdl
