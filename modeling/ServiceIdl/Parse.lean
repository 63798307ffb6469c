import ServiceIdl.DocText
import ServiceIdl.Reader.Document
import ServiceIdl.Token.Stream

/-!
# Parsing

A source text is parsed by reading its token stream to the end. The first fault ends
the reading, and there is no document then.
-/

namespace ServiceIdl

/-- Reads one element of a token stream. A documentation comment joins the pending doc
text, and a lexical error ends the reading. -/
def readItem (limit : Nat) (state : DocumentReader.State) : Item → Reading DocumentReader.State
  | .error error => throw (.ofLex error)
  | .ok t =>
    match t.token with
    | .docComment comment => do
      modify (· ++ docBody comment)
      return state
    | _ => DocumentReader.read limit state t

/-- Reads elements of a token stream in order. -/
def readItems (limit : Nat) (state : DocumentReader.State) (items : List Item) :
    Reading DocumentReader.State :=
  items.foldlM (readItem limit) state

/-- Reading goes on where it was left. -/
theorem readItems_append (limit : Nat) (state : DocumentReader.State) (first second : List Item) :
    readItems limit state (first ++ second) =
      readItems limit state first >>= fun state => readItems limit state second :=
  List.foldlM_append

/-- The document that a source text denotes, or the first fault in it. A token stream
ends with a fault, or with the end of the input, which is refused inside a statement;
so the document that has been read up to the end is complete. -/
def parse (options : ParseOptions) (source : String) : Except ParseError Document := do
  let items := (TokenStream.ofSource options source).items
  let (state, _) ← (readItems options.maxTypeDepth DocumentReader.start items).run ""
  return state.document

end ServiceIdl
