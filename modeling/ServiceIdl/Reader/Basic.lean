import ServiceIdl.Error.Parse
import ServiceIdl.Token.Basic

/-!
# Readers

A document is read one token at a time. Each kind of node has a reader: a type of
states, which say what of the node has been read, and a function that reads one
token in a state. A reader of a node that ends with a fixed token is complete with
that token; where a part is optional, the reader of what follows it gets the token.

Documentation comments are not part of the grammar. Their text is pending until a
node takes it, or until it is cleared.

## Main definitions

- `Step`: what a reader does with a token
- `Reading`: reading with pending doc text
- `SpannedToken.unexpected`: the complaint that a token is out of place
-/

namespace ServiceIdl

/-- What a reader does with a token: it goes on in a state, or it has its result. -/
inductive Step (σ α : Type) where
  | more (state : σ)
  | done (result : α)
  deriving DecidableEq

/-- A computation that may fail with a parse error and may use the pending doc text. -/
abbrev Reading := StateT String (Except ParseError)

/-- Takes the pending doc text away. -/
def takeDoc : Reading String :=
  modifyGet fun pending => (pending, "")

/-- Forgets the pending doc text. -/
def clearDoc : Reading Unit :=
  set ""

namespace SpannedToken

/-- The error that a token stands where something else is expected. -/
def unexpected (t : SpannedToken) (expected : String) : ParseError :=
  ⟨.unexpectedToken expected t.token.displayName, t.span⟩

/-- Demands a certain symbol. -/
def expectSymbol (t : SpannedToken) (s : Symbol) : Except ParseError Unit :=
  if t.token = .symbol s then .ok ()
  else .error (t.unexpected (Token.symbol s).displayName)

/-- Demands an identifier. -/
def expectIdentifier (t : SpannedToken) : Except ParseError String :=
  match t.token with
  | .identifier name => .ok name
  | _ => .error (t.unexpected "identifier")

/-- Demands a number or a string literal, and keeps its text. -/
def expectLiteral (t : SpannedToken) : Except ParseError String :=
  match t.token with
  | .number text => .ok text
  | .string text => .ok text
  | _ => .error (t.unexpected "number or string literal")

/-- Tells whether a token may stand between the entries of a list. -/
def isSeparator (t : SpannedToken) : Bool :=
  t.token = .symbol .comma || t.token = .symbol .semicolon

end SpannedToken

end ServiceIdl
