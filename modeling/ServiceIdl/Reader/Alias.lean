import ServiceIdl.Document.Basic
import ServiceIdl.Reader.TypeExpr

/-!
# Reading constants and typedefs

Both give a name to something, a literal or a type, and start with a type. Their
readers start behind the keyword, with the doc text that was pending there.
-/

namespace ServiceIdl

namespace ConstantReader

/-- What of a constant has been read. -/
inductive State where
  /-- A part of the type. -/
  | type (docText : String) (type : TypeReader.State)
  /-- All up to the type. -/
  | name (docText signature : String)
  /-- All up to the name. -/
  | assign (docText signature name : String)
  /-- All up to the equals sign. -/
  | value (docText signature name : String)
  deriving DecidableEq

/-- Only the keyword has been read. -/
def start (docText : String) : State := .type docText TypeReader.start

/-- Reads one token of a constant, which ends with its literal. -/
def read (limit : Nat) (state : State) (t : SpannedToken) :
    Except ParseError (Step State Constant) :=
  match state with
  | .type docText type => do
    match ← TypeReader.read limit type t with
    | .more type => return .more (.type docText type)
    | .done type => return .more (.name docText type.signature)
  | .name docText signature => do
    return .more (.assign docText signature (← t.expectIdentifier))
  | .assign docText signature name => do
    t.expectSymbol .assign
    return .more (.value docText signature name)
  | .value docText signature name => do
    return .done ⟨name, signature, ← t.expectLiteral, docText⟩

end ConstantReader

namespace TypedefReader

/-- What of a typedef has been read. -/
inductive State where
  /-- A part of the type. -/
  | type (docText : String) (type : TypeReader.State)
  /-- All up to the type. -/
  | name (docText signature : String)
  deriving DecidableEq

/-- Only the keyword has been read. -/
def start (docText : String) : State := .type docText TypeReader.start

/-- Reads one token of a typedef, which ends with the new name. -/
def read (limit : Nat) (state : State) (t : SpannedToken) :
    Except ParseError (Step State Typedef) :=
  match state with
  | .type docText type => do
    match ← TypeReader.read limit type t with
    | .more type => return .more (.type docText type)
    | .done type => return .more (.name docText type.signature)
  | .name docText signature => do
    return .done ⟨← t.expectIdentifier, signature, docText⟩

end TypedefReader

end ServiceIdl
