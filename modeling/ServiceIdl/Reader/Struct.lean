import ServiceIdl.Reader.FieldList

/-!
# Reading structs and exceptions

A struct or an exception is a list of fields between braces. The reader starts behind the name.
-/

namespace ServiceIdl.StructReader

/-- What of a struct has been read. -/
inductive State where
  /-- The name. -/
  | opening (name docText : String)
  /-- All up to the brace, and a part of the fields. -/
  | fields (name docText : String) (fields : FieldListReader.State)
  deriving DecidableEq

/-- Only the name has been read. -/
def start (name docText : String) : State := .opening name docText

/-- Reads one token of a struct, which ends with the closing brace. -/
def read (limit : Nat) (state : State) (t : SpannedToken) : Reading (Step State Struct) :=
  match state with
  | .opening name docText => do
    t.expectSymbol .leftBrace
    return .more (.fields name docText FieldListReader.start)
  | .fields name docText fields => do
    match ← FieldListReader.read limit .rightBrace fields t with
    | .more fields => return .more (.fields name docText fields)
    | .done fields => return .done ⟨name, fields, docText⟩

end ServiceIdl.StructReader
