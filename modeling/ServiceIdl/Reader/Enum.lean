import ServiceIdl.Document.Enum
import ServiceIdl.Reader.Numbering

/-!
# Reading enums

The reader starts behind the name. A member without a number gets the next one, which
is known to be its number only when the token behind its name is read.
-/

namespace ServiceIdl.EnumReader

/-- What of an enum has been read. -/
inductive State where
  /-- The name. -/
  | opening (enum : Enum)
  /-- All up to the brace or up to a separator. -/
  | member (enum : Enum)
  /-- The name of a further member, which stood at `span`. -/
  | afterName (enum : Enum) (name : String) (span : Span)
  /-- The name of a further member and an equals sign. -/
  | value (enum : Enum) (name : String)
  /-- All up to a member with its number. -/
  | separator (enum : Enum)
  deriving DecidableEq

/-- Only the name has been read. -/
def start (name docText : String) : State := .opening ⟨name, [], docText⟩

/-- The least number that the next member may have. -/
def expectedValue (enum : Enum) : Int :=
  nextNumber (enum.members.getLast?.map (·.value))

/-- Reads the name of a member, or the closing brace. -/
def readMember (enum : Enum) (t : SpannedToken) : Except ParseError (Step State Enum) :=
  match t.token with
  | .identifier name => .ok (.more (.afterName enum name t.span))
  | _ => do t.expectSymbol .rightBrace; return .done enum

/-- Reads the token behind a member, which may be a separator. -/
def readSeparator (enum : Enum) (t : SpannedToken) : Except ParseError (Step State Enum) :=
  if t.isSeparator then .ok (.more (.member enum)) else readMember enum t

/-- Reads one token of an enum, which ends with the closing brace. -/
def read (state : State) (t : SpannedToken) : Except ParseError (Step State Enum) :=
  match state with
  | .opening enum => do t.expectSymbol .leftBrace; return .more (.member enum)
  | .member enum => readMember enum t
  | .afterName enum name span =>
    if t.token = .symbol .assign then .ok (.more (.value enum name))
    else do
      let value ← implicitNumber (expectedValue enum) span
      readSeparator (enum.insert name value) t
  | .value enum name => do
    let value ← explicitNumber .enumValue (expectedValue enum) t
    return .more (.separator (enum.insert name value))
  | .separator enum => readSeparator enum t

end ServiceIdl.EnumReader
