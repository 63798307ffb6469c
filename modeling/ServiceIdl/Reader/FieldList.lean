import ServiceIdl.Document.Basic
import ServiceIdl.Reader.Numbering
import ServiceIdl.Reader.TypeExpr

/-!
# Reading lists of fields

Struct and exception bodies, arguments and throws lists are lists of fields that differ
only in the bracket that closes them. A field takes the doc text that is pending when
its index is known: at the colon behind a stated index, or else at its first token.
-/

namespace ServiceIdl.FieldListReader

/-- What a field says before its type. -/
structure Head where
  index : Int32
  required : Bool
  docText : String
  deriving DecidableEq

/-- What of a field has been read. -/
inductive Phase where
  /-- Nothing. -/
  | start
  /-- A number, which is its index if a colon follows. -/
  | colon (number : SpannedToken)
  /-- The index. -/
  | modifier (index : Int32) (docText : String)
  /-- The head and a part of the type. -/
  | type (head : Head) (type : TypeReader.State)
  /-- All up to the type. -/
  | name (head : Head) (signature : String)
  /-- All up to the name. -/
  | afterName (field : Field)
  /-- All up to the equals sign. -/
  | value (field : Field)
  /-- All up to the default value. -/
  | separator (field : Field)
  deriving DecidableEq

/-- The complete fields of a list, and what of the next one has been read. -/
structure State where
  fields : List Field
  phase : Phase
  deriving DecidableEq

/-- Only the opening bracket has been read. -/
def start : State := ⟨[], .start⟩

/-- The least index that the next field may have. -/
def expectedIndex (fields : List Field) : Int :=
  nextNumber (fields.getLast?.map (·.index))

/-- Reads a token of the type of a field. -/
def readType (limit : Nat) (fields : List Field) (head : Head) (type : TypeReader.State)
    (t : SpannedToken) : Except ParseError (Step State (List Field)) := do
  match ← TypeReader.read limit type t with
  | .more type => return .more ⟨fields, .type head type⟩
  | .done type => return .more ⟨fields, .name head type.signature⟩

/-- Reads the token behind the index, which may say whether the field is required. -/
def readModifier (limit : Nat) (fields : List Field) (index : Int32) (docText : String)
    (t : SpannedToken) : Except ParseError (Step State (List Field)) :=
  match t.token with
  | .keyword .requiredMark => .ok (.more ⟨fields, .type ⟨index, true, docText⟩ TypeReader.start⟩)
  | .keyword .optionalMark => .ok (.more ⟨fields, .type ⟨index, false, docText⟩ TypeReader.start⟩)
  | _ => readType limit fields ⟨index, false, docText⟩ TypeReader.start t

/-- Reads the first token of a field, or the bracket that closes the list. -/
def readStart (limit : Nat) (closer : Symbol) (fields : List Field) (t : SpannedToken) :
    Reading (Step State (List Field)) :=
  match t.token with
  | .symbol .rightBrace | .symbol .rightParen => do
    t.expectSymbol closer
    return .done fields
  | .number _ => return .more ⟨fields, .colon t⟩
  | _ => do
    let index ← implicitNumber (expectedIndex fields) t.span
    let docText ← takeDoc
    readModifier limit fields index docText t

/-- Reads the token behind a field, which may be a separator. -/
def readSeparator (limit : Nat) (closer : Symbol) (fields : List Field) (t : SpannedToken) :
    Reading (Step State (List Field)) :=
  if t.isSeparator then return .more ⟨fields, .start⟩ else readStart limit closer fields t

/-- Reads one token of a list, which ends with the closing bracket. -/
def read (limit : Nat) (closer : Symbol) (state : State) (t : SpannedToken) :
    Reading (Step State (List Field)) :=
  match state.phase with
  | .start => readStart limit closer state.fields t
  | .colon number => do
    t.expectSymbol .colon
    let index ← explicitNumber .field (expectedIndex state.fields) number
    let docText ← takeDoc
    return .more ⟨state.fields, .modifier index docText⟩
  | .modifier index docText => readModifier limit state.fields index docText t
  | .type head type => readType limit state.fields head type t
  | .name head signature => do
    let name ← t.expectIdentifier
    let field := ⟨head.index, name, signature, none, head.required, head.docText⟩
    return .more ⟨state.fields, .afterName field⟩
  | .afterName field =>
    if t.token = .symbol .assign then return .more ⟨state.fields, .value field⟩
    else readSeparator limit closer (state.fields ++ [field]) t
  | .value field => do
    let text ← t.expectLiteral
    return .more ⟨state.fields, .separator { field with defaultValue := some text }⟩
  | .separator field => readSeparator limit closer (state.fields ++ [field]) t

end ServiceIdl.FieldListReader
