import ServiceIdl.Reader.Alias
import ServiceIdl.Reader.Enum
import ServiceIdl.Reader.Service
import ServiceIdl.Reader.Struct
import ServiceIdl.Text.Trim
import ServiceIdl.Token.CharClass

/-!
# Reading documents

A document is a header of namespaces and includes, then definitions, then the end of
the input. The first header keyword with doc text before it gives the document its doc
text. A constant or typedef takes its doc text at its keyword, every other definition
at its name, and doc text that is left over inside a definition is cleared behind it.
-/

namespace ServiceIdl.DocumentReader

/-- The definitions whose name follows their keyword. -/
inductive NamedKind where
  | enum
  | struct
  | exception
  | service
  deriving DecidableEq

/-- What has been read behind the complete statements of a document. -/
inductive Phase where
  /-- Nothing, and no definition before it. -/
  | header
  /-- The keyword of a namespace statement. -/
  | namespaceScope
  /-- The scope of a namespace. -/
  | namespaceName (scope : String)
  /-- The keyword of an include statement. -/
  | includePath
  /-- Nothing, with a definition before it. -/
  | definitions
  /-- A part of a constant. -/
  | constant (state : ConstantReader.State)
  /-- A part of a typedef. -/
  | typedef (state : TypedefReader.State)
  /-- The keyword of a definition. -/
  | name (kind : NamedKind)
  /-- A part of an enum. -/
  | enum (state : EnumReader.State)
  /-- A part of a struct. -/
  | struct (state : StructReader.State)
  /-- A part of an exception. -/
  | exception (state : StructReader.State)
  /-- A part of a service. -/
  | service (state : ServiceReader.State)
  deriving DecidableEq

/-- What the complete statements say, and what has been read behind them. -/
structure State where
  document : Document
  phase : Phase
  deriving DecidableEq

/-- Nothing has been read. -/
def start : State := ⟨.empty, .header⟩

/-- An include path without the quotes around it, of either kind. -/
def includePath (literal : String) : String :=
  String.ofList (trim isQuote literal.toList)

/-- The pending doc text at a header keyword is the document's, unless it has some. -/
def takeDocumentDoc (document : Document) : Reading Document := do
  let docText ← takeDoc
  return if document.docText = "" then { document with docText } else document

/-- Reads the keyword of a definition, or the end of the input. -/
def readDefinition (document : Document) (t : SpannedToken) : Reading State :=
  match t.token with
  | .keyword .constDef => return ⟨document, .constant (ConstantReader.start (← takeDoc))⟩
  | .keyword .typedefDef => return ⟨document, .typedef (TypedefReader.start (← takeDoc))⟩
  | .keyword .enumDef => return ⟨document, .name .enum⟩
  | .keyword .structDef => return ⟨document, .name .struct⟩
  | .keyword .exceptionDef => return ⟨document, .name .exception⟩
  | .keyword .serviceDef => return ⟨document, .name .service⟩
  | .endOfInput => return ⟨document, .definitions⟩
  | _ => throw (t.unexpected
      "'const', 'typedef', 'enum', 'struct', 'exception', 'service' or end of input")

/-- Reads the keyword of a header statement, or what follows the header. -/
def readHeader (document : Document) (t : SpannedToken) : Reading State :=
  match t.token with
  | .keyword .namespaceHeader => return ⟨← takeDocumentDoc document, .namespaceScope⟩
  | .keyword .includeHeader => return ⟨← takeDocumentDoc document, .includePath⟩
  | _ => readDefinition document t

/-- The state behind the name of a definition. -/
def startNamed (kind : NamedKind) (name docText : String) : Phase :=
  match kind with
  | .enum => .enum (EnumReader.start name docText)
  | .struct => .struct (StructReader.start name docText)
  | .exception => .exception (StructReader.start name docText)
  | .service => .service (ServiceReader.start name docText)

/-- The state behind a step of the reader of a definition. A complete definition is put
into the document, and doc text left over inside it is cleared. -/
def continueWith {σ α : Type} (document : Document) (phase : σ → Phase) (add : α → Document) :
    Step σ α → Reading State
  | .more state => return ⟨document, phase state⟩
  | .done result => do
    clearDoc
    return ⟨add result, .definitions⟩

/-- Reads one token of a document. The end of the input is accepted only where the
document may end. -/
def read (limit : Nat) (state : State) (t : SpannedToken) : Reading State :=
  let document := state.document
  match state.phase with
  | .header => readHeader document t
  | .namespaceScope =>
    match t.token with
    | .identifier scope => return ⟨document, .namespaceName scope⟩
    | .symbol .star => return ⟨document, .namespaceName (Token.symbol .star).text⟩
    | _ => throw (t.unexpected "namespace scope or '*'")
  | .namespaceName scope => do
    let name ← t.expectIdentifier
    return ⟨{ document with namespaces := document.namespaces.insert scope name }, .header⟩
  | .includePath =>
    match t.token with
    | .string literal =>
      return ⟨{ document with includes := document.includes ++ [includePath literal] }, .header⟩
    | _ => throw (t.unexpected "string literal")
  | .definitions => readDefinition document t
  | .constant state => do
    continueWith document .constant
      (fun constant => { document with consts := document.consts ++ [constant] })
      (← ConstantReader.read limit state t)
  | .typedef state => do
    continueWith document .typedef
      (fun typedef => { document with typedefs := document.typedefs ++ [typedef] })
      (← TypedefReader.read limit state t)
  | .name kind => do
    let name ← t.expectIdentifier
    return ⟨document, startNamed kind name (← takeDoc)⟩
  | .enum state => do
    continueWith document .enum
      (fun enum => { document with enums := document.enums ++ [enum] })
      (← EnumReader.read state t)
  | .struct state => do
    continueWith document .struct
      (fun struct => { document with structs := document.structs ++ [struct] })
      (← StructReader.read limit state t)
  | .exception state => do
    continueWith document .exception
      (fun struct => { document with exceptions := document.exceptions ++ [struct] })
      (← StructReader.read limit state t)
  | .service state => do
    continueWith document .service
      (fun service => { document with services := document.services ++ [service] })
      (← ServiceReader.read limit state t)

end ServiceIdl.DocumentReader
