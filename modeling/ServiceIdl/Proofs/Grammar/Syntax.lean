import ServiceIdl.Document.Enum
import ServiceIdl.Text.Numeral
import ServiceIdl.Text.Trim
import ServiceIdl.Token.Basic
import ServiceIdl.Token.CharClass
import ServiceIdl.TypeExpr

/-!
# The grammar of documents

A derivation in the grammar is a concrete syntax tree. Its tokens are the sentence that
it derives, and its value is the document that it denotes, if the numbers in it ascend
and its types are not too deep. Nothing here knows how a document is read.

## Main definitions

- `Syntax.Field`, `Syntax.Function`, `Syntax.Member`, `Syntax.Definition`, `Syntax.Header`: the
  parts of a derivation
- `Syntax.Document`, with its sentence `Syntax.Document.tokens` and its value
  `Syntax.Document.value?`
-/

namespace ServiceIdl

/-- The tokens of a type. -/
def TypeExpr.tokens : TypeExpr → List Token
  | named name => [.identifier name]
  | list element =>
    .keyword .listType :: .symbol .leftAngle :: (element.tokens ++ [.symbol .rightAngle])
  | set element =>
    .keyword .setType :: .symbol .leftAngle :: (element.tokens ++ [.symbol .rightAngle])
  | map key value =>
    .keyword .mapType :: .symbol .leftAngle ::
      (key.tokens ++ .symbol .comma :: (value.tokens ++ [.symbol .rightAngle]))

/-- The signature of a type that nests at most `limit` containers. -/
def TypeExpr.signature? (limit : Nat) (type : TypeExpr) : Option String :=
  if type.depth ≤ limit then some type.signature else none

theorem TypeExpr.signature?_eq_some_iff {limit : Nat} {type : TypeExpr} {signature : String} :
    type.signature? limit = some signature ↔ type.depth ≤ limit ∧ type.signature = signature := by
  simp [signature?]

namespace Syntax

/-- What may stand between the entries of a list. -/
inductive Separator where
  | comma
  | semicolon
  deriving DecidableEq

def Separator.token : Separator → Token
  | comma => .symbol .comma
  | semicolon => .symbol .semicolon

/-- A number or a string with its quotes. -/
inductive Literal where
  | number (text : String)
  | string (text : String)
  deriving DecidableEq

def Literal.token : Literal → Token
  | number text => .number text
  | string text => .string text

def Literal.text : Literal → String
  | number text => text
  | string text => text

/-- What a field may say in front of its type. -/
inductive Modifier where
  | required
  | optional
  deriving DecidableEq

def Modifier.token : Modifier → Token
  | required => .keyword .requiredMark
  | optional => .keyword .optionalMark

/-- The tokens of an optional part. -/
def optionTokens {α : Type} (tokens : α → List Token) (part : Option α) : List Token :=
  part.elim [] tokens

/-- The number of an entry that may state one. It is at least `expected`, and it is
`expected` if the entry states none; in any case it has to fit into 32 bits. -/
def number? (expected : Int) : Option String → Option Int32
  | none => int32? expected
  | some text => (readInt32? text.toList).filter (expected ≤ ·.toInt)

/-! ### Fields -/

/-- An entry of a field list. -/
structure Field where
  index : Option String
  modifier : Option Modifier
  type : TypeExpr
  name : String
  default : Option Literal
  separator : Option Separator
  deriving DecidableEq

def Field.tokens (field : Field) : List Token :=
  optionTokens (fun text => [.number text, .symbol .colon]) field.index
    ++ (optionTokens (fun modifier => [modifier.token]) field.modifier
    ++ (field.type.tokens
    ++ (.identifier field.name ::
      (optionTokens (fun literal => [.symbol .assign, literal.token]) field.default
    ++ optionTokens (fun separator => [separator.token]) field.separator))))

def Field.value? (limit : Nat) (expected : Int) (field : Field) : Option ServiceIdl.Field := do
  let index ← number? expected field.index
  let type ← field.type.signature? limit
  return {
    index
    name := field.name
    type
    defaultValue := field.default.map Literal.text
    required := field.modifier = some .required
    docText := "" }

/-- The value of a field list whose first index is at least `expected`. -/
def fields? (limit : Nat) (expected : Int) : List Field → Option (List ServiceIdl.Field)
  | [] => some []
  | field :: fields => do
    let first ← field.value? limit expected
    return first :: (← fields? limit (first.index.toInt + 1) fields)

/-! ### Functions -/

/-- An operation of a service. Without result it is void. -/
structure Function where
  oneway : Bool
  result : Option TypeExpr
  name : String
  arguments : List Field
  throws : Option (List Field)
  separator : Option Separator
  deriving DecidableEq

/-- The tokens of a field list in parentheses. -/
def parenthesized (fields : List Field) : List Token :=
  .symbol .leftParen :: (fields.flatMap Field.tokens ++ [.symbol .rightParen])

def Function.tokens (function : Function) : List Token :=
  (if function.oneway then [.keyword .onewayMark] else [])
    ++ (function.result.elim [.keyword .voidResult] TypeExpr.tokens
    ++ (.identifier function.name :: (parenthesized function.arguments
    ++ (optionTokens (fun fields => .keyword .throwsClause :: parenthesized fields) function.throws
    ++ optionTokens (fun separator => [separator.token]) function.separator))))

def Function.value? (limit : Nat) (function : Function) : Option ServiceIdl.Function := do
  let returnType ← function.result.elim (some "void") (TypeExpr.signature? limit)
  let arguments ← fields? limit 1 function.arguments
  let throws ← fields? limit 1 (function.throws.getD [])
  return {
    name := function.name
    oneway := function.oneway
    returnType
    arguments
    throws
    docText := "" }

/-! ### Members of enums -/

/-- A name in an enum, which may state its number. -/
structure Member where
  name : String
  number : Option String
  separator : Option Separator
  deriving DecidableEq

def Member.tokens (member : Member) : List Token :=
  .identifier member.name
    :: (optionTokens (fun text => [.symbol .assign, .number text]) member.number
    ++ optionTokens (fun separator => [separator.token]) member.separator)

/-- The members put into an enum in order, the first number being at least `expected`. -/
def insertMembers? (expected : Int) (enum : Enum) : List Member → Option Enum
  | [] => some enum
  | member :: members => do
    let number ← number? expected member.number
    insertMembers? (number.toInt + 1) (enum.insert member.name number) members

/-! ### Definitions -/

/-- A named thing of a document. -/
inductive Definition where
  | constant (type : TypeExpr) (name : String) (value : Literal)
  | typedef (type : TypeExpr) (name : String)
  | enum (name : String) (members : List Member)
  | struct (name : String) (fields : List Field)
  | exception (name : String) (fields : List Field)
  | service (name : String) (parent : Option String) (functions : List Function)
  deriving DecidableEq

/-- Tokens in braces. -/
def braced (tokens : List Token) : List Token :=
  .symbol .leftBrace :: (tokens ++ [.symbol .rightBrace])

def Definition.tokens : Definition → List Token
  | constant type name value =>
    .keyword .constDef :: (type.tokens ++ [.identifier name, .symbol .assign, value.token])
  | typedef type name => .keyword .typedefDef :: (type.tokens ++ [.identifier name])
  | enum name members =>
    .keyword .enumDef :: .identifier name :: braced (members.flatMap Member.tokens)
  | struct name fields =>
    .keyword .structDef :: .identifier name :: braced (fields.flatMap Field.tokens)
  | exception name fields =>
    .keyword .exceptionDef :: .identifier name :: braced (fields.flatMap Field.tokens)
  | service name parent functions =>
    .keyword .serviceDef :: .identifier name ::
      (optionTokens (fun parent => [.keyword .extendsClause, .identifier parent]) parent
      ++ braced (functions.flatMap Function.tokens))

/-- The document with one more definition, which comes last in the list of its kind. -/
def Definition.addTo? (limit : Nat) (document : ServiceIdl.Document) :
    Definition → Option ServiceIdl.Document
  | constant type name value => do
    let type ← type.signature? limit
    return { document with consts := document.consts ++ [⟨name, type, value.text, ""⟩] }
  | typedef type name => do
    let type ← type.signature? limit
    return { document with typedefs := document.typedefs ++ [⟨name, type, ""⟩] }
  | enum name members => do
    let enum ← insertMembers? 1 ⟨name, [], ""⟩ members
    return { document with enums := document.enums ++ [enum] }
  | struct name fields => do
    let fields ← fields? limit 1 fields
    return { document with structs := document.structs ++ [⟨name, fields, ""⟩] }
  | exception name fields => do
    let fields ← fields? limit 1 fields
    return { document with exceptions := document.exceptions ++ [⟨name, fields, ""⟩] }
  | service name parent functions => do
    let functions ← functions.mapM (Function.value? limit)
    return { document with services := document.services ++ [⟨name, parent, functions, ""⟩] }

/-! ### Documents -/

/-- A namespace for a scope, or for any scope, or the path of an included file. -/
inductive Header where
  | namespaceName (scope : Option String) (name : String)
  | includePath (literal : String)
  deriving DecidableEq

def Header.tokens : Header → List Token
  | namespaceName scope name =>
    [.keyword .namespaceHeader, scope.elim (.symbol .star) .identifier, .identifier name]
  | includePath literal => [.keyword .includeHeader, .string literal]

/-- The document with what a header says. -/
def Header.addTo (document : ServiceIdl.Document) : Header → ServiceIdl.Document
  | namespaceName scope name =>
    { document with namespaces := document.namespaces.insert (scope.getD "*") name }
  | includePath literal =>
    { document with
      includes := document.includes ++ [String.ofList (trim isQuote literal.toList)] }

/-- A derivation of a whole document. -/
structure Document where
  headers : List Header
  definitions : List Definition
  deriving DecidableEq

namespace Document

/-- The tokens of a document without the end of the input. -/
def tokens (document : Document) : List Token :=
  document.headers.flatMap Header.tokens ++ document.definitions.flatMap Definition.tokens

/-- The document that a derivation denotes, without doc texts, if types nest at most
`limit` containers. -/
def value? (limit : Nat) (document : Document) : Option ServiceIdl.Document :=
  document.definitions.foldlM (Definition.addTo? limit)
    (document.headers.foldl Header.addTo .empty)

end Document

end Syntax

end ServiceIdl
