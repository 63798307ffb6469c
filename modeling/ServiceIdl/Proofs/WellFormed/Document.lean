import ServiceIdl.Document.Basic
import ServiceIdl.Proofs.Grammar.Syntax
import ServiceIdl.Proofs.Lexing.Lexeme
import ServiceIdl.Token.Stream

/-!
# Well-formed documents

A document is a value of its own, and not every one is what some text says: its names could be
reserved words, its types any strings, its numbers in any order. The well-formed ones satisfy
what the texts of a document guarantee. Doc texts may be anything.

## Main definitions

- `IsIdentifier`, `IsSignature`, `IsLiteral`, `IsIncludePath`: the texts in a document
- `AscendFrom`: the numbers of fields and of enum members
- `Document.WellFormed`, and `WellFormed` for every kind of node
-/

namespace ServiceIdl

/-- A name that is no reserved word. -/
def IsIdentifier (name : String) : Prop :=
  IsName name.toList ∧ ∀ k : Keyword, k.text ≠ name

theorem Token.isLexeme_identifier_iff {strict : Bool} {name : String} :
    (Token.identifier name).IsLexeme strict ↔ IsIdentifier name := Iff.rfl

/-- The names in a type are identifiers. -/
def TypeExpr.HasIdentifiers : TypeExpr → Prop
  | named name => IsIdentifier name
  | list element => element.HasIdentifiers
  | set element => element.HasIdentifiers
  | map key value => key.HasIdentifiers ∧ value.HasIdentifiers

/-- The signature of a type of identifiers that nests at most `limit` containers. -/
def IsSignature (limit : Nat) (text : String) : Prop :=
  ∃ type : TypeExpr, type.HasIdentifiers ∧ type.depth ≤ limit ∧ type.signature = text

/-- A number or a string that is one token as a whole. -/
def IsLiteral (options : ParseOptions) (text : String) : Prop :=
  ∃ literal : Syntax.Literal, literal.text = text ∧
    (tokenize options text).map (·.map (·.token)) = .ok [literal.token, .endOfInput]

/-- A path that can be put between quotes and is found again when quotes are trimmed. -/
structure IsIncludePath (path : String) : Prop where
  start : ∀ c, path.toList.head? = some c → isQuote c = false
  stop : ∀ c, path.toList.getLast? = some c → isQuote c = false
  oneKind : '"' ∉ path.toList ∨ '\'' ∉ path.toList

/-- The numbers are strictly ascending, and none is less than `least`. -/
structure AscendFrom (least : Int) (numbers : List Int32) : Prop where
  least_le : ∀ number ∈ numbers, least ≤ number.toInt
  ascending : numbers.Pairwise fun first second => first.toInt < second.toInt

structure Constant.WellFormed (options : ParseOptions) (constant : Constant) : Prop where
  name : IsIdentifier constant.name
  type : IsSignature options.maxTypeDepth constant.type
  value : IsLiteral options constant.value

structure Typedef.WellFormed (options : ParseOptions) (typedef : Typedef) : Prop where
  name : IsIdentifier typedef.name
  type : IsSignature options.maxTypeDepth typedef.type

/-- The members have distinct names and ascending numbers from one on. -/
structure Enum.WellFormed (enum : Enum) : Prop where
  name : IsIdentifier enum.name
  memberNames : ∀ member ∈ enum.members, IsIdentifier member.name
  distinct : (enum.members.map (·.name)).Nodup
  values : AscendFrom 1 (enum.members.map (·.value))

structure Field.WellFormed (options : ParseOptions) (field : Field) : Prop where
  name : IsIdentifier field.name
  type : IsSignature options.maxTypeDepth field.type
  defaultValue : ∀ text ∈ field.defaultValue, IsLiteral options text

/-- A struct body, an exception body, an argument list or a throws list, from some index on. -/
structure IsFieldList (options : ParseOptions) (least : Int) (fields : List Field) : Prop where
  wellFormed : ∀ field ∈ fields, field.WellFormed options
  indices : AscendFrom least (fields.map (·.index))

structure Struct.WellFormed (options : ParseOptions) (struct : Struct) : Prop where
  name : IsIdentifier struct.name
  fields : IsFieldList options 1 struct.fields

structure Function.WellFormed (options : ParseOptions) (function : Function) : Prop where
  name : IsIdentifier function.name
  returnType : function.returnType = "void" ∨
    IsSignature options.maxTypeDepth function.returnType
  arguments : IsFieldList options 1 function.arguments
  throws : IsFieldList options 1 function.throws

structure Service.WellFormed (options : ParseOptions) (service : Service) : Prop where
  name : IsIdentifier service.name
  parent : ∀ parent ∈ service.parent, IsIdentifier parent
  functions : ∀ function ∈ service.functions, function.WellFormed options

/-- What every document satisfies that is parsed from a text. -/
structure Document.WellFormed (options : ParseOptions) (document : Document) : Prop where
  scopes : ∀ entry ∈ document.namespaces.entries, entry.1 = "*" ∨ IsIdentifier entry.1
  namespaces : ∀ entry ∈ document.namespaces.entries, IsIdentifier entry.2
  includes : ∀ path ∈ document.includes, IsIncludePath path
  consts : ∀ constant ∈ document.consts, constant.WellFormed options
  typedefs : ∀ typedef ∈ document.typedefs, typedef.WellFormed options
  enums : ∀ enum ∈ document.enums, enum.WellFormed
  structs : ∀ struct ∈ document.structs, struct.WellFormed options
  exceptions : ∀ struct ∈ document.exceptions, struct.WellFormed options
  services : ∀ service ∈ document.services, service.WellFormed options

end ServiceIdl
