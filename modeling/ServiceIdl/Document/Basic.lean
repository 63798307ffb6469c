import ServiceIdl.Document.Namespaces

/-!
# Documents

What a source text defines. A type is kept as its signature, and a literal as the text
that it was written with; a string literal keeps its quotes. The doc text of a node is
what its documentation comments say, and empty if it has none.
-/

namespace ServiceIdl

/-- A named literal. -/
structure Constant where
  name : String
  type : String
  value : String
  docText : String
  deriving DecidableEq

/-- A new name for a type. -/
structure Typedef where
  name : String
  type : String
  docText : String
  deriving DecidableEq

/-- A name and its number in an enum. -/
structure EnumMember where
  name : String
  value : Int32
  deriving DecidableEq

/-- A set of named numbers. -/
structure Enum where
  name : String
  members : List EnumMember
  docText : String
  deriving DecidableEq

/-- An entry of a struct, an exception, an argument list or a throws list. -/
structure Field where
  index : Int32
  name : String
  type : String
  defaultValue : Option String
  required : Bool
  docText : String
  deriving DecidableEq

/-- A record type; exceptions have the same form. -/
structure Struct where
  name : String
  fields : List Field
  docText : String
  deriving DecidableEq

/-- An operation of a service. Its return type is a signature or `void`. -/
structure Function where
  name : String
  oneway : Bool
  returnType : String
  arguments : List Field
  throws : List Field
  docText : String
  deriving DecidableEq

/-- A set of functions, with the name of the service that it extends, if any. -/
structure Service where
  name : String
  parent : Option String
  functions : List Function
  docText : String
  deriving DecidableEq

/-- All that a source text says. Definitions of one kind are in the order in which
they were written. -/
structure Document where
  namespaces : Namespaces
  /-- Include paths without quotes. -/
  includes : List String
  consts : List Constant
  typedefs : List Typedef
  enums : List Enum
  structs : List Struct
  exceptions : List Struct
  services : List Service
  docText : String
  deriving DecidableEq

/-- The document of a text that says nothing. -/
def Document.empty : Document := ⟨.empty, [], [], [], [], [], [], [], ""⟩

end ServiceIdl
