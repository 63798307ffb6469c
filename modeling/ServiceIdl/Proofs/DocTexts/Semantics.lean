import ServiceIdl.DocText
import ServiceIdl.Proofs.Grammar.Syntax

/-!
# The doc texts of a derivation

Doc comments stand between the tokens of a derivation. Their texts are counted by places: the
text at a place is that of the comments directly in front of the token there. A node has the text
of the comments from one place up to another; the first of them depends on the entry before the
node, for doc comments that are left over in one entry are pending in the next.

## Main definitions

- `DocTexts`, `DocTexts.between`, `docTextsOf`: the texts at places of a sentence
- `Extent`, `placed`, `sinceBehind`: entries one behind the other
- `Syntax.fieldDocs`, `Syntax.Function.docs`, `Syntax.functionDocs`: the texts that entries take
- `Syntax.Document.documented?`: the document with doc texts that a derivation denotes
-/

namespace ServiceIdl

/-- The doc texts in front of the tokens of a sentence, by the places of these tokens. -/
abbrev DocTexts := Nat → String

/-- The doc texts in front of the tokens from the place `first` up to `last`. -/
def DocTexts.between (docs : DocTexts) (first last : Nat) : String :=
  (List.range' first (last - first)).foldl (fun text place => text ++ docs place) ""

/-- The doc texts in front of those tokens of a text that are no doc comments. -/
def docTextsOf : List SpannedToken → DocTexts
  | [], _ => ""
  | t :: tokens, place =>
    match t.token, place with
    | .docComment comment, 0 => docBody comment ++ docTextsOf tokens 0
    | .docComment _, place + 1 => docTextsOf tokens (place + 1)
    | _, 0 => ""
    | _, place + 1 => docTextsOf tokens place

/-! ### Entries one behind the other -/

/-- The size of an entry: how many tokens it has, and in front of how many of the tokens from
its first one on doc comments are used up by it. -/
structure Extent where
  length : Nat
  used : Nat

section

variable {ι β : Type} (extent : ι → Extent)

/-- What is made of each entry by the place at which it stands and the place since which doc
comments are pending there. -/
def placed (node : Nat → Nat → ι → β) (place since : Nat) : List ι → List β
  | [] => []
  | entry :: entries =>
    node place since entry ::
      placed node (place + (extent entry).length) (place + (extent entry).used) entries

/-- The place since which doc comments are pending behind entries. -/
def sinceBehind (place since : Nat) : List ι → Nat
  | [] => since
  | entry :: entries =>
    sinceBehind (place + (extent entry).length) (place + (extent entry).used) entries

end

/-! ### Nodes with their doc texts -/

def Field.withDoc (field : Field) (docText : String) : Field := { field with docText }

/-- The doc texts of a function, of its arguments and of the entries of its throws list. -/
structure FunctionDocs where
  docText : String
  arguments : List String
  throws : List String

def Function.withDocs (function : Function) (docs : FunctionDocs) : Function :=
  { function with
    arguments := List.zipWith Field.withDoc function.arguments docs.arguments
    throws := List.zipWith Field.withDoc function.throws docs.throws
    docText := docs.docText }

/-- A document with a doc text, unless it has one. -/
def Document.offerDoc (document : Document) (docText : String) : Document :=
  if document.docText = "" then { document with docText } else document

namespace Syntax

/-- A field uses the doc comments up to the colon behind its index, or in front of its first
token. -/
def Field.extent (field : Field) : Extent where
  length := field.tokens.length
  used := if field.index.isSome then 2 else 1

def Field.docText (docs : DocTexts) (place since : Nat) (field : Field) : String :=
  docs.between since (place + field.extent.used)

/-- The doc texts of the fields of a list. -/
def fieldDocs (docs : DocTexts) (place since : Nat) (fields : List Field) : List String :=
  placed Field.extent (Field.docText docs) place since fields

/-- The tokens of a function in front of its arguments. -/
def Function.head (function : Function) : List Token :=
  (if function.oneway then [.keyword .onewayMark] else [])
    ++ (function.result.elim [.keyword .voidResult] TypeExpr.tokens
    ++ [.identifier function.name])

/-- A function uses the doc comments in front of all its tokens but a separator, and without a
throws list also those in front of the token behind these. -/
def Function.extent (function : Function) : Extent where
  length := function.tokens.length
  used := { function with separator := none }.tokens.length
    + if function.throws.isSome then 0 else 1

/-- The doc texts of a function, whose arguments stand behind the opening parenthesis, and whose
throws list stands three tokens behind them. -/
def Function.docs (docs : DocTexts) (place since : Nat) (function : Function) : FunctionDocs :=
  let arguments := place + function.head.length + 1
  let throws := arguments + (function.arguments.flatMap Field.tokens).length + 3
  { docText := docs.between since (place + 1)
    arguments := fieldDocs docs arguments (place + 1) function.arguments
    throws := fieldDocs docs throws
      (sinceBehind Field.extent arguments (place + 1) function.arguments)
      (function.throws.getD []) }

/-- The doc texts of the functions of a service. -/
def functionDocs (docs : DocTexts) (place since : Nat) (functions : List Function) :
    List FunctionDocs :=
  placed Function.extent (Function.docs docs) place since functions

/-- The tokens of a service in front of its functions. -/
def serviceHead (name : String) (parent : Option String) : List Token :=
  .keyword .serviceDef :: .identifier name ::
    (optionTokens (fun parent => [.keyword .extendsClause, .identifier parent]) parent
    ++ [.symbol .leftBrace])

/-- The document with one more definition and the doc texts in it. A constant or typedef uses the
doc comments up to its keyword, another definition those up to its name. -/
def Definition.addDocumented? (limit : Nat) (docs : DocTexts) (place since : Nat)
    (document : ServiceIdl.Document) : Definition → Option ServiceIdl.Document
  | constant type name value => do
    let type ← type.signature? limit
    let docText := docs.between since (place + 1)
    return { document with consts := document.consts ++ [⟨name, type, value.text, docText⟩] }
  | typedef type name => do
    let type ← type.signature? limit
    let docText := docs.between since (place + 1)
    return { document with typedefs := document.typedefs ++ [⟨name, type, docText⟩] }
  | enum name members => do
    let enum ← insertMembers? 1 ⟨name, [], docs.between since (place + 2)⟩ members
    return { document with enums := document.enums ++ [enum] }
  | struct name fields => do
    let values ← fields? limit 1 fields
    let values := List.zipWith Field.withDoc values (fieldDocs docs (place + 3) (place + 2) fields)
    let docText := docs.between since (place + 2)
    return { document with structs := document.structs ++ [⟨name, values, docText⟩] }
  | exception name fields => do
    let values ← fields? limit 1 fields
    let values := List.zipWith Field.withDoc values (fieldDocs docs (place + 3) (place + 2) fields)
    let docText := docs.between since (place + 2)
    return { document with exceptions := document.exceptions ++ [⟨name, values, docText⟩] }
  | service name parent functions => do
    let values ← functions.mapM (Function.value? limit)
    let first := place + (serviceHead name parent).length
    let values := List.zipWith Function.withDocs values
      (functionDocs docs first (place + 2) functions)
    let docText := docs.between since (place + 2)
    return { document with services := document.services ++ [⟨name, parent, values, docText⟩] }

/-- The document with further definitions and the doc texts in them. A definition uses all doc
comments in it. -/
def addDefinitions? (limit : Nat) (docs : DocTexts) (place since : Nat)
    (document : ServiceIdl.Document) : List Definition → Option ServiceIdl.Document
  | [] => some document
  | definition :: definitions => do
    let behind := place + definition.tokens.length
    let document ← definition.addDocumented? limit docs place since document
    addDefinitions? limit docs behind behind document definitions

/-- The document with what a header says. The doc comments up to its keyword are used up, and
give the document a doc text if it has none. -/
def Header.addDocumented (docs : DocTexts) (place since : Nat) (document : ServiceIdl.Document)
    (header : Header) : ServiceIdl.Document :=
  header.addTo (document.offerDoc (docs.between since (place + 1)))

def Header.extent (header : Header) : Extent := ⟨header.tokens.length, 1⟩

/-- The document with what further headers say. -/
def addHeaders (docs : DocTexts) (place since : Nat) (document : ServiceIdl.Document) :
    List Header → ServiceIdl.Document
  | [] => document
  | header :: headers =>
    addHeaders docs (place + header.tokens.length) (place + 1)
      (header.addDocumented docs place since document) headers

/-- The document that a derivation denotes, with its doc texts. -/
def Document.documented? (limit : Nat) (docs : DocTexts) (tree : Document) :
    Option ServiceIdl.Document :=
  addDefinitions? limit docs (tree.headers.flatMap Header.tokens).length
    (sinceBehind Header.extent 0 0 tree.headers) (addHeaders docs 0 0 .empty tree.headers)
    tree.definitions

end Syntax

/-! ### The places of entries -/

section

variable {ι β : Type} {extent : ι → Extent} {node : Nat → Nat → ι → β}

/-- The number of tokens of entries. -/
def lengthOf (extent : ι → Extent) : List ι → Nat
  | [] => 0
  | entry :: entries => (extent entry).length + lengthOf extent entries

theorem lengthOf_eq_length_flatMap {tokens : ι → List Token}
    (h : ∀ entry, (extent entry).length = (tokens entry).length) (entries : List ι) :
    lengthOf extent entries = (entries.flatMap tokens).length := by
  induction entries with
  | nil => rfl
  | cons entry entries ih =>
    rw [lengthOf, ih, h, List.flatMap_cons, List.length_append]

theorem getElem?_placed (previous : List ι) (entry : ι) (following : List ι) (place since : Nat) :
    (placed extent node place since (previous ++ entry :: following))[previous.length]? =
      some (node (place + lengthOf extent previous)
        (sinceBehind extent place since previous) entry) := by
  induction previous generalizing place since with
  | nil => rfl
  | cons first previous ih =>
    rw [List.cons_append, placed, List.length_cons, List.getElem?_cons_succ, ih, sinceBehind,
      lengthOf, Nat.add_assoc]

theorem sinceBehind_concat (previous : List ι) (entry : ι) (place since : Nat) :
    sinceBehind extent place since (previous ++ [entry]) =
      place + lengthOf extent previous + (extent entry).used := by
  induction previous generalizing place since with
  | nil => rfl
  | cons first previous ih =>
    rw [List.cons_append, sinceBehind, ih, lengthOf, ← Nat.add_assoc]

end

namespace Syntax

theorem lengthOf_fields (fields : List Field) :
    lengthOf Field.extent fields = (fields.flatMap Field.tokens).length :=
  lengthOf_eq_length_flatMap (fun _ => rfl) fields

theorem lengthOf_functions (functions : List Function) :
    lengthOf Function.extent functions = (functions.flatMap Function.tokens).length :=
  lengthOf_eq_length_flatMap (fun _ => rfl) functions

theorem lengthOf_headers (headers : List Header) :
    lengthOf Header.extent headers = (headers.flatMap Header.tokens).length :=
  lengthOf_eq_length_flatMap (fun _ => rfl) headers

end Syntax

/-! ### Doc texts from one place to another -/

namespace DocTexts

variable (docs : DocTexts)

@[simp] theorem between_self (place : Nat) : docs.between place place = "" := by
  simp [between]

theorem between_succ {first last : Nat} (h : first ≤ last) :
    docs.between first (last + 1) = docs.between first last ++ docs last := by
  have hcount : last + 1 - first = (last - first) + 1 := by omega
  have hplace : first + 1 * (last - first) = last := by omega
  rw [between, between, hcount, List.range'_concat, List.foldl_append, hplace]
  rfl

theorem between_one (place : Nat) : docs.between place (place + 1) = docs place := by
  rw [docs.between_succ (Nat.le_refl place), docs.between_self, String.empty_append]

end DocTexts

end ServiceIdl
