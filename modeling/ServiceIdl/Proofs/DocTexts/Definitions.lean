import ServiceIdl.Proofs.DocTexts.Documents

/-!
# The doc texts of definitions

A definition has the text of the doc comments in front of its keyword, and if it takes its doc
text at its name, also of those behind its keyword. Nothing that stands in the definition before
it is part of that text: what is pending at the end of a definition is forgotten.
-/

namespace ServiceIdl

open Syntax

/-- The name of a definition and its doc text. -/
structure Heading where
  name : String
  docText : String
  deriving DecidableEq

namespace Syntax

/-- The lists in which a document keeps its definitions. -/
inductive DefinitionKind where
  | constant
  | typedef
  | enum
  | struct
  | exception
  | service
  deriving DecidableEq

def Definition.kind : Definition → DefinitionKind
  | constant _ _ _ => .constant
  | typedef _ _ => .typedef
  | enum _ _ => .enum
  | struct _ _ => .struct
  | exception _ _ => .exception
  | service _ _ _ => .service

def Definition.name : Definition → String
  | constant _ name _ => name
  | typedef _ name => name
  | enum name _ => name
  | struct name _ => name
  | exception name _ => name
  | service name _ _ => name

/-- The number of tokens in front of which doc comments count for a definition: its keyword, or
its keyword and its name. -/
def Definition.docTokens (definition : Definition) : Nat :=
  match definition.kind with
  | .constant | .typedef => 1
  | .enum | .struct | .exception | .service => 2

/-- A definition uses all doc comments in it. -/
def Definition.extent (definition : Definition) : Extent :=
  ⟨definition.tokens.length, definition.tokens.length⟩

/-- The heading of a definition that stands at `place`, where doc comments are pending since the
place `since`. -/
def Definition.heading (docs : DocTexts) (place since : Nat) (definition : Definition) : Heading :=
  ⟨definition.name, docs.between since (place + definition.docTokens)⟩

end Syntax

/-- The names and doc texts of the definitions of one kind, in their order. -/
def Document.headings (document : Document) : DefinitionKind → List Heading
  | .constant => document.consts.map fun constant => ⟨constant.name, constant.docText⟩
  | .typedef => document.typedefs.map fun typedef => ⟨typedef.name, typedef.docText⟩
  | .enum => document.enums.map fun enum => ⟨enum.name, enum.docText⟩
  | .struct => document.structs.map fun struct => ⟨struct.name, struct.docText⟩
  | .exception => document.exceptions.map fun struct => ⟨struct.name, struct.docText⟩
  | .service => document.services.map fun service => ⟨service.name, service.docText⟩

namespace Syntax

variable {limit : Nat} {docs : DocTexts} {place since : Nat}
  {document document' : ServiceIdl.Document}

/-! ### Headings -/

/-- Members change neither the name nor the doc text of an enum. -/
theorem heading_of_insertMembers? {members : List Member} {expected : Int} {enum result : Enum}
    (h : insertMembers? expected enum members = some result) :
    result.name = enum.name ∧ result.docText = enum.docText := by
  induction members generalizing expected enum with
  | nil =>
    obtain rfl := Option.some.inj h
    exact ⟨rfl, rfl⟩
  | cons member members ih =>
    simp only [insertMembers?, Option.bind_eq_bind, Option.bind_eq_some_iff] at h
    obtain ⟨number, _, hrest⟩ := h
    obtain ⟨hname, hdocText⟩ := ih hrest
    exact ⟨hname, hdocText⟩

/-- A definition adds its heading to those of its kind. -/
theorem Definition.headings_of_addDocumented? {definition : Definition}
    (h : definition.addDocumented? limit docs place since document = some document')
    (kind : DefinitionKind) :
    document'.headings kind = document.headings kind ++
      if definition.kind = kind then [definition.heading docs place since] else [] := by
  cases definition with
  | enum name members =>
    simp only [addDocumented?, Option.bind_eq_bind, Option.bind_eq_some_iff] at h
    obtain ⟨enum, hmembers, ⟨⟩⟩ := h
    obtain ⟨hname, hdocText⟩ := heading_of_insertMembers? hmembers
    cases kind <;> simp [Document.headings, Definition.kind, Definition.heading, Definition.name,
      docTokens, hname, hdocText]
  | _ =>
    simp only [addDocumented?, Option.bind_eq_bind, Option.bind_eq_some_iff] at h
    obtain ⟨value, _, ⟨⟩⟩ := h
    cases kind <;> simp [Document.headings, Definition.kind, Definition.heading, Definition.name,
      docTokens]

/-! ### Definitions one behind the other -/

/-- Definitions are added one after the other. -/
theorem addDefinitions?_append {first rest : List Definition}
    (h : addDefinitions? limit docs place since document (first ++ rest) = some document') :
    ∃ between, addDefinitions? limit docs place since document first = some between ∧
      addDefinitions? limit docs (place + (first.flatMap Definition.tokens).length)
        (sinceBehind Definition.extent place since first) between rest = some document' := by
  induction first generalizing place since document with
  | nil => exact ⟨document, rfl, h⟩
  | cons definition first ih =>
    simp only [List.cons_append, addDefinitions?, Option.bind_eq_bind, Option.bind_eq_some_iff] at h
    obtain ⟨next, hdefinition, hrest⟩ := h
    obtain ⟨between, hfirst, hbehind⟩ := ih hrest
    refine ⟨between, ?_, ?_⟩
    · simp only [addDefinitions?, hdefinition, Option.bind_eq_bind, Option.bind_some]
      exact hfirst
    · rw [List.flatMap_cons, List.length_append, ← Nat.add_assoc]
      exact hbehind

/-- Behind definitions no doc comment of theirs is pending. -/
theorem sinceBehind_definitions {definitions : List Definition} (h : definitions ≠ []) :
    sinceBehind Definition.extent place since definitions =
      place + (definitions.flatMap Definition.tokens).length := by
  obtain ⟨first, last, rfl⟩ := List.eq_nil_or_concat definitions |>.resolve_left h
  have hfirst : lengthOf Definition.extent first = (first.flatMap Definition.tokens).length :=
    lengthOf_eq_length_flatMap (fun _ => rfl) first
  rw [List.concat_eq_append, sinceBehind_concat, hfirst, List.flatMap_append,
    List.length_append, ← Nat.add_assoc, List.flatMap_singleton]
  rfl

/-- The place of a definition that stands behind the headers and the definitions `first`. -/
def Document.placeBehind (tree : Document) (first : List Definition) : Nat :=
  (tree.headers.flatMap Header.tokens).length + (first.flatMap Definition.tokens).length

/-- A header changes nothing but what is no definition. -/
theorem Header.exists_addDocumented_eq (header : Header) (docs : DocTexts) (place since : Nat)
    (document : ServiceIdl.Document) :
    ∃ namespaces includes docText, header.addDocumented docs place since document =
      { document with namespaces, includes, docText } := by
  rw [addDocumented, Document.offerDoc]
  cases header <;> split <;> exact ⟨_, _, _, rfl⟩

/-- The entries are a list of a document at whose end each of the definitions that count puts one
entry, and headers put none. -/
structure Collects {α : Type} (entries : ServiceIdl.Document → List α)
    (counts : Definition → Bool) : Prop where
  empty : entries .empty = []
  header : ∀ (document : ServiceIdl.Document) (namespaces : Namespaces) (includes : List String)
    (docText : String), entries { document with namespaces, includes, docText } = entries document
  definition : ∀ {limit : Nat} {docs : DocTexts} {place since : Nat}
    {document document' : ServiceIdl.Document} {definition : Definition},
    definition.addDocumented? limit docs place since document = some document' →
      ∃ added, entries document' = entries document ++ added ∧
        added.length = if counts definition then 1 else 0

namespace Collects

variable {α : Type} {entries : ServiceIdl.Document → List α} {counts : Definition → Bool}

theorem of_addHeaders (h : Collects entries counts) (headers : List Header) :
    entries (addHeaders docs place since document headers) = entries document := by
  induction headers generalizing place since document with
  | nil => rfl
  | cons header headers ih =>
    obtain ⟨namespaces, includes, docText, heq⟩ :=
      header.exists_addDocumented_eq docs place since document
    rw [addHeaders, ih, heq, h.header]

theorem of_addDefinitions? (h : Collects entries counts) {definitions : List Definition}
    (hadd : addDefinitions? limit docs place since document definitions = some document') :
    ∃ added, entries document' = entries document ++ added ∧
      added.length = definitions.countP counts := by
  induction definitions generalizing place since document with
  | nil =>
    obtain rfl := Option.some.inj hadd
    exact ⟨[], (List.append_nil _).symm, rfl⟩
  | cons definition definitions ih =>
    simp only [addDefinitions?, Option.bind_eq_bind, Option.bind_eq_some_iff] at hadd
    obtain ⟨between, hdefinition, hrest⟩ := hadd
    obtain ⟨first, hfirst, hlength⟩ := h.definition hdefinition
    obtain ⟨added, hadded, hcount⟩ := ih hrest
    refine ⟨first ++ added, by rw [hadded, hfirst, List.append_assoc], ?_⟩
    rw [List.length_append, hlength, hcount, List.countP_cons, Nat.add_comm]

/-- What a definition adds is found behind what the definitions before it added. -/
theorem exists_of_documented? (h : Collects entries counts) {tree : Document}
    {first last : List Definition} {definition : Definition}
    (hdocumented : tree.documented? limit docs = some document)
    (htree : tree.definitions = first ++ definition :: last) :
    ∃ before after, definition.addDocumented? limit docs (tree.placeBehind first)
        (sinceBehind Definition.extent (tree.headers.flatMap Header.tokens).length
          (sinceBehind Header.extent 0 0 tree.headers) first) before = some after ∧
      ∀ {entry}, entries after = entries before ++ [entry] →
        (entries document)[first.countP counts]? = some entry := by
  rw [Document.documented?, htree] at hdocumented
  obtain ⟨before, hfirst, hrest⟩ := addDefinitions?_append hdocumented
  simp only [addDefinitions?, Option.bind_eq_bind, Option.bind_eq_some_iff] at hrest
  obtain ⟨after, hdefinition, hrest⟩ := hrest
  refine ⟨before, after, hdefinition, fun {entry} hentry => ?_⟩
  obtain ⟨previous, hprevious, hcount⟩ := h.of_addDefinitions? hfirst
  obtain ⟨added, hadded, _⟩ := h.of_addDefinitions? hrest
  rw [h.of_addHeaders, h.empty, List.nil_append] at hprevious
  rw [hadded, hentry, hprevious, ← hcount]
  simp

end Collects

theorem collects_headings (kind : DefinitionKind) :
    Collects (·.headings kind) (·.kind = kind) where
  empty := by cases kind <;> rfl
  header _ _ _ _ := rfl
  definition := fun {_ _ _ _ _ _ definition} h => by
    refine ⟨_, definition.headings_of_addDocumented? h kind, ?_⟩
    by_cases hkind : definition.kind = kind <;> simp [hkind]

/-! ### Whole documents -/

namespace Document

variable {tree : Document} {first last : List Definition} {definition : Definition}

/-- A definition is found among those of its kind, with its doc text. -/
theorem getElem?_headings_of_documented? (h : tree.documented? limit docs = some document)
    (htree : tree.definitions = first ++ definition :: last) :
    (document.headings definition.kind)[first.countP (·.kind = definition.kind)]? =
      some (definition.heading docs (tree.placeBehind first)
        (sinceBehind Definition.extent (tree.headers.flatMap Header.tokens).length
          (sinceBehind Header.extent 0 0 tree.headers) first)) := by
  obtain ⟨before, after, hdefinition, hentry⟩ :=
    (collects_headings definition.kind).exists_of_documented? h htree
  refine hentry ?_
  rw [definition.headings_of_addDocumented? hdefinition definition.kind, if_pos rfl]

/-- Every definition behind another one, and every first one without headers in front, has the
doc text of the comments that stand behind the last token before it, and in front of its keyword
or name. -/
def DefinitionsDocumented (tree : Document) (docs : DocTexts) (document : ServiceIdl.Document) :
    Prop :=
  ∀ {first last : List Definition} {definition : Definition},
    tree.definitions = first ++ definition :: last → first ≠ [] ∨ tree.headers = [] →
      (document.headings definition.kind)[first.countP (·.kind = definition.kind)]? =
        some ⟨definition.name, docs.between (tree.placeBehind first)
          (tree.placeBehind first + definition.docTokens)⟩

theorem definitionsDocumented_of_documented? (h : tree.documented? limit docs = some document) :
    tree.DefinitionsDocumented docs document := by
  intro first last definition htree hfirst
  have hsince : sinceBehind Definition.extent (tree.headers.flatMap Header.tokens).length
      (sinceBehind Header.extent 0 0 tree.headers) first = tree.placeBehind first := by
    by_cases hnil : first = []
    · have hheaders := hfirst.resolve_left (not_not_intro hnil)
      rw [placeBehind, hnil, hheaders]
      rfl
    · exact sinceBehind_definitions hnil
  rw [getElem?_headings_of_documented? h htree, hsince]
  rfl

end Document

end Syntax

/-! ### Texts -/

/-- The doc text of every definition of a text that stands behind another definition, or first
in a text without headers. -/
theorem docTexts_of_definitions {options : ParseOptions} {source : String} {document : Document}
    (h : parse options source = .ok document) :
    ∃ tree : Syntax.Document,
      tree.tokens = sentence (TokenStream.ofSource options source).tokens ∧
        tree.value? options.maxTypeDepth = some document.withoutDocTexts ∧
          tree.DefinitionsDocumented (docTextsOf (TokenStream.ofSource options source).tokens)
            document := by
  obtain ⟨tree, htokens, hvalue, hdocumented⟩ := exists_documented_of_parse_eq_ok h
  exact ⟨tree, htokens, hvalue, Document.definitionsDocumented_of_documented? hdocumented⟩

/-- A struct behind an enum has the comments around its keyword, and not the one in the enum. -/
theorem docTexts_of_definitions_behind_enum :
    ∃ tree : Syntax.Document,
      tree.tokens = sentence
        (TokenStream.ofSource ⟨false, 64⟩ "enum E{/** e */}/** k */struct/** n */S{}").tokens ∧
      tree.DefinitionsDocumented
        (docTextsOf (TokenStream.ofSource ⟨false, 64⟩
          "enum E{/** e */}/** k */struct/** n */S{}").tokens)
        { Document.empty with enums := [⟨"E", [], ""⟩], structs := [⟨"S", [], "kn"⟩] } := by
  have hparse : parse ⟨false, 64⟩ "enum E{/** e */}/** k */struct/** n */S{}" =
      .ok { Document.empty with enums := [⟨"E", [], ""⟩], structs := [⟨"S", [], "kn"⟩] } := by
    decide +kernel
  obtain ⟨tree, htokens, _, hdocumented⟩ := docTexts_of_definitions hparse
  exact ⟨tree, htokens, hdocumented⟩

end ServiceIdl
