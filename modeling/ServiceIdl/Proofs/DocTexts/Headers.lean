import ServiceIdl.Proofs.DocTexts.Definitions

/-!
# The doc texts of headers

A header statement takes the doc comments that are pending at its keyword, and the document keeps
the first of these texts that is not empty. Nothing is forgotten at the end of a header statement:
the doc comments behind its keyword are pending at the keyword of the next one, or in the first
definition.
-/

namespace ServiceIdl

/-- The first text that is not empty. -/
def firstText (texts : List String) : String :=
  (texts.find? (· ≠ "")).getD ""

theorem firstText_cons (text : String) (texts : List String) :
    firstText (text :: texts) = if text = "" then firstText texts else text := by
  by_cases h : text = "" <;> simp [firstText, h]

namespace Syntax

variable {limit : Nat} {docs : DocTexts} {place since : Nat}
  {document document' : ServiceIdl.Document}

/-- The doc texts that header statements take at their keywords. -/
def headerDocs (docs : DocTexts) (place since : Nat) (headers : List Header) : List String :=
  placed Header.extent (fun place since _ => docs.between since (place + 1)) place since headers

/-! ### The doc text of a document -/

theorem Header.docText_addDocumented (header : Header) :
    (header.addDocumented docs place since document).docText =
      if document.docText = "" then docs.between since (place + 1) else document.docText := by
  have hoffer : (header.addDocumented docs place since document).docText =
      (document.offerDoc (docs.between since (place + 1))).docText := by
    cases header <;> rfl
  rw [hoffer, Document.offerDoc]
  split <;> rfl

/-- Of the doc texts of headers a document without one keeps the first that is not empty. -/
theorem docText_addHeaders (headers : List Header) :
    (addHeaders docs place since document headers).docText =
      firstText (document.docText :: headerDocs docs place since headers) := by
  induction headers generalizing place since document with
  | nil =>
    rw [firstText_cons]
    by_cases h : document.docText = ""
    · rw [if_pos h]
      exact h
    · rw [if_neg h]
      rfl
  | cons header headers ih =>
    rw [addHeaders, ih, firstText_cons, firstText_cons, header.docText_addDocumented]
    by_cases h : document.docText = ""
    · have hcons : headerDocs docs place since (header :: headers) = docs.between since (place + 1)
          :: headerDocs docs (place + header.tokens.length) (place + 1) headers := rfl
      rw [if_pos h, if_pos h, hcons, firstText_cons]
    · rw [if_neg h, if_neg h, if_neg h]

theorem Definition.docText_of_addDocumented? {definition : Definition}
    (h : definition.addDocumented? limit docs place since document = some document') :
    document'.docText = document.docText := by
  cases definition <;>
  · simp only [addDocumented?, Option.bind_eq_bind, Option.bind_eq_some_iff] at h
    obtain ⟨_, _, ⟨⟩⟩ := h
    rfl

/-- Definitions do not change the doc text of their document. -/
theorem docText_of_addDefinitions? {definitions : List Definition}
    (h : addDefinitions? limit docs place since document definitions = some document') :
    document'.docText = document.docText := by
  induction definitions generalizing place since document with
  | nil =>
    obtain rfl := Option.some.inj h
    rfl
  | cons definition definitions ih =>
    simp only [addDefinitions?, Option.bind_eq_bind, Option.bind_eq_some_iff] at h
    obtain ⟨between, hdefinition, hrest⟩ := h
    rw [ih hrest, definition.docText_of_addDocumented? hdefinition]

/-! ### Whole documents -/

namespace Document

variable {tree : Document}

/-- The document has the first of the doc texts that its headers take, and the first definition
behind a header has the doc comments since the keyword of that header. -/
structure HeadersDocumented (tree : Document) (docs : DocTexts) (document : ServiceIdl.Document) :
    Prop where
  docText : document.docText = firstText (headerDocs docs 0 0 tree.headers)
  definition : ∀ {previous : List Header} {header : Header} {definition : Definition}
    {last : List Definition},
    tree.headers = previous ++ [header] → tree.definitions = definition :: last →
      (document.headings definition.kind)[0]? =
        some ⟨definition.name, docs.between ((previous.flatMap Header.tokens).length + 1)
          (tree.placeBehind [] + definition.docTokens)⟩

theorem headersDocumented_of_documented? (h : tree.documented? limit docs = some document) :
    tree.HeadersDocumented docs document where
  docText := by
    rw [docText_of_addDefinitions? h, docText_addHeaders, firstText_cons, if_pos]
    rfl
  definition := by
    intro previous header definition last hheaders hdefinitions
    have hsince : sinceBehind Header.extent 0 0 tree.headers =
        (previous.flatMap Header.tokens).length + 1 := by
      rw [hheaders, sinceBehind_concat, lengthOf_headers, Nat.zero_add]
      rfl
    have htree : tree.definitions = [] ++ definition :: last := hdefinitions
    rw [← hsince]
    exact getElem?_headings_of_documented? h htree

end Document

end Syntax

/-! ### Texts -/

/-- The doc text of every text with headers, and that of the first definition behind them. -/
theorem docTexts_of_headers {options : ParseOptions} {source : String} {document : Document}
    (h : parse options source = .ok document) :
    ∃ tree : Syntax.Document,
      tree.tokens = sentence (TokenStream.ofSource options source).tokens ∧
        tree.value? options.maxTypeDepth = some document.withoutDocTexts ∧
          tree.HeadersDocumented (docTextsOf (TokenStream.ofSource options source).tokens)
            document := by
  obtain ⟨tree, htokens, hvalue, hdocumented⟩ := exists_documented_of_parse_eq_ok h
  exact ⟨tree, htokens, hvalue, Syntax.Document.headersDocumented_of_documented? hdocumented⟩

/-- The comment in front of the second header is the first that a header takes. -/
theorem docTexts_of_headers_behind_include :
    ∃ tree : Syntax.Document,
      tree.tokens = sentence (TokenStream.ofSource ⟨false, 64⟩
        "include 'a' /** d */ namespace * a struct /** n */ S {}").tokens ∧
      tree.HeadersDocumented
        (docTextsOf (TokenStream.ofSource ⟨false, 64⟩
          "include 'a' /** d */ namespace * a struct /** n */ S {}").tokens)
        { Document.empty with
          namespaces := Namespaces.empty.insert "*" "a"
          includes := ["a"]
          structs := [⟨"S", [], "n"⟩]
          docText := "d" } := by
  have hparse : parse ⟨false, 64⟩ "include 'a' /** d */ namespace * a struct /** n */ S {}" =
      .ok { Document.empty with
        namespaces := Namespaces.empty.insert "*" "a"
        includes := ["a"]
        structs := [⟨"S", [], "n"⟩]
        docText := "d" } := by
    decide +kernel
  obtain ⟨tree, htokens, _, hdocumented⟩ := docTexts_of_headers hparse
  exact ⟨tree, htokens, hdocumented⟩

/-- The comment `x` stands behind the keyword of the header statement, and is still pending at
the name of the struct. -/
theorem doc_comment_leaks_from_header :
    parse ⟨false, 64⟩ "namespace /** x */ * a struct S {}" =
        .ok { Document.empty with
          namespaces := Namespaces.empty.insert "*" "a"
          structs := [⟨"S", [], "x"⟩] } ∧
      docTextsOf (TokenStream.ofSource ⟨false, 64⟩ "namespace /** x */ * a struct S {}").tokens 1 =
        "x" ∧
      sentence (TokenStream.ofSource ⟨false, 64⟩ "namespace /** x */ * a struct S {}").tokens =
        [.keyword .namespaceHeader, .symbol .star, .identifier "a", .keyword .structDef,
          .identifier "S", .symbol .leftBrace, .symbol .rightBrace] := by
  decide +kernel

end ServiceIdl
