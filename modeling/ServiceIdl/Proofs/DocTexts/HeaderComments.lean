import Mathlib.Data.List.Basic
import ServiceIdl.Proofs.DocTexts.Headers

/-!
# Doc comments in front of headers

Where no doc comment stands inside a header statement, the text that a header statement takes is
that of the comments directly in front of its keyword. The document keeps the first of these
texts that is not empty. The others go nowhere: whatever stands in front of the keywords of the
headers, nothing but the doc text of the document depends on it.
-/

namespace ServiceIdl

/-! ### Doc texts that agree -/

namespace DocTexts

variable {docs docs' : DocTexts} {bound first middle last : Nat}

/-- The same doc texts from the place `bound` on. -/
def AgreeFrom (bound : Nat) (docs docs' : DocTexts) : Prop :=
  ∀ place, bound ≤ place → docs place = docs' place

theorem AgreeFrom.between_eq (h : AgreeFrom bound docs docs') (hfirst : bound ≤ first)
    (last : Nat) : docs.between first last = docs'.between first last := by
  apply List.foldl_ext
  intro text place hplace
  have hle : first ≤ place := (List.mem_range'_1.1 hplace).1
  rw [h place (hfirst.trans hle)]

theorem between_append (docs : DocTexts) (hmiddle : first ≤ middle) (hlast : middle ≤ last) :
    docs.between first middle ++ docs.between middle last = docs.between first last := by
  induction last, hlast using Nat.le_induction with
  | base => rw [docs.between_self, String.append_empty]
  | succ last hlast ih =>
    rw [docs.between_succ hlast, docs.between_succ (hmiddle.trans hlast), ← ih,
      String.append_assoc]

theorem between_eq_empty (hlast : first ≤ last)
    (h : ∀ place, first ≤ place → place < last → docs place = "") :
    docs.between first last = "" := by
  induction last, hlast using Nat.le_induction with
  | base => exact docs.between_self first
  | succ last hlast ih =>
    have hbefore : docs.between first last = "" := by
      apply ih
      intro place hfirst hplace
      exact h place hfirst (by omega)
    rw [docs.between_succ hlast, hbefore, h last hlast (Nat.lt_succ_self last),
      String.empty_append]

/-- Places without doc text count for nothing in front of others. -/
theorem between_eq_of_empty (hmiddle : first ≤ middle) (hlast : middle ≤ last)
    (h : ∀ place, first ≤ place → place < middle → docs place = "") :
    docs.between first last = docs.between middle last := by
  rw [← docs.between_append hmiddle hlast, between_eq_empty hmiddle h, String.empty_append]

end DocTexts

section

variable {ι β : Type} {extent : ι → Extent} {node node' : Nat → Nat → ι → β}
  {bound place since : Nat}

theorem le_sinceBehind (hplace : bound ≤ place) (hsince : bound ≤ since) (entries : List ι) :
    bound ≤ sinceBehind extent place since entries := by
  induction entries generalizing place since with
  | nil => exact hsince
  | cons entry entries ih => apply ih <;> omega

theorem sinceBehind_le (h : ∀ entry, (extent entry).used ≤ (extent entry).length)
    (hsince : since ≤ place) (entries : List ι) :
    sinceBehind extent place since entries ≤ place + lengthOf extent entries := by
  induction entries generalizing place since with
  | nil => exact hsince
  | cons entry entries ih =>
    rw [lengthOf, ← Nat.add_assoc]
    apply ih
    have hused := h entry
    omega

theorem placed_congr (h : ∀ place since entry, bound ≤ place → bound ≤ since →
      node place since entry = node' place since entry)
    (hplace : bound ≤ place) (hsince : bound ≤ since) (entries : List ι) :
    placed extent node place since entries = placed extent node' place since entries := by
  induction entries generalizing place since with
  | nil => rfl
  | cons entry entries ih =>
    rw [placed, placed, h place since entry hplace hsince]
    congr 1
    apply ih <;> omega

end

namespace Syntax

variable {limit bound place since : Nat} {docs docs' : DocTexts}
  {document document' : ServiceIdl.Document}

/-! ### Nodes depend on the doc texts from where they are pending -/

theorem fieldDocs_congr (h : docs.AgreeFrom bound docs') (hplace : bound ≤ place)
    (hsince : bound ≤ since) (fields : List Field) :
    fieldDocs docs place since fields = fieldDocs docs' place since fields := by
  refine placed_congr ?_ hplace hsince fields
  intro place since field _ hsince
  exact h.between_eq hsince _

theorem Function.docs_congr (h : docs.AgreeFrom bound docs') (hplace : bound ≤ place)
    (hsince : bound ≤ since) (function : Function) :
    function.docs docs place since = function.docs docs' place since := by
  have hfirst : bound ≤ place + 1 := by omega
  have harguments : bound ≤ place + function.head.length + 1 := by omega
  have hthrows : bound ≤ place + function.head.length + 1 +
      (function.arguments.flatMap Field.tokens).length + 3 := by omega
  rw [Function.docs, Function.docs, h.between_eq hsince, fieldDocs_congr h harguments hfirst,
    fieldDocs_congr h hthrows (le_sinceBehind harguments hfirst _)]

theorem functionDocs_congr (h : docs.AgreeFrom bound docs') (hplace : bound ≤ place)
    (hsince : bound ≤ since) (functions : List Function) :
    functionDocs docs place since functions = functionDocs docs' place since functions := by
  refine placed_congr ?_ hplace hsince functions
  intro place since function hplace hsince
  exact function.docs_congr h hplace hsince

theorem Definition.addDocumented?_congr (h : docs.AgreeFrom bound docs') (hplace : bound ≤ place)
    (hsince : bound ≤ since) (definition : Definition) :
    definition.addDocumented? limit docs place since document =
      definition.addDocumented? limit docs' place since document := by
  have hbehind (count : Nat) : bound ≤ place + count := by omega
  cases definition with
  | constant | typedef | enum => simp only [addDocumented?, h.between_eq hsince]
  | struct | exception =>
    simp only [addDocumented?, h.between_eq hsince, fieldDocs_congr h (hbehind 3) (hbehind 2)]
  | service name parent functions =>
    simp only [addDocumented?, h.between_eq hsince, functionDocs_congr h (hbehind _) (hbehind 2)]

theorem addDefinitions?_congr (h : docs.AgreeFrom bound docs') (hplace : bound ≤ place)
    (hsince : bound ≤ since) (definitions : List Definition) :
    addDefinitions? limit docs place since document definitions =
      addDefinitions? limit docs' place since document definitions := by
  induction definitions generalizing place since document with
  | nil => rfl
  | cons definition definitions ih =>
    have hbehind : bound ≤ place + definition.tokens.length := by omega
    simp only [addDefinitions?, definition.addDocumented?_congr h hplace hsince, ih hbehind hbehind]

/-! ### Nodes do not depend on the doc text of the document -/

theorem Definition.addDocumented?_docText (definition : Definition) (docText : String) :
    definition.addDocumented? limit docs place since { document with docText } =
      (definition.addDocumented? limit docs place since document).map ({ · with docText }) := by
  cases definition <;> simp only [addDocumented?, Option.bind_eq_bind, Option.map_bind] <;> rfl

theorem addDefinitions?_docText (definitions : List Definition) (docText : String) :
    addDefinitions? limit docs place since { document with docText } definitions =
      (addDefinitions? limit docs place since document definitions).map ({ · with docText }) := by
  induction definitions generalizing place since document with
  | nil => rfl
  | cons definition definitions ih =>
    rw [addDefinitions?, addDefinitions?, definition.addDocumented?_docText]
    cases definition.addDocumented? limit docs place since document with
    | none => rfl
    | some next => exact ih

theorem foldl_addTo_docText (headers : List Header) (docText : String) :
    headers.foldl Header.addTo { document with docText } =
      { headers.foldl Header.addTo document with docText } := by
  induction headers generalizing document with
  | nil => rfl
  | cons header headers ih =>
    rw [List.foldl_cons, List.foldl_cons, ← ih]
    cases header <;> rfl

/-- Headers say the same with and without doc comments, but for the doc text of the document. -/
theorem addHeaders_eq (headers : List Header) :
    addHeaders docs place since document headers =
      { headers.foldl Header.addTo document with
        docText := firstText (document.docText :: headerDocs docs place since headers) } := by
  rw [← docText_addHeaders]
  induction headers generalizing place since document with
  | nil => rfl
  | cons header headers ih =>
    have hheader : header.addDocumented docs place since document =
        { header.addTo document with
          docText := (header.addDocumented docs place since document).docText } := by
      rw [Header.addDocumented, Document.offerDoc]
      cases header <;> split <;> rfl
    rw [addHeaders, ih, hheader, foldl_addTo_docText, ← hheader, List.foldl_cons]

theorem Header.length_tokens_pos (header : Header) : 0 < header.tokens.length := by
  cases header <;> exact Nat.succ_pos _

theorem sinceBehind_headers_le (headers : List Header) :
    sinceBehind Header.extent 0 0 headers ≤ (headers.flatMap Header.tokens).length := by
  have hused (header : Header) : (Header.extent header).used ≤ (Header.extent header).length :=
    header.length_tokens_pos
  have hle := sinceBehind_le hused (Nat.le_refl 0) headers
  rwa [Nat.zero_add, lengthOf_headers] at hle

/-- Up to the last keyword of a header, doc comments reach the document and nothing in it. -/
theorem Document.documented?_of_agreeFrom {tree : Document}
    (h : tree.documented? limit docs = some document)
    (hagree : docs.AgreeFrom (sinceBehind Header.extent 0 0 tree.headers) docs') :
    tree.documented? limit docs' =
      some { document with docText := firstText (headerDocs docs' 0 0 tree.headers) } := by
  rw [documented?, addHeaders_eq, addDefinitions?_docText] at h ⊢
  obtain ⟨plain, hplain, rfl⟩ := Option.map_eq_some_iff.1 h
  rw [← addDefinitions?_congr hagree (sinceBehind_headers_le _) (Nat.le_refl _), hplain]
  rfl

/-! ### The keywords of headers -/

/-- The places of the keywords of headers. -/
def headerPlaces (place : Nat) : List Header → List Nat
  | [] => []
  | header :: headers => place :: headerPlaces (place + header.tokens.length) headers

theorem le_of_mem_headerPlaces {headers : List Header} {keyword : Nat}
    (h : keyword ∈ headerPlaces place headers) : place ≤ keyword := by
  induction headers generalizing place with
  | nil => cases h
  | cons header headers ih =>
    rcases List.mem_cons.1 h with rfl | hrest
    · exact Nat.le_refl _
    · have hbehind := ih hrest
      omega

/-- What is pending behind headers stands behind all of their keywords. -/
theorem lt_sinceBehind_of_mem_headerPlaces {headers : List Header} {keyword : Nat}
    (h : keyword ∈ headerPlaces place headers) :
    keyword < sinceBehind Header.extent place since headers := by
  induction headers generalizing place since with
  | nil => cases h
  | cons header headers ih =>
    have hlength := header.length_tokens_pos
    rcases List.mem_cons.1 h with rfl | hrest
    · have hbehind : keyword + 1 ≤ keyword + header.tokens.length := by omega
      exact le_sinceBehind hbehind (Nat.le_refl (keyword + 1)) headers
    · exact ih hrest

/-- Without doc texts inside headers, each header takes what stands in front of its keyword. -/
theorem headerDocs_eq_map {headers : List Header} (hsince : since ≤ place)
    (h : ∀ inside, since ≤ inside → inside < place + (headers.flatMap Header.tokens).length →
      inside ∉ headerPlaces place headers → docs inside = "") :
    headerDocs docs place since headers = (headerPlaces place headers).map docs := by
  induction headers generalizing place since with
  | nil => rfl
  | cons header headers ih =>
    have hlength := header.length_tokens_pos
    rw [List.flatMap_cons, List.length_append, ← Nat.add_assoc] at h
    have hfirst : docs.between since (place + 1) = docs place := by
      rw [DocTexts.between_eq_of_empty hsince (Nat.le_succ place), docs.between_one]
      intro inside hinside hplace
      apply h inside hinside (by omega)
      -- In front of the first keyword stands no other one.
      intro hmem
      have hbehind := le_of_mem_headerPlaces hmem
      omega
    have hheaders : headerDocs docs (place + header.tokens.length) (place + 1) headers =
        (headerPlaces (place + header.tokens.length) headers).map docs := by
      apply ih (by omega)
      intro inside hinside hlast hnotMem
      apply h inside (by omega) hlast
      intro hmem
      rcases List.mem_cons.1 hmem with rfl | hmem
      · omega
      · exact hnotMem hmem
    rw [headerPlaces, List.map_cons, ← hfirst, ← hheaders]
    rfl

/-! ### Whole documents -/

namespace Document

/-- A derivation of a text, which denotes a document but for its doc texts. -/
structure IsDerivation (options : ParseOptions) (source : String) (document : ServiceIdl.Document)
    (tree : Document) : Prop where
  tokens : tree.tokens = sentence (TokenStream.ofSource options source).tokens
  value : tree.value? options.maxTypeDepth = some document.withoutDocTexts

/-- The places of the keywords of all headers. -/
def headerPlaces (tree : Document) : List Nat :=
  Syntax.headerPlaces 0 tree.headers

/-- No doc comment says something between the keyword of a header statement and its last token. -/
def HeadersPlain (tree : Document) (docs : DocTexts) : Prop :=
  ∀ place < (tree.headers.flatMap Header.tokens).length, place ∉ tree.headerPlaces →
    docs place = ""

instance (tree : Document) (docs : DocTexts) : Decidable (tree.HeadersPlain docs) :=
  inferInstanceAs (Decidable (∀ place < _, _))

/-- Where the doc comments in front of headers go. -/
structure HeaderCommentsTaken (options : ParseOptions) (source : String)
    (document : ServiceIdl.Document) (tree : Document) : Prop where
  /-- The document has the first of the texts in front of headers that is not empty. -/
  docText : document.docText = firstText
    (tree.headerPlaces.map (docTextsOf (TokenStream.ofSource options source).tokens))
  /-- With other doc comments in front of headers, all but the doc text of the document is the
  same. -/
  elsewhere : ∀ {changed : String} {span : Span},
    (TokenStream.ofSource options changed).ending = .endOfInput span →
      sentence (TokenStream.ofSource options changed).tokens =
        sentence (TokenStream.ofSource options source).tokens →
        (∀ place ∉ tree.headerPlaces,
          docTextsOf (TokenStream.ofSource options changed).tokens place =
            docTextsOf (TokenStream.ofSource options source).tokens place) →
          parse options changed = .ok { document with
            docText := firstText
              (tree.headerPlaces.map (docTextsOf (TokenStream.ofSource options changed).tokens)) }
  /-- The first definition has the comments since the last token of the headers. -/
  definition : ∀ {definition : Definition} {last : List Definition},
    tree.definitions = definition :: last →
      (document.headings definition.kind)[0]? = some ⟨definition.name,
        (docTextsOf (TokenStream.ofSource options source).tokens).between (tree.placeBehind [])
          (tree.placeBehind [] + definition.docTokens)⟩

variable {tree : Document}

theorem headerDocs_eq_map_of_headersPlain (h : tree.HeadersPlain docs) :
    headerDocs docs 0 0 tree.headers = tree.headerPlaces.map docs := by
  apply Syntax.headerDocs_eq_map (Nat.le_refl 0)
  intro inside _ hlast hinside
  rw [Nat.zero_add] at hlast
  exact h inside hlast hinside

theorem elsewhere_of_documented? (h : tree.documented? limit docs = some document)
    (hplain : tree.HeadersPlain docs)
    (hagree : ∀ place ∉ tree.headerPlaces, docs' place = docs place) :
    tree.documented? limit docs' =
      some { document with docText := firstText (tree.headerPlaces.map docs') } := by
  have hplain' : tree.HeadersPlain docs' := by
    intro place hplace hinside
    rw [hagree place hinside]
    exact hplain place hplace hinside
  rw [← headerDocs_eq_map_of_headersPlain hplain']
  apply documented?_of_agreeFrom h
  intro place hplace
  refine (hagree place ?_).symm
  intro hmem
  exact absurd hplace (Nat.not_le.2 (lt_sinceBehind_of_mem_headerPlaces hmem))

theorem definition_of_documented? {definition : Definition} {last : List Definition}
    (h : tree.documented? limit docs = some document) (hplain : tree.HeadersPlain docs)
    (hdefinitions : tree.definitions = definition :: last) :
    (document.headings definition.kind)[0]? = some ⟨definition.name,
      docs.between (tree.placeBehind []) (tree.placeBehind [] + definition.docTokens)⟩ := by
  have htree : tree.definitions = [] ++ definition :: last := hdefinitions
  have hheading := getElem?_headings_of_documented? h htree
  -- What is pending behind the last keyword of a header stands inside that header.
  have hempty : docs.between (sinceBehind Header.extent 0 0 tree.headers)
        (tree.placeBehind [] + definition.docTokens) =
      docs.between (tree.placeBehind []) (tree.placeBehind [] + definition.docTokens) := by
    apply DocTexts.between_eq_of_empty (sinceBehind_headers_le tree.headers) (Nat.le_add_right _ _)
    intro place hsince hplace
    apply hplain place hplace
    intro hmem
    exact absurd hsince (Nat.not_le.2 (lt_sinceBehind_of_mem_headerPlaces hmem))
  rw [← hempty]
  exact hheading

end Document

end Syntax

/-! ### Texts -/

/-- Every text has a derivation. Where no doc comment stands inside a header of it, the document
has the first text in front of a header that is not empty, no other node depends on these texts,
and the first definition has what stands behind the headers. -/
theorem header_comments_reach_only_the_document {options : ParseOptions} {source : String}
    {document : Document} (h : parse options source = .ok document) :
    (∃ tree : Syntax.Document, tree.IsDerivation options source document) ∧
      ∀ tree : Syntax.Document, tree.IsDerivation options source document →
        tree.HeadersPlain (docTextsOf (TokenStream.ofSource options source).tokens) →
          tree.HeaderCommentsTaken options source document := by
  refine ⟨?_, fun tree htree hplain => ?_⟩
  · obtain ⟨tree, htokens, hvalue, _⟩ := exists_documented_of_parse_eq_ok h
    exact ⟨tree, htokens, hvalue⟩
  · have hdocumented := documented?_of_parse_eq_ok h htree.tokens htree.value
    refine ⟨?_, fun hending htokens hagree => ?_, fun hdefinitions => ?_⟩
    · rw [(Syntax.Document.headersDocumented_of_documented? hdocumented).docText,
        Syntax.Document.headerDocs_eq_map_of_headersPlain hplain]
    · exact parse_eq_ok_of_documented hending (htree.tokens.trans htokens.symm)
        (Syntax.Document.elsewhere_of_documented? hdocumented hplain hagree)
    · exact Syntax.Document.definition_of_documented? hdocumented hplain hdefinitions

/-- The blank comment in front of the first header leaves the document to the second, and the one
in front of the third goes nowhere. -/
theorem header_comments_reach_only_the_document_behind_blank :
    ∃ tree : Syntax.Document,
      tree.HeadersPlain (docTextsOf (TokenStream.ofSource ⟨false, 64⟩
        "/***/include 'a'/** d */namespace * b/** n */include 'c'/** k */struct S{}").tokens) ∧
      tree.HeaderCommentsTaken ⟨false, 64⟩
        "/***/include 'a'/** d */namespace * b/** n */include 'c'/** k */struct S{}"
        { Document.empty with
          namespaces := Namespaces.empty.insert "*" "b"
          includes := ["a", "c"]
          structs := [⟨"S", [], "k"⟩]
          docText := "d" } := by
  have hparse : parse ⟨false, 64⟩
      "/***/include 'a'/** d */namespace * b/** n */include 'c'/** k */struct S{}" =
        .ok { Document.empty with
          namespaces := Namespaces.empty.insert "*" "b"
          includes := ["a", "c"]
          structs := [⟨"S", [], "k"⟩]
          docText := "d" } := by
    decide +kernel
  let tree : Syntax.Document :=
    ⟨[.includePath "'a'", .namespaceName none "b", .includePath "'c'"], [.struct "S" []]⟩
  have hplain : tree.HeadersPlain (docTextsOf (TokenStream.ofSource ⟨false, 64⟩
      "/***/include 'a'/** d */namespace * b/** n */include 'c'/** k */struct S{}").tokens) := by
    decide +kernel
  refine ⟨tree, hplain, ?_⟩
  exact (header_comments_reach_only_the_document hparse).2 tree ⟨by decide +kernel, rfl⟩ hplain

end ServiceIdl
