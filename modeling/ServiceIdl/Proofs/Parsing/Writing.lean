import ServiceIdl.Proofs.Lexing.Rendering
import ServiceIdl.Proofs.Parsing.Layout

/-!
# Texts written from tokens

Tokens other than doc comments can be written as a text that is read back as these tokens, so
what the automaton of the grammar accepts is the sentence of some text. Questions about the
texts that are parsed become questions about lists of tokens.
-/

namespace ServiceIdl

/-- Every token is a lexeme and no doc comment. -/
def IsWritable (strict : Bool) (tokens : List Token) : Prop :=
  ∀ token ∈ tokens, token.IsLexeme strict ∧ token.isDocComment = false

section

variable {strict : Bool} {token : Token} {tokens first second : List Token}

@[simp] theorem isWritable_nil : IsWritable strict [] := by
  simp [IsWritable]

theorem isWritable_cons :
    IsWritable strict (token :: tokens) ↔
      (token.IsLexeme strict ∧ token.isDocComment = false) ∧ IsWritable strict tokens :=
  List.forall_mem_cons

@[simp] theorem isWritable_cons_keyword {word : Keyword} :
    IsWritable strict (.keyword word :: tokens) ↔ IsWritable strict tokens := by
  simp [isWritable_cons, Token.IsLexeme, Token.isDocComment]

@[simp] theorem isWritable_cons_symbol {s : Symbol} :
    IsWritable strict (.symbol s :: tokens) ↔ IsWritable strict tokens := by
  simp [isWritable_cons, Token.IsLexeme, Token.isDocComment]

@[simp] theorem isWritable_cons_identifier {name : String} :
    IsWritable strict (.identifier name :: tokens) ↔
      (Token.identifier name).IsLexeme strict ∧ IsWritable strict tokens := by
  simp [isWritable_cons, Token.isDocComment]

@[simp] theorem isWritable_cons_number {text : String} :
    IsWritable strict (.number text :: tokens) ↔
      (Token.number text).IsLexeme strict ∧ IsWritable strict tokens := by
  simp [isWritable_cons, Token.isDocComment]

@[simp] theorem isWritable_cons_string {text : String} :
    IsWritable strict (.string text :: tokens) ↔
      (Token.string text).IsLexeme strict ∧ IsWritable strict tokens := by
  simp [isWritable_cons, Token.isDocComment]

@[simp] theorem isWritable_cons_separator {separator : Syntax.Separator} :
    IsWritable strict (separator.token :: tokens) ↔ IsWritable strict tokens := by
  cases separator <;> exact isWritable_cons_symbol

@[simp] theorem isWritable_cons_modifier {modifier : Syntax.Modifier} :
    IsWritable strict (modifier.token :: tokens) ↔ IsWritable strict tokens := by
  cases modifier <;> exact isWritable_cons_keyword

@[simp] theorem isWritable_cons_literal {literal : Syntax.Literal} :
    IsWritable strict (literal.token :: tokens) ↔
      literal.token.IsLexeme strict ∧ IsWritable strict tokens := by
  cases literal with
  | number text => exact isWritable_cons_number
  | string text => exact isWritable_cons_string

@[simp] theorem isWritable_append :
    IsWritable strict (first ++ second) ↔ IsWritable strict first ∧ IsWritable strict second :=
  List.forall_mem_append

@[simp] theorem isWritable_optionTokens {ι : Type} {tokensOf : ι → List Token} {part : Option ι} :
    IsWritable strict (Syntax.optionTokens tokensOf part) ↔
      ∀ i ∈ part, IsWritable strict (tokensOf i) := by
  cases part <;> simp [Syntax.optionTokens]

end

/-- The tokens of a text other than doc comments are writable. -/
theorem isWritable_sentence (options : ParseOptions) (source : String) :
    IsWritable options.strictNumbers (sentence (TokenStream.ofSource options source).tokens) := by
  intro token htoken
  simp only [sentence, List.mem_filter, List.mem_map, Bool.not_eq_true'] at htoken
  obtain ⟨⟨t, ht, rfl⟩, hdoc⟩ := htoken
  exact ⟨TokenStream.isLexeme_of_mem_ofSource ht, hdoc⟩

/-- Tokens one below the other, each with a line feed behind it. -/
def writeLines (tokens : List Token) : List Char :=
  renderTokens (tokens.map fun token => (token, ['\n']))

/-- Writable tokens are read back from their text. -/
theorem exists_ofSource_writeLines {options : ParseOptions} {tokens : List Token}
    (h : IsWritable options.strictNumbers tokens) :
    ∃ read span, TokenStream.ofSource options (String.ofList (writeLines tokens)) =
      ⟨read, .endOfInput span⟩ ∧ read.map (·.token) = tokens := by
  have hnewline : IsClosedTrivia ['\n'] := .blank rfl .nil
  have hentries : ∀ entry ∈ tokens.map fun token => (token, ['\n']),
      entry.1.IsLexeme options.strictNumbers ∧ IsClosedTrivia entry.2 := by
    rw [List.forall_mem_map]
    exact fun token htoken => ⟨(h token htoken).1, hnewline⟩
  have hapart : ∀ entry ∈ (tokens.map fun token => (token, ['\n'])).dropLast, entry.2 ≠ [] := by
    intro entry hentry
    obtain ⟨token, _, rfl⟩ := List.mem_map.1 (List.dropLast_subset _ hentry)
    exact List.cons_ne_nil _ _
  obtain ⟨read, span, htiling, htokens⟩ :=
    exists_tiling_renderTokens hentries hapart .nil Position.start
  refine ⟨read, span, ?_, ?_⟩
  · rw [TokenStream.ofSource, Cursor.start, String.toList_ofList]
    exact TokenStream.tiling_iff.1 htiling
  · simpa [Function.comp_def] using htokens

/-- The sentence of the text of writable tokens. -/
theorem sentence_of_isWritable {strict : Bool} {tokens : List SpannedToken}
    (h : IsWritable strict (tokens.map (·.token))) :
    sentence tokens = tokens.map (·.token) :=
  List.filter_eq_self.2 fun token htoken => by simp [(h token htoken).2]

/-- A text that can be split into tokens is parsed if and only if its sentence is accepted. -/
theorem exists_parse_eq_ok_iff_accepts {options : ParseOptions} {source : String} {span : Span}
    {document : Document}
    (hending : (TokenStream.ofSource options source).ending = .endOfInput span) :
    (∃ parsed, parse options source = .ok parsed ∧ parsed.withoutDocTexts = document) ↔
      Accepts (DocumentReader.plain? options.maxTypeDepth) (.more DocumentReader.start)
        (sentence (TokenStream.ofSource options source).tokens ++ [.endOfInput]) document := by
  rw [exists_parse_eq_ok_iff_foldlM hending,
    DocumentReader.accepts_iff_foldlM (endOfInput_notMem_sentence options source)]

/-- The text of writable tokens is parsed as the tokens are accepted. -/
theorem parse_writeLines_eq_ok_iff {options : ParseOptions} {tokens : List Token}
    (h : IsWritable options.strictNumbers tokens) {document : Document} :
    parse options (String.ofList (writeLines tokens)) = .ok document ↔
      Accepts (DocumentReader.plain? options.maxTypeDepth) (.more DocumentReader.start)
        (tokens ++ [.endOfInput]) document := by
  obtain ⟨read, span, hstream, rfl⟩ := exists_ofSource_writeLines h
  have hending : (TokenStream.ofSource options
      (String.ofList (writeLines (read.map (·.token))))).ending = .endOfInput span := by
    rw [hstream]
  -- There are no doc comments in the text, so there are no doc texts in the document.
  have hplain {parsed : Document}
      (hparse : parse options (String.ofList (writeLines (read.map (·.token)))) = .ok parsed) :
      parsed.withoutDocTexts = parsed := by
    refine withoutDocTexts_of_parse_eq_ok hparse ?_
    simp only [hstream, TokenStream.items, List.forall_mem_append, List.forall_mem_map,
      List.forall_mem_singleton]
    exact ⟨fun t ht => (h t.token (List.mem_map_of_mem ht)).2, rfl⟩
  have haccepts : _ ↔ Accepts _ _ _ document := exists_parse_eq_ok_iff_accepts hending
  rw [hstream, sentence_of_isWritable h] at haccepts
  rw [← haccepts]
  constructor
  · exact fun hparse => ⟨document, hparse, hplain hparse⟩
  · rintro ⟨parsed, hparse, rfl⟩
    rw [hplain hparse]
    exact hparse

/-- The document of a text has, without its doc texts, a derivation that can be written. -/
theorem exists_writable_of_parse_eq_ok {options : ParseOptions} {source : String}
    {document : Document} (hparse : parse options source = .ok document) :
    ∃ tree : Syntax.Document, IsWritable options.strictNumbers tree.tokens ∧
      tree.value? options.maxTypeDepth = some document.withoutDocTexts := by
  cases hending : (TokenStream.ofSource options source).ending with
  | fault error => exact absurd hparse (parse_ne_ok_of_fault hending document)
  | endOfInput span =>
    have haccepts := (exists_parse_eq_ok_iff_accepts hending).1 ⟨document, hparse, rfl⟩
    obtain ⟨tree, htokens, hvalue⟩ := DocumentReader.accepts_iff.1 haccepts
    refine ⟨tree, ?_, hvalue⟩
    rw [← List.append_cancel_right htokens]
    exact isWritable_sentence options source

/-- Every derivation that can be written is parsed from some text. -/
theorem exists_parse_eq_ok_of_writable {options : ParseOptions} {tree : Syntax.Document}
    {document : Document} (hwritable : IsWritable options.strictNumbers tree.tokens)
    (hvalue : tree.value? options.maxTypeDepth = some document) :
    ∃ source, parse options source = .ok document :=
  ⟨_, (parse_writeLines_eq_ok_iff hwritable).2 (DocumentReader.accepts_iff.2 ⟨tree, rfl, hvalue⟩)⟩

end ServiceIdl
