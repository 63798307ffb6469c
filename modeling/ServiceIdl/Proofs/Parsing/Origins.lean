import ServiceIdl.Proofs.Lexing.Positions
import ServiceIdl.Proofs.Numbering.Expectations

/-!
# Where errors come from

A text is refused for the fault that ends its token stream, or for one of its tokens. Both stand
in the stream, and its ending stands behind all tokens, so the one that comes first in the text is
reported.
-/

namespace ServiceIdl

variable {options : ParseOptions} {source : String}

theorem tokenize_eq_error_iff {error : LexError} :
    tokenize options source = .error error ↔
      (TokenStream.ofSource options source).ending = .fault error := by
  cases hending : (TokenStream.ofSource options source).ending <;> simp [tokenize, hending]

theorem tokenize_eq_ok_iff {tokens : List SpannedToken} :
    tokenize options source = .ok tokens ↔
      ∃ span, (TokenStream.ofSource options source).ending = .endOfInput span ∧
        (TokenStream.ofSource options source).tokens ++ [⟨.endOfInput, span⟩] = tokens := by
  cases hending : (TokenStream.ofSource options source).ending <;> simp [tokenize, hending]

/-- The only error in a stream is its ending. -/
theorem TokenStream.error_mem_items_iff {stream : TokenStream} {error : LexError} :
    .error error ∈ stream.items ↔ stream.ending = .fault error := by
  cases hending : stream.ending with
  | endOfInput span => simp [items, hending, Ending.item]
  | fault other => simp [items, hending, Ending.item, eq_comm]

theorem TokenStream.ok_mem_items_iff {stream : TokenStream} {t : SpannedToken} :
    .ok t ∈ stream.items ↔
      t ∈ stream.tokens ∨ stream.ending = .endOfInput t.span ∧ t.token = .endOfInput := by
  cases hending : stream.ending with
  | endOfInput span =>
    obtain ⟨token, span'⟩ := t
    simp [items, hending, Ending.item, eq_comm, and_comm]
  | fault other => simp [items, hending, Ending.item]

/-- An error of a text is the fault that ends its stream, or it is no lexical error and stands where
a token stands that is no doc comment. -/
theorem origin_of_parse_eq_error {e : ParseError} (h : parse options source = .error e) :
    (∃ error, (TokenStream.ofSource options source).ending = .fault error ∧ .ofLex error = e) ∨
      (∀ fault, e.fault ≠ .lexical fault) ∧
        ∃ t, .ok t ∈ (TokenStream.ofSource options source).items ∧
          t.token.isDocComment = false ∧ t.span = e.span := by
  rcases justified_of_parse_eq_error h fun _ hmem hdoc => And.intro hmem hdoc with
    ⟨error, hmem, heq⟩ | hjustified
  · exact .inl ⟨error, TokenStream.error_mem_items_iff.1 hmem, heq⟩
  · obtain ⟨t, ⟨hmem, hdoc⟩, hspan⟩ := hjustified.exists_span_eq
    exact .inr ⟨hjustified.ne_lexical, t, hmem, hdoc, hspan⟩

theorem exists_item_of_parse_eq_error {e : ParseError} (h : parse options source = .error e) :
    ∃ item ∈ (TokenStream.ofSource options source).items, item.span = e.span := by
  rcases origin_of_parse_eq_error h with ⟨error, hending, rfl⟩ | ⟨_, t, hmem, _, hspan⟩
  · exact ⟨.error error, TokenStream.error_mem_items_iff.2 hending, rfl⟩
  · exact ⟨.ok t, hmem, hspan⟩

/-- A text that cannot be split into tokens is refused for the fault that ends its stream, or for a
token in front of it. -/
theorem parse_eq_error_of_fault {error : LexError}
    (hending : (TokenStream.ofSource options source).ending = .fault error) :
    ∃ e, parse options source = .error e ∧
      (e = .ofLex error ∨ (∀ fault, e.fault ≠ .lexical fault) ∧
        e.span.start.offset < error.span.start.offset) := by
  cases hparse : parse options source with
  | ok document => exact absurd hparse (parse_ne_ok_of_fault hending document)
  | error e =>
    refine ⟨e, rfl, ?_⟩
    rcases origin_of_parse_eq_error hparse with ⟨other, hother, rfl⟩ | ⟨hfault, t, hmem, _, hspan⟩
    · obtain rfl := Ending.fault.inj (hother.symm.trans hending)
      exact .inl rfl
    · have ht : t ∈ (TokenStream.ofSource options source).tokens := by
        rcases TokenStream.ok_mem_items_iff.1 hmem with ht | ⟨hend, _⟩
        · exact ht
        · rw [hend] at hending
          cases hending
      have hless := TokenStream.lt_start_ending ht
      rw [hending, hspan] at hless
      exact .inr ⟨hfault, hless⟩

/-- Of a fault in the split into tokens and one in the order of the tokens, the one that comes first
in the text is reported: a text that cannot be split into tokens is refused for the very fault that
it has, or for something that stands in front of it, and no other text is refused for a lexical
error. So a text with a document can be split into tokens. -/
theorem first_fault_is_reported (options : ParseOptions) (source : String) :
    (∀ error, tokenize options source = .error error →
      ∃ e, parse options source = .error e ∧
        (e = .ofLex error ∨ (∀ fault, e.fault ≠ .lexical fault) ∧
          e.span.start.offset < error.span.start.offset)) ∧
    (∀ tokens, tokenize options source = .ok tokens →
      ∀ e, parse options source = .error e → ∀ fault, e.fault ≠ .lexical fault) ∧
    ∀ document, parse options source = .ok document →
      ∃ tokens, tokenize options source = .ok tokens := by
  refine ⟨fun error htokenize => ?_, fun tokens htokenize e hparse => ?_, fun document hparse => ?_⟩
  · exact parse_eq_error_of_fault (tokenize_eq_error_iff.1 htokenize)
  · obtain ⟨span, hending, _⟩ := tokenize_eq_ok_iff.1 htokenize
    rcases origin_of_parse_eq_error hparse with ⟨error, hother, _⟩ | ⟨hfault, _⟩
    · rw [hending] at hother
      cases hother
    · exact hfault
  · cases htokenize : tokenize options source with
    | ok tokens => exact ⟨tokens, rfl⟩
    | error error =>
      exact absurd hparse (parse_ne_ok_of_fault (tokenize_eq_error_iff.1 htokenize) document)

/-- An open string behind a keyword that is out of place, and behind one that is not. -/
theorem first_fault_is_reported_open_string :
    (∃ error, tokenize ⟨false, 64⟩ "struct struct \"" = .error error ∧
      ∃ e, parse ⟨false, 64⟩ "struct struct \"" = .error e ∧
        (e = .ofLex error ∨ (∀ fault, e.fault ≠ .lexical fault) ∧
          e.span.start.offset < error.span.start.offset)) ∧
    ∃ error, tokenize ⟨false, 64⟩ "struct \"" = .error error ∧
      ∃ e, parse ⟨false, 64⟩ "struct \"" = .error e ∧
        (e = .ofLex error ∨ (∀ fault, e.fault ≠ .lexical fault) ∧
          e.span.start.offset < error.span.start.offset) := by
  have hfirst : tokenize ⟨false, 64⟩ "struct struct \"" =
      .error ⟨.unterminatedString, ⟨⟨1, 15, 14⟩, 15⟩⟩ := by decide +kernel
  have hsecond : tokenize ⟨false, 64⟩ "struct \"" =
      .error ⟨.unterminatedString, ⟨⟨1, 8, 7⟩, 8⟩⟩ := by decide +kernel
  exact ⟨⟨_, hfirst, (first_fault_is_reported _ _).1 _ hfirst⟩,
    _, hsecond, (first_fault_is_reported _ _).1 _ hsecond⟩

end ServiceIdl
