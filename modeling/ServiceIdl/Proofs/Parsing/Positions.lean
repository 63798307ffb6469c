import ServiceIdl.Proofs.Lexing.Requests
import ServiceIdl.Proofs.Parsing.Origins

/-!
# All positions are right

Whatever is handed out of a source text, tokens, lexical errors and parse errors, stands where its
span says.
-/

namespace ServiceIdl

variable {options : ParseOptions} {source : String}

theorem exists_covers_of_parse_eq_error {e : ParseError} (h : parse options source = .error e) :
    ∃ before part rest, e.span.Covers source.toList before part rest := by
  obtain ⟨item, hmem, hspan⟩ := exists_item_of_parse_eq_error h
  obtain ⟨before, part, rest, hcovers, _⟩ := TokenStream.exists_covers_of_mem_items hmem
  exact ⟨before, part, rest, hspan ▸ hcovers⟩

theorem ok_mem_items_of_tokenize_eq_ok {tokens : List SpannedToken}
    (h : tokenize options source = .ok tokens) {t : SpannedToken} (ht : t ∈ tokens) :
    .ok t ∈ (TokenStream.ofSource options source).items := by
  obtain ⟨span, hending, rfl⟩ := tokenize_eq_ok_iff.1 h
  rw [TokenStream.ok_mem_items_iff]
  rcases List.mem_append.1 ht with ht | ht
  · exact .inl ht
  · obtain rfl := List.mem_singleton.1 ht
    exact .inr ⟨hending, rfl⟩

/-- Every token and every lexical error that a lexer hands out, in whichever way it is asked, all
tokens of a text, the fault that keeps it from being split into tokens, and the error it is refused
for: all of them have right spans. -/
theorem positions_are_right (options : ParseOptions) (source : String) :
    (∀ requests item, some item ∈ (Lexer.ofSource options source).answers requests →
      item.span.LocatedIn source.toList) ∧
    (∀ tokens, tokenize options source = .ok tokens →
      ∀ t ∈ tokens, t.span.LocatedIn source.toList) ∧
    (∀ error, tokenize options source = .error error → error.span.LocatedIn source.toList) ∧
    ∀ e, parse options source = .error e → e.span.LocatedIn source.toList := by
  refine ⟨fun requests item hmem => ?_, fun tokens htokenize t ht => ?_,
    fun error htokenize => ?_, fun e hparse => ?_⟩
  · rw [Lexer.ofSource, Lexer.answers_reading] at hmem
    exact TokenStream.locatedIn_of_mem_items (TokenStream.mem_items_of_some_mem_answers hmem)
  · have hmem := ok_mem_items_of_tokenize_eq_ok htokenize ht
    exact TokenStream.locatedIn_of_mem_items hmem
  · have hmem := TokenStream.error_mem_items_iff.2 (tokenize_eq_error_iff.1 htokenize)
    exact TokenStream.locatedIn_of_mem_items hmem
  · obtain ⟨before, part, rest, hcovers⟩ := exists_covers_of_parse_eq_error hparse
    exact hcovers.locatedIn

/-- A number out of order behind characters of several bytes, tabs and line ends of two kinds. -/
theorem positions_are_right_mixed :
    ∃ e, parse ⟨true, 0⟩ "include \"\n\r𐐀\"\r\n\tstruct é{3:T ж 2:T b}" = .error e ∧
      e.fault = .indexOutOfOrder .field 2 4 ∧ e.span = ⟨⟨3, 17, 36⟩, 37⟩ ∧
        e.span.LocatedIn "include \"\n\r𐐀\"\r\n\tstruct é{3:T ж 2:T b}".toList := by
  have hparse : parse ⟨true, 0⟩ "include \"\n\r𐐀\"\r\n\tstruct é{3:T ж 2:T b}" =
      .error ⟨.indexOutOfOrder .field 2 4, ⟨⟨3, 17, 36⟩, 37⟩⟩ := by decide +kernel
  exact ⟨_, hparse, rfl, rfl, (positions_are_right _ _).2.2.2 _ hparse⟩

end ServiceIdl
