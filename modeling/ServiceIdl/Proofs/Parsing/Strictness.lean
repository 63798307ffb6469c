import ServiceIdl.Proofs.Grammar.Parsing
import ServiceIdl.Proofs.Lexing.Strictness

/-!
# Texts whose numbers must have the strict form

The demand for the strict form of numbers only rejects. A text that is parsed with it is parsed
alike without it, and a text that is parsed without it is refused for its first number without
the strict form, if it has one. Up to that number both readings go the same way, so that a fault
in front of it is found by both.
-/

namespace ServiceIdl

open TokenStream (BreaksAt)

variable {depth : Nat} {source text : String} {before : List SpannedToken} {span : Span}

/-- Where all numbers have the strict form, the demand for it makes no difference. -/
theorem parse_true_of_forall
    (h : ∀ t ∈ (TokenStream.ofSource ⟨false, depth⟩ source).tokens, t.token.HasStrictForm) :
    parse ⟨true, depth⟩ source = parse ⟨false, depth⟩ source := by
  rw [parse_eq_map_readItems, parse_eq_map_readItems, TokenStream.ofSource_true_of_forall h]

/-- With the demand for the strict form, the first number without it is the fault, unless there is
a fault in front of it, which is found without the demand as well. -/
theorem parse_true_of_breaksAt
    (h : BreaksAt (TokenStream.ofSource ⟨false, depth⟩ source).tokens before text span) :
    parse ⟨true, depth⟩ source = .error (.ofLex ⟨.invalidNumber text, span⟩) ∨
      ∃ e, parse ⟨true, depth⟩ source = .error e ∧ parse ⟨false, depth⟩ source = .error e := by
  have hstrict := TokenStream.ofSource_true_of_breaksAt h
  obtain ⟨_, _, after, htokens⟩ := h
  rw [parse_eq_map_readItems, parse_eq_map_readItems, hstrict, TokenStream.items,
    TokenStream.items, htokens, List.map_append, List.append_assoc, readItems_append,
    readItems_append, StateT.run_bind, StateT.run_bind]
  -- Both readings start with the tokens in front of the number.
  cases (readItems depth DocumentReader.start (before.map .ok)).run "" with
  | error e => exact .inr ⟨e, rfl, rfl⟩
  | ok result => exact .inl rfl

/-- The demand for the strict form makes no difference, or its violation is the error. -/
theorem parse_true_eq_or (depth : Nat) (source : String) :
    parse ⟨true, depth⟩ source = parse ⟨false, depth⟩ source ∨
      ∃ text span, parse ⟨true, depth⟩ source = .error (.ofLex ⟨.invalidNumber text, span⟩) := by
  rcases TokenStream.forall_hasStrictForm_or_breaksAt
    (TokenStream.ofSource ⟨false, depth⟩ source).tokens with hall | ⟨before, text, span, hbreaks⟩
  · exact .inl (parse_true_of_forall hall)
  · rcases parse_true_of_breaksAt hbreaks with hnumber | ⟨e, hstrict, hlenient⟩
    · exact .inr ⟨text, span, hnumber⟩
    · exact .inl (hstrict.trans hlenient.symm)

/-- A document that is found with the demand is found without it. -/
theorem parse_false_of_parse_true_eq_ok {document : Document}
    (h : parse ⟨true, depth⟩ source = .ok document) :
    parse ⟨false, depth⟩ source = .ok document := by
  rcases parse_true_eq_or depth source with heq | ⟨text, span, hnumber⟩
  · rw [← heq, h]
  · rw [hnumber] at h
    cases h

theorem parse_false_of_parse_true_eq_error {e : ParseError}
    (h : parse ⟨true, depth⟩ source = .error e)
    (hother : ∀ text, e.fault ≠ .lexical (.invalidNumber text)) :
    parse ⟨false, depth⟩ source = .error e := by
  rcases parse_true_eq_or depth source with heq | ⟨text, span, hnumber⟩
  · rw [← heq, h]
  · rw [hnumber] at h
    obtain rfl := Except.error.inj h
    exact absurd rfl (hother text)

/-- A document that is found without the demand is refused for its first number without the
strict form. -/
theorem parse_true_eq_error_of_parse_false {document : Document}
    (h : parse ⟨false, depth⟩ source = .ok document)
    (hbreaks : BreaksAt (TokenStream.ofSource ⟨false, depth⟩ source).tokens before text span) :
    parse ⟨true, depth⟩ source = .error (.ofLex ⟨.invalidNumber text, span⟩) := by
  rcases parse_true_of_breaksAt hbreaks with hnumber | ⟨e, _, hlenient⟩
  · exact hnumber
  · rw [hlenient] at h
    cases h

/-- The demand for the strict form of numbers only rejects. The tokens are the same up to the
first number without that form, which is a fault instead. A text that has a document with the
demand has the same one without; an error other than that fault is the same one without; and a
text that has a document without the demand has it with the demand if all its numbers are of the
strict form, and else is refused for the first one that is not. -/
theorem strict_numbers_only_reject (depth : Nat) (source : String) :
    let lenient := TokenStream.ofSource ⟨false, depth⟩ source
    let strict := TokenStream.ofSource ⟨true, depth⟩ source
    ((∀ t ∈ lenient.tokens, t.token.HasStrictForm) → strict = lenient) ∧
    (∀ before text span, BreaksAt lenient.tokens before text span →
      strict = ⟨before, .fault ⟨.invalidNumber text, span⟩⟩) ∧
    (∀ document, parse ⟨true, depth⟩ source = .ok document →
      parse ⟨false, depth⟩ source = .ok document) ∧
    (∀ e, parse ⟨true, depth⟩ source = .error e →
      (∀ text, e.fault ≠ .lexical (.invalidNumber text)) →
        parse ⟨false, depth⟩ source = .error e) ∧
    ∀ document, parse ⟨false, depth⟩ source = .ok document →
      ((∀ t ∈ lenient.tokens, t.token.HasStrictForm) →
        parse ⟨true, depth⟩ source = .ok document) ∧
      ∀ before text span, BreaksAt lenient.tokens before text span →
        parse ⟨true, depth⟩ source = .error (.ofLex ⟨.invalidNumber text, span⟩) := by
  refine ⟨TokenStream.ofSource_true_of_forall,
    fun _ _ _ => TokenStream.ofSource_true_of_breaksAt,
    fun _ => parse_false_of_parse_true_eq_ok, fun _ => parse_false_of_parse_true_eq_error,
    fun document hparse => ⟨fun hall => ?_, fun _ _ _ => ?_⟩⟩
  · rw [parse_true_of_forall hall, hparse]
  · exact parse_true_eq_error_of_parse_false hparse

end ServiceIdl
