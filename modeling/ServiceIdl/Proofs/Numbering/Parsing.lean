import ServiceIdl.Proofs.Numbering.Expectations

/-!
# The numbers of a text

A text that is parsed gets ascending numbers, by which its entries are found. While any text is
read, the next number of the open list is from one to 2^31, so the only number that an entry can
fail to get is the last of these.
-/

namespace ServiceIdl

open Syntax (DefinitionsNumbered)

variable {options : ParseOptions} {source : String}

/-- The numbers in a document that is parsed are those of a derivation of the text. -/
theorem exists_numbered_of_parse_eq_ok {document : Document}
    (h : parse options source = .ok document) :
    ∃ tree : Syntax.Document,
      tree.tokens = sentence (TokenStream.ofSource options source).tokens ∧
        tree.value? options.maxTypeDepth = some document.withoutDocTexts ∧
          DefinitionsNumbered tree.definitions document := by
  have hderivation := (exists_parse_eq_ok_iff_derivation options source _).1 ⟨document, h, rfl⟩
  obtain ⟨_, tree, htokens, hvalue⟩ := hderivation
  exact ⟨tree, htokens, hvalue, Syntax.Document.definitionsNumbered_of_value? hvalue⟩

/-- An entry without a number fails to get one only behind the greatest number. -/
theorem eq_of_implicitNumber_eq_error {expected : Int} {span : Span} {e : ParseError}
    (hleast : 1 ≤ expected) (hgreatest : expected ≤ 2147483648)
    (h : implicitNumber expected span = .error e) : e = ⟨.invalidInteger "2147483648", span⟩ := by
  unfold implicitNumber at h
  split at h
  · cases h
  · next hnone =>
    rw [int32?_eq_none hleast hgreatest hnone] at h
    exact (Except.error.inj h).symm

/-- However far a stream is read, the next number of the open list is from one to 2^31. -/
theorem expectation_bounds {limit : Nat} {items : List Item} {state : DocumentReader.State}
    {left : String}
    (h : (readItems limit DocumentReader.start items).run "" = .ok (state, left)) {expected : Int}
    (hexpected : state.expectation? = some expected) : 1 ≤ expected ∧ expected ≤ 2147483648 := by
  obtain ⟨numbers, hnumbers, rfl⟩ := Option.map_eq_some_iff.1 hexpected
  have hstate := ascending_of_readItems_eq_ok (fun _ hmem _ => hmem) h
  have hascending := hstate.ascendFrom hnumbers
  rw [← numberBehind_one]
  exact hascending.numberBehind_bounds

theorem numbersJustified_of_parse_eq_error {e : ParseError} (h : parse options source = .error e) :
    e.NumbersJustified fun t => .ok t ∈ (TokenStream.ofSource options source).items := by
  rcases justified_of_parse_eq_error h fun _ hmem _ => hmem with ⟨error, _, rfl⟩ | hjustified
  · exact numbersJustified_ofLex _ error
  · exact hjustified.numbersJustified

/-- In every list of a text that is parsed the numbers ascend from one on, and each is stated or
the one behind the number before it. While any text is read, the next number is from one to 2^31,
and an entry without a number fails to get it only if it is the last of these. A complaint about
a number names that one, or a number of the text. -/
theorem parse_numbers_ascend (options : ParseOptions) (source : String) :
    (∀ document, parse options source = .ok document →
      document.NumbersAscend ∧ ∃ tree : Syntax.Document,
        tree.tokens = sentence (TokenStream.ofSource options source).tokens ∧
          tree.value? options.maxTypeDepth = some document.withoutDocTexts ∧
            DefinitionsNumbered tree.definitions document) ∧
    (∀ first rest state left, (TokenStream.ofSource options source).items = first ++ rest →
      (readItems options.maxTypeDepth DocumentReader.start first).run "" = .ok (state, left) →
        ∀ expected, state.expectation? = some expected →
          1 ≤ expected ∧ expected ≤ 2147483648 ∧ ∀ span e, implicitNumber expected span = .error e →
            e = ⟨.invalidInteger "2147483648", span⟩) ∧
    ∀ e, parse options source = .error e →
      e.NumbersJustified fun t => .ok t ∈ (TokenStream.ofSource options source).items := by
  refine ⟨fun document hparse => ?_, fun first rest state left _ hrun expected hexpected => ?_,
    fun e hparse => numbersJustified_of_parse_eq_error hparse⟩
  · obtain ⟨tree, htokens, hvalue, hnumbered⟩ := exists_numbered_of_parse_eq_ok hparse
    exact ⟨hnumbered.numbersAscend, tree, htokens, hvalue, hnumbered⟩
  · obtain ⟨hleast, hgreatest⟩ := expectation_bounds hrun hexpected
    exact ⟨hleast, hgreatest, fun span e => eq_of_implicitNumber_eq_error hleast hgreatest⟩

/-- A name that is declared again, and an entry behind the greatest number. -/
theorem parse_numbers_ascend_greatest :
    (∃ document, parse ⟨false, 64⟩ "enum E{A B=2147483646 A}" = .ok document ∧
      document.enums = [⟨"E", [⟨"B", 2147483646⟩, ⟨"A", 2147483647⟩], ""⟩] ∧
        document.NumbersAscend) ∧
    ∃ e, parse ⟨false, 64⟩ "struct S{2147483647:T a U b}" = .error e ∧
      e.fault = .invalidInteger "2147483648" ∧
        e.NumbersJustified fun t =>
          .ok t ∈ (TokenStream.ofSource ⟨false, 64⟩ "struct S{2147483647:T a U b}").items := by
  have hparse : parse ⟨false, 64⟩ "enum E{A B=2147483646 A}" =
      .ok { Document.empty with
        enums := [⟨"E", [⟨"B", 2147483646⟩, ⟨"A", 2147483647⟩], ""⟩] } := by decide +kernel
  have hfails : parse ⟨false, 64⟩ "struct S{2147483647:T a U b}" =
      .error ⟨.invalidInteger "2147483648", ⟨⟨1, 25, 24⟩, 25⟩⟩ := by decide +kernel
  exact ⟨⟨_, hparse, rfl, ((parse_numbers_ascend _ _).1 _ hparse).1⟩,
    _, hfails, rfl, (parse_numbers_ascend _ _).2.2 _ hfails⟩

end ServiceIdl
