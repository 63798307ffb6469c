import ServiceIdl.Proofs.Grammar.Types
import ServiceIdl.Reader.FieldList

/-!
# Field lists are read by their grammar

A field list is read up to the bracket that closes it, one field after the other. The tokens that
are accepted are those of some fields whose numbers ascend.
-/

namespace ServiceIdl

open Syntax

theorem toOption_expectLiteral_eq_some_iff {token : Token} {text : String} :
    token.plain.expectLiteral.toOption = some text ↔
      ∃ literal : Literal, token = literal.token ∧ literal.text = text := by
  constructor
  · intro h
    cases token with
    | number found => exact ⟨.number found, rfl, Option.some.inj h⟩
    | string found => exact ⟨.string found, rfl, Option.some.inj h⟩
    | _ => cases h
  · rintro ⟨literal, rfl, rfl⟩
    cases literal <;> rfl

theorem toOption_explicitNumber_eq_some_iff {kind : IndexKind} {expected : Int} {token : Token}
    {number : Int32} :
    (explicitNumber kind expected token.plain).toOption = some number ↔
      ∃ text, token = .number text ∧ number? expected (some text) = some number := by
  cases token with
  | number text =>
    simp only [explicitNumber, Token.token_plain, number?, Token.number.injEq, exists_eq_left']
    cases readInt32? text.toList with
    | none => simp
    | some value =>
      by_cases h : value.toInt < expected
      · have hrefused : (some value).filter (expected ≤ ·.toInt) = none := by simp [h]
        simp only [h, hrefused, if_true, toOption_error]
      · have hkept : (some value).filter (expected ≤ ·.toInt) = some value := by
          simp [Int.not_lt.1 h]
        simp only [h, hkept, if_false, toOption_ok]
  | _ => simp [explicitNumber]

theorem toOption_implicitNumber {expected : Int} {span : Span} :
    (implicitNumber expected span).toOption = number? expected none := by
  simp only [implicitNumber, number?]
  cases int32? expected <;> rfl

theorem isSeparator_plain_iff {token : Token} :
    token.plain.isSeparator = true ↔ ∃ separator : Separator, token = separator.token := by
  constructor
  · intro h
    rcases (Bool.or_eq_true _ _).mp h with h | h
    · exact ⟨.comma, of_decide_eq_true h⟩
    · exact ⟨.semicolon, of_decide_eq_true h⟩
  · rintro ⟨separator, rfl⟩
    cases separator <;> rfl

/-- A state in which a separator is passed over, if there is one. -/
theorem accepts_iff_of_separator {σ α : Type} {read : σ → Token → Option (Step σ α)}
    {state : σ} (next : σ) {tokens : List Token} {result : α}
    (h : ∀ token, read state token =
      if token.plain.isSeparator then some (.more next) else read next token)
    (hnext : ∀ separator : Separator, read next separator.token = none) :
    Accepts read (.more state) tokens result ↔
      ∃ (separator : Option Separator) (rest : List Token),
        tokens = optionTokens (fun separator => [separator.token]) separator ++ rest ∧
          Accepts read (.more next) rest result := by
  apply accepts_iff_of_option (fun _ => next)
  intro token step
  by_cases hsep : ∃ separator : Separator, token = separator.token
  · have hnone : read next token = none := by
      obtain ⟨separator, rfl⟩ := hsep
      exact hnext separator
    simp [h, isSeparator_plain_iff.2 hsep, hnone, hsep]
  · have hfalse : token.plain.isSeparator = false :=
      Bool.eq_false_iff.2 (mt isSeparator_plain_iff.1 hsep)
    have hne (separator : Separator) : token ≠ separator.token := not_exists.1 hsep separator
    simp [h, hfalse, hne]

namespace FieldListReader

/-- Reads one token of a field list without layout. -/
def plain? (limit : Nat) (closer : Symbol) (state : State) (token : Token) :
    Option (Step State (List ServiceIdl.Field)) :=
  (read limit closer state token.plain).plain?

variable {limit : Nat} {closer : Symbol} {fields result : List ServiceIdl.Field}
  {tokens : List Token}

theorem accepts_name_iff {index : Int32} {required : Bool} {docText signature : String} :
    Accepts (plain? limit closer) (.more ⟨fields, .name ⟨index, required, docText⟩ signature⟩)
        tokens result ↔
      ∃ name rest, tokens = .identifier name :: rest ∧
        Accepts (plain? limit closer)
          (.more ⟨fields, .afterName ⟨index, name, signature, none, required, docText⟩⟩)
          rest result :=
  accepts_iff_of_token fun token step => by simp [plain?, read]

theorem accepts_value_iff {field : ServiceIdl.Field} :
    Accepts (plain? limit closer) (.more ⟨fields, .value field⟩) tokens result ↔
      ∃ (literal : Literal) (rest : List Token), tokens = literal.token :: rest ∧
        Accepts (plain? limit closer)
          (.more ⟨fields, .separator { field with defaultValue := some literal.text }⟩)
          rest result :=
  accepts_iff_of_token fun token step => by
    simp [plain?, read, toOption_expectLiteral_eq_some_iff]

/-- In front of a type, a field is read as its type is. -/
theorem plain?_type {head : Head} {state : TypeReader.State} {token : Token} :
    plain? limit closer ⟨fields, .type head state⟩ token =
      (TypeReader.plain? limit state token).map
        (.inside (fun state => State.mk fields (.type head state))
          fun type => .more ⟨fields, .name head type.signature⟩) := by
  refine (Reading.plain?_lift _).trans (toOption_bind_inside _ _ fun step => ?_)
  cases step <;> rfl

theorem accepts_type_iff {head : Head} :
    Accepts (plain? limit closer) (.more ⟨fields, .type head TypeReader.start⟩) tokens result ↔
      ∃ (type : TypeExpr) (rest : List Token), tokens = type.tokens ++ rest ∧
        type.depth ≤ limit ∧
          Accepts (plain? limit closer) (.more ⟨fields, .name head type.signature⟩) rest result :=
  TypeReader.accepts_embedded_iff _ _ fun _ _ => plain?_type

theorem plain?_modifier_eq_some_iff {index : Int32} {docText : String} {token : Token}
    {step : Step State (List ServiceIdl.Field)} :
    plain? limit closer ⟨fields, .modifier index docText⟩ token = some step ↔
      (∃ modifier : Modifier, token = modifier.token ∧
        .more ⟨fields, .type ⟨index, modifier = .required, docText⟩ TypeReader.start⟩ = step) ∨
      plain? limit closer ⟨fields, .type ⟨index, false, docText⟩ TypeReader.start⟩ token =
        some step := by
  constructor
  · intro h
    cases token with
    | keyword word =>
      cases word with
      | requiredMark => exact .inl ⟨.required, rfl, Option.some.inj h⟩
      | optionalMark => exact .inl ⟨.optional, rfl, Option.some.inj h⟩
      | _ => exact .inr h
    | _ => exact .inr h
  · rintro (⟨modifier, rfl, rfl⟩ | h)
    · cases modifier <;> rfl
    · cases token with
      | keyword word =>
        cases word with
        | requiredMark | optionalMark => cases h
        | _ => exact h
      | _ => exact h

/-- A token that starts neither a field nor a type is refused at the start of a field. -/
theorem plain?_modifier_eq_none {index : Int32} {docText : String} {token : Token}
    (hmodifier : ∀ modifier : Modifier, token ≠ modifier.token)
    (htype : TypeReader.startsType token = false) :
    plain? limit closer ⟨fields, .modifier index docText⟩ token = none := by
  apply Option.eq_none_iff_forall_ne_some.2
  intro step h
  rcases plain?_modifier_eq_some_iff.1 h with ⟨modifier, htoken, _⟩ | h
  · exact hmodifier modifier htoken
  · rw [plain?_type, TypeReader.start, TypeReader.plain?_operand_eq_none htype] at h
    cases h

theorem accepts_modifier_iff {index : Int32} :
    Accepts (plain? limit closer) (.more ⟨fields, .modifier index ""⟩) tokens result ↔
      ∃ (modifier : Option Modifier) (rest : List Token),
        tokens = optionTokens (fun modifier => [modifier.token]) modifier ++ rest ∧
          Accepts (plain? limit closer)
            (.more ⟨fields, .type ⟨index, modifier = some .required, ""⟩ TypeReader.start⟩)
            rest result := by
  refine accepts_iff_of_option (fun modifier => State.mk fields
    (.type ⟨index, modifier = some Modifier.required, ""⟩ TypeReader.start)) fun _ _ => ?_
  simpa using plain?_modifier_eq_some_iff

private theorem plain?_start_of_implicit {token : Token} (hbrace : token ≠ .symbol .rightBrace)
    (hparen : token ≠ .symbol .rightParen) (hnumber : ∀ text, token ≠ .number text)
    {step : Step State (List ServiceIdl.Field)} :
    plain? limit closer ⟨fields, .start⟩ token = some step ↔
      ∃ index, number? (expectedIndex fields) none = some index ∧
        plain? limit closer ⟨fields, .modifier index ""⟩ token = some step := by
  have hstart : readStart limit closer fields token.plain = (do
      let index ← implicitNumber (expectedIndex fields) token.plain.span
      let docText ← takeDoc
      readModifier limit fields index docText token.plain) := by
    cases token with
    | symbol s =>
      cases s with
      | rightBrace => exact absurd rfl hbrace
      | rightParen => exact absurd rfl hparen
      | _ => rfl
    | number text => exact absurd rfl (hnumber text)
    | _ => rfl
  simp [plain?, read, hstart, toOption_implicitNumber, Option.bind_eq_some_iff]

/-- A field list ends with its bracket, or it goes on with the index of a field. -/
theorem plain?_start_eq_some_iff (hcloser : closer = .rightBrace ∨ closer = .rightParen)
    {token : Token} {step : Step State (List ServiceIdl.Field)} :
    plain? limit closer ⟨fields, .start⟩ token = some step ↔
      (token = .symbol closer ∧ .done fields = step) ∨
      (∃ text, token = .number text ∧ .more ⟨fields, .colon token.plain⟩ = step) ∨
      ∃ index, number? (expectedIndex fields) none = some index ∧
        plain? limit closer ⟨fields, .modifier index ""⟩ token = some step := by
  -- Brackets and numbers start no type, so at most one of the three cases applies.
  have hrefused (hmodifier : ∀ modifier : Modifier, token ≠ modifier.token)
      (htype : TypeReader.startsType token = false) :
      (∃ index, number? (expectedIndex fields) none = some index ∧
        plain? limit closer ⟨fields, .modifier index ""⟩ token = some step) ↔ False := by
    simp [plain?_modifier_eq_none hmodifier htype]
  by_cases hbracket : token = .symbol .rightBrace ∨ token = .symbol .rightParen
  · have hplain : plain? limit closer ⟨fields, .start⟩ token = some step ↔
        token = .symbol closer ∧ .done fields = step := by
      rcases hbracket with rfl | rfl <;> simp [plain?, read, readStart]
    rw [hplain, hrefused]
    · rcases hbracket with rfl | rfl <;> simp
    · intro modifier
      rcases hbracket with rfl | rfl <;> cases modifier <;> simp [Modifier.token]
    · rcases hbracket with rfl | rfl <;> rfl
  · obtain ⟨hbrace, hparen⟩ := not_or.1 hbracket
    have hne : token ≠ .symbol closer := by rcases hcloser with rfl | rfl <;> assumption
    by_cases hnumber : ∃ text, token = .number text
    · obtain ⟨text, rfl⟩ := hnumber
      rw [hrefused (fun modifier => by cases modifier <;> simp [Modifier.token]) rfl]
      simp [plain?, read, readStart]
    · rw [plain?_start_of_implicit hbrace hparen (not_exists.1 hnumber)]
      have hnumber' (text : String) : token ≠ .number text := not_exists.1 hnumber text
      simp [hne, hnumber']

theorem accepts_colon_iff {text : String} :
    Accepts (plain? limit closer) (.more ⟨fields, .colon (Token.number text).plain⟩) tokens result ↔
      ∃ index rest, tokens = .symbol .colon :: rest ∧
        number? (expectedIndex fields) (some text) = some index ∧
          Accepts (plain? limit closer) (.more ⟨fields, .modifier index ""⟩) rest result := by
  have hplain (token : Token) (step : Step State (List ServiceIdl.Field)) :
      plain? limit closer ⟨fields, .colon (Token.number text).plain⟩ token = some step ↔
        token = .symbol .colon ∧ ∃ index, number? (expectedIndex fields) (some text) = some index ∧
          .more ⟨fields, .modifier index ""⟩ = step := by
    simp [plain?, read, Option.bind_eq_some_iff, toOption_explicitNumber_eq_some_iff]
  rw [accepts_more_iff]
  simp only [hplain]
  constructor
  · rintro ⟨_, rest, _, rfl, ⟨rfl, index, hindex, rfl⟩, haccepts⟩
    exact ⟨index, rest, rfl, hindex, haccepts⟩
  · rintro ⟨index, rest, rfl, hindex, haccepts⟩
    exact ⟨_, rest, _, rfl, ⟨rfl, index, hindex, rfl⟩, haccepts⟩

theorem accepts_start_iff (hcloser : closer = .rightBrace ∨ closer = .rightParen) :
    Accepts (plain? limit closer) (.more ⟨fields, .start⟩) tokens result ↔
      (tokens = [.symbol closer] ∧ fields = result) ∨
      ∃ (index : Option String) (rest : List Token) (number : Int32),
        tokens = optionTokens (fun text => [.number text, .symbol .colon]) index ++ rest ∧
          number? (expectedIndex fields) index = some number ∧
            Accepts (plain? limit closer) (.more ⟨fields, .modifier number ""⟩) rest result := by
  rw [accepts_more_iff]
  simp only [plain?_start_eq_some_iff hcloser]
  constructor
  · rintro ⟨token, rest, step, rfl, ⟨rfl, rfl⟩ | ⟨text, rfl, rfl⟩ | ⟨number, hnumber, hstep⟩, h⟩
    · obtain ⟨rfl, rfl⟩ := accepts_done_iff.1 h
      exact .inl ⟨rfl, rfl⟩
    · obtain ⟨number, rest, rfl, hnumber, h⟩ := accepts_colon_iff.1 h
      exact .inr ⟨some text, rest, number, rfl, hnumber, h⟩
    · exact .inr ⟨none, _, number, rfl, hnumber, accepts_cons_iff.2 ⟨step, hstep, h⟩⟩
  · rintro (⟨rfl, rfl⟩ | ⟨_ | text, rest, number, rfl, hnumber, h⟩)
    · exact ⟨_, [], _, rfl, .inl ⟨rfl, rfl⟩, accepts_done_iff.2 ⟨rfl, rfl⟩⟩
    · obtain ⟨token, rest, step, rfl, hstep, h⟩ := accepts_more_iff.1 h
      exact ⟨token, rest, step, rfl, .inr (.inr ⟨number, hnumber, hstep⟩), h⟩
    · refine ⟨.number text, _, _, rfl, .inr (.inl ⟨text, rfl, rfl⟩), accepts_colon_iff.2 ?_⟩
      exact ⟨number, rest, rfl, hnumber, h⟩

/-- A token that neither closes a list nor starts a field is refused at the start of a field. -/
theorem plain?_start_eq_none {token : Token} (hbrace : token ≠ .symbol .rightBrace)
    (hparen : token ≠ .symbol .rightParen) (hnumber : ∀ text, token ≠ .number text)
    (hmodifier : ∀ modifier : Modifier, token ≠ modifier.token)
    (htype : TypeReader.startsType token = false) :
    plain? limit closer ⟨fields, .start⟩ token = none := by
  apply Option.eq_none_iff_forall_ne_some.2
  intro step h
  obtain ⟨index, _, h⟩ := (plain?_start_of_implicit hbrace hparen hnumber).1 h
  rw [plain?_modifier_eq_none hmodifier htype] at h
  cases h

theorem plain?_start_symbol {s : Symbol} (hbrace : s ≠ .rightBrace) (hparen : s ≠ .rightParen) :
    plain? limit closer ⟨fields, .start⟩ (.symbol s) = none := by
  have hmodifier (modifier : Modifier) : Token.symbol s ≠ modifier.token := by
    cases modifier <;> simp [Modifier.token]
  exact plain?_start_eq_none (by simpa) (by simpa) (by simp) hmodifier rfl

/-- A field list does not end with the input. -/
theorem plain?_endOfInput (state : State) : plain? limit closer state .endOfInput = none := by
  have hmodifier (modifier : Modifier) : Token.endOfInput ≠ modifier.token := by
    cases modifier <;> decide
  have hstart (fields : List ServiceIdl.Field) :
      plain? limit closer ⟨fields, .start⟩ .endOfInput = none :=
    plain?_start_eq_none (by decide) (by decide) (by simp) hmodifier rfl
  obtain ⟨fields, phase⟩ := state
  cases phase with
  | start => exact hstart fields
  | modifier index docText => exact plain?_modifier_eq_none hmodifier rfl
  | type head state =>
    rw [plain?_type, TypeReader.plain?_endOfInput]
    rfl
  | afterName field => exact hstart (fields ++ [field])
  | separator field => exact hstart (fields ++ [field])
  | _ => rfl

theorem accepts_separator_iff {field : ServiceIdl.Field} :
    Accepts (plain? limit closer) (.more ⟨fields, .separator field⟩) tokens result ↔
      ∃ (separator : Option Separator) (rest : List Token),
        tokens = optionTokens (fun separator => [separator.token]) separator ++ rest ∧
          Accepts (plain? limit closer) (.more ⟨fields ++ [field], .start⟩) rest result := by
  refine accepts_iff_of_separator (State.mk (fields ++ [field]) .start) ?_ ?_
  · intro token
    simp only [plain?, read, readSeparator]
    split <;> rfl
  · intro separator
    cases separator with
    | comma => exact plain?_start_symbol (by decide) (by decide)
    | semicolon => exact plain?_start_symbol (by decide) (by decide)

private theorem accepts_assign_iff {field : ServiceIdl.Field} :
    Accepts (plain? limit closer) (.more ⟨fields, .afterName field⟩) tokens result ↔
      ∃ (mark : Option Unit) (rest : List Token),
        tokens = optionTokens (fun _ => [.symbol .assign]) mark ++ rest ∧
          Accepts (plain? limit closer)
            (.more ⟨fields, mark.elim (.separator field) fun _ => .value field⟩) rest result := by
  refine accepts_iff_of_option (fun mark =>
    State.mk fields (mark.elim (.separator field) fun _ => .value field)) fun token step => ?_
  by_cases htoken : token = .symbol .assign
  · subst htoken
    have hstart : plain? limit closer ⟨fields ++ [field], .start⟩ (.symbol .assign) = none :=
      plain?_start_symbol (by decide) (by decide)
    have hseparator : plain? limit closer ⟨fields, .separator field⟩ (.symbol .assign) = none :=
      hstart
    change _ ↔ _ ∨ plain? limit closer ⟨fields, .separator field⟩ (.symbol .assign) = some step
    rw [hseparator]
    simp [plain?, read]
  · simp [plain?, read, htoken]

theorem accepts_afterName_iff {index : Int32} {name signature docText : String}
    {required : Bool} :
    Accepts (plain? limit closer)
        (.more ⟨fields, .afterName ⟨index, name, signature, none, required, docText⟩⟩)
        tokens result ↔
      ∃ (default : Option Literal) (rest : List Token),
        tokens = optionTokens (fun literal => [.symbol .assign, literal.token]) default ++ rest ∧
          Accepts (plain? limit closer)
            (.more ⟨fields, .separator
              ⟨index, name, signature, default.map Literal.text, required, docText⟩⟩)
            rest result := by
  rw [accepts_assign_iff]
  constructor
  · rintro ⟨_ | _, rest, htokens, h⟩
    · exact ⟨none, rest, htokens, h⟩
    · obtain ⟨literal, rest, rfl, hvalue⟩ := accepts_value_iff.1 h
      exact ⟨some literal, rest, htokens, hvalue⟩
  · rintro ⟨_ | literal, rest, htokens, h⟩
    · exact ⟨none, rest, htokens, h⟩
    · exact ⟨some (), _, htokens, accepts_value_iff.2 ⟨literal, rest, rfl, h⟩⟩

/-! ### Whole fields -/

/-- A field list with one more field, which continues its numbers. -/
def addField? (limit : Nat) (fields : List ServiceIdl.Field) (field : Syntax.Field) :
    Option (List ServiceIdl.Field) :=
  (field.value? limit (expectedIndex fields)).map fun value => fields ++ [value]

theorem addField?_eq_some_iff {field : Syntax.Field} {fields' : List ServiceIdl.Field} :
    addField? limit fields field = some fields' ↔ ∃ index,
      number? (expectedIndex fields) field.index = some index ∧ field.type.depth ≤ limit ∧
        fields ++ [⟨index, field.name, field.type.signature, field.default.map Literal.text,
          field.modifier = some .required, ""⟩] = fields' := by
  simp [addField?, Syntax.Field.value?, TypeExpr.signature?, Option.bind_eq_some_iff, and_assoc]

/-- At the start of a field, the list is closed or one field is read. -/
theorem accepts_field_iff (hcloser : closer = .rightBrace ∨ closer = .rightParen) :
    Accepts (plain? limit closer) (.more ⟨fields, .start⟩) tokens result ↔
      (tokens = [.symbol closer] ∧ fields = result) ∨
      ∃ (field : Syntax.Field) (rest : List Token) (fields' : List ServiceIdl.Field),
        tokens = field.tokens ++ rest ∧ addField? limit fields field = some fields' ∧
          Accepts (plain? limit closer) (.more ⟨fields', .start⟩) rest result := by
  rw [accepts_start_iff hcloser]
  refine or_congr_right ⟨?_, ?_⟩
  -- Each part is read from where the part before it ends, and put back in reverse order.
  · rintro ⟨index, rest, number, rfl, hnumber, hmodifier⟩
    obtain ⟨modifier, rest, rfl, htype⟩ := accepts_modifier_iff.1 hmodifier
    obtain ⟨type, rest, rfl, hdepth, hname⟩ := accepts_type_iff.1 htype
    obtain ⟨name, rest, rfl, hdefault⟩ := accepts_name_iff.1 hname
    obtain ⟨default, rest, rfl, hseparator⟩ := accepts_afterName_iff.1 hdefault
    obtain ⟨separator, rest, rfl, hrest⟩ := accepts_separator_iff.1 hseparator
    refine ⟨⟨index, modifier, type, name, default, separator⟩, rest, _, ?_, ?_, hrest⟩
    · simp [Syntax.Field.tokens]
    · exact addField?_eq_some_iff.2 ⟨number, hnumber, hdepth, rfl⟩
  · rintro ⟨⟨index, modifier, type, name, default, separator⟩, rest, _, rfl, hadd, hrest⟩
    obtain ⟨number, hnumber, hdepth, rfl⟩ := addField?_eq_some_iff.1 hadd
    have hseparator := accepts_separator_iff.2 ⟨separator, rest, rfl, hrest⟩
    have hdefault := accepts_afterName_iff.2 ⟨default, _, rfl, hseparator⟩
    have hname := accepts_name_iff.2 ⟨name, _, rfl, hdefault⟩
    have htype := accepts_type_iff.2 ⟨type, _, rfl, hdepth, hname⟩
    have hmodifier := accepts_modifier_iff.2 ⟨modifier, _, rfl, htype⟩
    exact ⟨index, _, number, by simp [Syntax.Field.tokens], hnumber, hmodifier⟩

/-! ### Whole lists -/

@[simp] theorem expectedIndex_append (value : ServiceIdl.Field) :
    expectedIndex (fields ++ [value]) = value.index.toInt + 1 := by
  simp [expectedIndex, nextNumber]

theorem foldlM_addField? (entries : List Syntax.Field) (fields : List ServiceIdl.Field) :
    entries.foldlM (addField? limit) fields =
      (fields? limit (expectedIndex fields) entries).map (fields ++ ·) := by
  induction entries generalizing fields with
  | nil => simp [fields?]
  | cons entry entries ih =>
    rw [List.foldlM_cons, addField?, fields?]
    cases entry.value? limit (expectedIndex fields) with
    | none => rfl
    | some value =>
      have hrest := ih (fields ++ [value])
      rw [expectedIndex_append] at hrest
      simp only [Option.map_some, Option.bind_eq_bind, Option.bind_some, hrest]
      cases fields? limit (value.index.toInt + 1) entries <;> simp

/-- A field list is read up to the bracket that closes it. -/
theorem accepts_iff (hcloser : closer = .rightBrace ∨ closer = .rightParen) :
    Accepts (plain? limit closer) (.more start) tokens result ↔
      ∃ entries : List Syntax.Field,
        tokens = entries.flatMap Syntax.Field.tokens ++ [.symbol closer] ∧
          fields? limit 1 entries = some result := by
  have hne (field : Syntax.Field) : field.tokens ≠ [] := by simp [Syntax.Field.tokens]
  rw [start, accepts_list_iff (fun fields => State.mk fields .start) hne
    fun _ _ => accepts_field_iff hcloser]
  have hfold (entries : List Syntax.Field) :
      entries.foldlM (addField? limit) [] = fields? limit 1 entries := by
    rw [foldlM_addField?]
    exact Option.map_id'
  simp only [hfold]
  constructor
  · rintro ⟨entries, _, _, rfl, hvalues, rfl, rfl⟩
    exact ⟨entries, rfl, hvalues⟩
  · rintro ⟨entries, rfl, hvalues⟩
    exact ⟨entries, _, _, rfl, hvalues, rfl, rfl⟩

/-- Where a field list stands inside a node, the reader of the node goes on behind it. -/
theorem accepts_embedded_iff (hcloser : closer = .rightBrace ∨ closer = .rightParen)
    {τ β : Type} {outer : τ → Token → Option (Step τ β)} (wrap : State → τ)
    (next : List ServiceIdl.Field → Step τ β)
    (h : ∀ state token,
      outer (wrap state) token = (plain? limit closer state token).map (.inside wrap next))
    {result : β} :
    Accepts outer (.more (wrap start)) tokens result ↔
      ∃ (entries : List Syntax.Field) (rest : List Token) (fields : List ServiceIdl.Field),
        tokens = entries.flatMap Syntax.Field.tokens ++ .symbol closer :: rest ∧
          fields? limit 1 entries = some fields ∧ Accepts outer (next fields) rest result := by
  rw [accepts_embed_iff wrap next h]
  simp only [accepts_iff hcloser]
  constructor
  · rintro ⟨_, rest, fields, rfl, ⟨entries, rfl, hvalues⟩, haccepts⟩
    exact ⟨entries, rest, fields, by simp, hvalues, haccepts⟩
  · rintro ⟨entries, rest, fields, rfl, hvalues, haccepts⟩
    exact ⟨_, rest, fields, by simp, ⟨entries, rfl, hvalues⟩, haccepts⟩

end FieldListReader

end ServiceIdl
