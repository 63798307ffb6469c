import ServiceIdl.Proofs.Grammar.Fields
import ServiceIdl.Reader.Alias
import ServiceIdl.Reader.Enum
import ServiceIdl.Reader.Struct

/-!
# Constants, typedefs, enums and structs are read by their grammar

Their readers start behind the keyword or behind the name. What they accept from there on are the
tokens of a derivation, and the result is the node that it denotes, with the doc text that the
reader was started with.
-/

namespace ServiceIdl

open Syntax

variable {limit : Nat} {tokens : List Token}

/-! ### Constants and typedefs -/

namespace ConstantReader

/-- Reads one token of a constant without layout. -/
def plain? (limit : Nat) (state : State) (token : Token) : Option (Step State Constant) :=
  (read limit state token.plain).toOption

variable {result : Constant} {docText signature name : String}

theorem plain?_type {state : TypeReader.State} {token : Token} :
    plain? limit (.type docText state) token = (TypeReader.plain? limit state token).map
      (.inside (State.type docText) fun type => .more (.name docText type.signature)) := by
  apply toOption_bind_inside
  intro step
  cases step <;> rfl

theorem accepts_type_iff :
    Accepts (plain? limit) (.more (start docText)) tokens result ↔
      ∃ (type : TypeExpr) (rest : List Token), tokens = type.tokens ++ rest ∧
        type.depth ≤ limit ∧
          Accepts (plain? limit) (.more (.name docText type.signature)) rest result :=
  TypeReader.accepts_embedded_iff _ _ fun _ _ => plain?_type

theorem accepts_name_iff :
    Accepts (plain? limit) (.more (.name docText signature)) tokens result ↔
      ∃ name rest, tokens = .identifier name :: rest ∧
        Accepts (plain? limit) (.more (.assign docText signature name)) rest result :=
  accepts_iff_of_token fun token step => by simp [plain?, read]

theorem accepts_assign_iff :
    Accepts (plain? limit) (.more (.assign docText signature name)) tokens result ↔
      ∃ rest, tokens = .symbol .assign :: rest ∧
        Accepts (plain? limit) (.more (.value docText signature name)) rest result :=
  accepts_iff_of_symbol fun token step => by simp [plain?, read]

theorem accepts_value_iff :
    Accepts (plain? limit) (.more (.value docText signature name)) tokens result ↔
      ∃ (literal : Literal) (rest : List Token), tokens = literal.token :: rest ∧
        Accepts (plain? limit) (.done ⟨name, signature, literal.text, docText⟩) rest result :=
  accepts_iff_of_token fun token step => by
    simp [plain?, read, toOption_expectLiteral_eq_some_iff]

theorem accepts_iff :
    Accepts (plain? limit) (.more (start docText)) tokens result ↔
      ∃ (type : TypeExpr) (name : String) (literal : Literal),
        tokens = type.tokens ++ [.identifier name, .symbol .assign, literal.token] ∧
          type.depth ≤ limit ∧ ⟨name, type.signature, literal.text, docText⟩ = result := by
  rw [accepts_type_iff]
  constructor
  · rintro ⟨type, _, rfl, hdepth, hname⟩
    obtain ⟨name, _, rfl, hassign⟩ := accepts_name_iff.1 hname
    obtain ⟨_, rfl, hvalue⟩ := accepts_assign_iff.1 hassign
    obtain ⟨literal, _, rfl, hdone⟩ := accepts_value_iff.1 hvalue
    obtain ⟨rfl, rfl⟩ := accepts_done_iff.1 hdone
    exact ⟨type, name, literal, rfl, hdepth, rfl⟩
  · rintro ⟨type, name, literal, rfl, hdepth, rfl⟩
    have hvalue : Accepts (plain? limit) (.more (.value docText type.signature name))
        [literal.token] ⟨name, type.signature, literal.text, docText⟩ :=
      accepts_value_iff.2 ⟨literal, [], rfl, accepts_done_iff.2 ⟨rfl, rfl⟩⟩
    have hassign := accepts_assign_iff.2 ⟨_, rfl, hvalue⟩
    exact ⟨type, _, rfl, hdepth, accepts_name_iff.2 ⟨name, _, rfl, hassign⟩⟩

/-- A constant does not end with the input. -/
theorem plain?_endOfInput (state : State) : plain? limit state .endOfInput = none := by
  cases state with
  | type docText state =>
    rw [plain?_type, TypeReader.plain?_endOfInput]
    rfl
  | _ => rfl

end ConstantReader

namespace TypedefReader

/-- Reads one token of a typedef without layout. -/
def plain? (limit : Nat) (state : State) (token : Token) : Option (Step State Typedef) :=
  (read limit state token.plain).toOption

variable {result : Typedef} {docText signature : String}

theorem plain?_type {state : TypeReader.State} {token : Token} :
    plain? limit (.type docText state) token = (TypeReader.plain? limit state token).map
      (.inside (State.type docText) fun type => .more (.name docText type.signature)) := by
  apply toOption_bind_inside
  intro step
  cases step <;> rfl

theorem accepts_type_iff :
    Accepts (plain? limit) (.more (start docText)) tokens result ↔
      ∃ (type : TypeExpr) (rest : List Token), tokens = type.tokens ++ rest ∧
        type.depth ≤ limit ∧
          Accepts (plain? limit) (.more (.name docText type.signature)) rest result :=
  TypeReader.accepts_embedded_iff _ _ fun _ _ => plain?_type

theorem accepts_name_iff :
    Accepts (plain? limit) (.more (.name docText signature)) tokens result ↔
      ∃ name rest, tokens = .identifier name :: rest ∧
        Accepts (plain? limit) (.done ⟨name, signature, docText⟩) rest result :=
  accepts_iff_of_token fun token step => by simp [plain?, read]

theorem accepts_iff :
    Accepts (plain? limit) (.more (start docText)) tokens result ↔
      ∃ (type : TypeExpr) (name : String), tokens = type.tokens ++ [.identifier name] ∧
        type.depth ≤ limit ∧ ⟨name, type.signature, docText⟩ = result := by
  rw [accepts_type_iff]
  constructor
  · rintro ⟨type, _, rfl, hdepth, hname⟩
    obtain ⟨name, _, rfl, hdone⟩ := accepts_name_iff.1 hname
    obtain ⟨rfl, rfl⟩ := accepts_done_iff.1 hdone
    exact ⟨type, name, rfl, hdepth, rfl⟩
  · rintro ⟨type, name, rfl, hdepth, rfl⟩
    have hname : Accepts (plain? limit) (.more (.name docText type.signature))
        [.identifier name] ⟨name, type.signature, docText⟩ :=
      accepts_name_iff.2 ⟨name, [], rfl, accepts_done_iff.2 ⟨rfl, rfl⟩⟩
    exact ⟨type, _, rfl, hdepth, hname⟩

/-- A typedef does not end with the input. -/
theorem plain?_endOfInput (state : State) : plain? limit state .endOfInput = none := by
  cases state with
  | type docText state =>
    rw [plain?_type, TypeReader.plain?_endOfInput]
    rfl
  | name docText signature => rfl

end TypedefReader

/-! ### Enums -/

namespace EnumReader

/-- Reads one token of an enum without layout. -/
def plain? (state : State) (token : Token) : Option (Step State Enum) :=
  (read state token.plain).toOption

/-- An enum with one more member, which continues its numbers. -/
def addMember? (enum : Enum) (member : Member) : Option Enum :=
  (number? (expectedValue enum) member.number).map (enum.insert member.name)

variable {enum result : Enum} {name : String} {span : Span}

theorem accepts_opening_iff :
    Accepts plain? (.more (.opening enum)) tokens result ↔
      ∃ rest, tokens = .symbol .leftBrace :: rest ∧
        Accepts plain? (.more (.member enum)) rest result :=
  accepts_iff_of_symbol fun token step => by simp [plain?, read]

theorem plain?_member_eq_some_iff {token : Token} {step : Step State Enum} :
    plain? (.member enum) token = some step ↔
      (token = .symbol .rightBrace ∧ .done enum = step) ∨
      ∃ name, token = .identifier name ∧
        .more (.afterName enum name token.plain.span) = step := by
  cases token <;> simp [plain?, read, readMember]

theorem accepts_separator_iff :
    Accepts plain? (.more (.separator enum)) tokens result ↔
      ∃ (separator : Option Separator) (rest : List Token),
        tokens = optionTokens (fun separator => [separator.token]) separator ++ rest ∧
          Accepts plain? (.more (.member enum)) rest result := by
  refine accepts_iff_of_separator (State.member enum) ?_ ?_
  · intro token
    simp only [plain?, read, readSeparator]
    split <;> rfl
  · intro separator
    cases separator <;> rfl

theorem accepts_value_iff :
    Accepts plain? (.more (.value enum name)) tokens result ↔
      ∃ text rest value, tokens = .number text :: rest ∧
        number? (expectedValue enum) (some text) = some value ∧
          Accepts plain? (.more (.separator (enum.insert name value))) rest result := by
  have hplain (token : Token) (step : Step State Enum) :
      plain? (.value enum name) token = some step ↔ ∃ value text, (token = .number text ∧
        number? (expectedValue enum) (some text) = some value) ∧
          .more (.separator (enum.insert name value)) = step := by
    simp [plain?, read, toOption_explicitNumber_eq_some_iff]
  rw [accepts_more_iff]
  simp only [hplain]
  constructor
  · rintro ⟨_, rest, _, rfl, ⟨value, text, ⟨rfl, hvalue⟩, rfl⟩, haccepts⟩
    exact ⟨text, rest, value, rfl, hvalue, haccepts⟩
  · rintro ⟨text, rest, value, rfl, hvalue, haccepts⟩
    exact ⟨_, rest, _, rfl, ⟨value, text, ⟨rfl, hvalue⟩, rfl⟩, haccepts⟩

theorem plain?_afterName_eq_some_iff {token : Token} {step : Step State Enum} :
    plain? (.afterName enum name span) token = some step ↔
      (token = .symbol .assign ∧ .more (.value enum name) = step) ∨
      ∃ value, number? (expectedValue enum) none = some value ∧
        plain? (.separator (enum.insert name value)) token = some step := by
  -- The equals sign is neither a separator nor the start of a member.
  by_cases htoken : token = .symbol .assign
  · subst htoken
    have hnone (value : Int32) :
        (readSeparator (enum.insert name value) (Token.symbol .assign).plain).toOption = none := rfl
    simp [hnone, plain?, read]
  · simp [plain?, read, htoken, toOption_implicitNumber, Option.bind_eq_some_iff]

theorem accepts_afterName_iff :
    Accepts plain? (.more (.afterName enum name span)) tokens result ↔
      ∃ (number : Option String) (rest : List Token) (value : Int32),
        tokens = optionTokens (fun text => [.symbol .assign, .number text]) number ++ rest ∧
          number? (expectedValue enum) number = some value ∧
            Accepts plain? (.more (.separator (enum.insert name value))) rest result := by
  rw [accepts_more_iff]
  simp only [plain?_afterName_eq_some_iff]
  constructor
  · rintro ⟨_, rest, step, rfl, ⟨rfl, rfl⟩ | ⟨value, hvalue, hstep⟩, haccepts⟩
    · obtain ⟨text, rest, value, rfl, hvalue, hrest⟩ := accepts_value_iff.1 haccepts
      exact ⟨some text, rest, value, rfl, hvalue, hrest⟩
    · exact ⟨none, _, value, rfl, hvalue, accepts_cons_iff.2 ⟨step, hstep, haccepts⟩⟩
  · rintro ⟨_ | text, rest, value, rfl, hvalue, haccepts⟩
    · obtain ⟨token, rest, step, rfl, hstep, hrest⟩ := accepts_more_iff.1 haccepts
      exact ⟨token, rest, step, rfl, .inr ⟨value, hvalue, hstep⟩, hrest⟩
    · refine ⟨_, _, _, rfl, .inl ⟨rfl, rfl⟩, accepts_value_iff.2 ?_⟩
      exact ⟨text, rest, value, rfl, hvalue, haccepts⟩

/-- At the start of a member, the enum is closed or one member is read. -/
theorem accepts_member_iff :
    Accepts plain? (.more (.member enum)) tokens result ↔
      (tokens = [.symbol .rightBrace] ∧ enum = result) ∨
      ∃ (member : Member) (rest : List Token) (enum' : Enum), tokens = member.tokens ++ rest ∧
        addMember? enum member = some enum' ∧
          Accepts plain? (.more (.member enum')) rest result := by
  rw [accepts_more_iff]
  simp only [plain?_member_eq_some_iff, addMember?, Option.map_eq_some_iff]
  constructor
  · rintro ⟨_, rest, _, rfl, ⟨rfl, rfl⟩ | ⟨name, rfl, rfl⟩, haccepts⟩
    · obtain ⟨rfl, rfl⟩ := accepts_done_iff.1 haccepts
      exact .inl ⟨rfl, rfl⟩
    · obtain ⟨number, rest, value, rfl, hvalue, hseparator⟩ := accepts_afterName_iff.1 haccepts
      obtain ⟨separator, rest, rfl, hrest⟩ := accepts_separator_iff.1 hseparator
      refine .inr ⟨⟨name, number, separator⟩, rest, _, ?_, ⟨value, hvalue, rfl⟩, hrest⟩
      simp [Member.tokens]
  · rintro (⟨rfl, rfl⟩ | ⟨⟨name, number, separator⟩, rest, _, rfl, ⟨value, hvalue, rfl⟩, hrest⟩)
    · exact ⟨_, [], _, rfl, .inl ⟨rfl, rfl⟩, accepts_done_iff.2 ⟨rfl, rfl⟩⟩
    · have hseparator := accepts_separator_iff.2 ⟨separator, rest, rfl, hrest⟩
      have hnumber : Accepts plain?
          (.more (.afterName enum name (Token.identifier name).plain.span)) _ result :=
        accepts_afterName_iff.2 ⟨number, _, value, rfl, hvalue, hseparator⟩
      refine ⟨.identifier name, _, _, ?_, .inr ⟨name, rfl, rfl⟩, hnumber⟩
      simp [Member.tokens]

@[simp] theorem expectedValue_insert (value : Int32) :
    expectedValue (enum.insert name value) = value.toInt + 1 := by
  simp [expectedValue, nextNumber, Enum.insert]

theorem foldlM_addMember? (members : List Member) (enum : Enum) :
    members.foldlM addMember? enum = insertMembers? (expectedValue enum) enum members := by
  induction members generalizing enum with
  | nil => rfl
  | cons member members ih =>
    rw [List.foldlM_cons, addMember?, insertMembers?]
    cases number? (expectedValue enum) member.number with
    | none => rfl
    | some value =>
      have hrest := ih (enum.insert member.name value)
      rw [expectedValue_insert] at hrest
      exact hrest

theorem accepts_iff {docText : String} :
    Accepts plain? (.more (start name docText)) tokens result ↔
      ∃ members : List Member, tokens = braced (members.flatMap Member.tokens) ∧
        insertMembers? 1 ⟨name, [], docText⟩ members = some result := by
  have hne (member : Member) : member.tokens ≠ [] := by simp [Member.tokens]
  rw [start, accepts_opening_iff]
  constructor
  · rintro ⟨_, rfl, hmember⟩
    obtain ⟨members, _, _, rfl, hfold, rfl, rfl⟩ :=
      (accepts_list_iff State.member hne fun _ _ => accepts_member_iff).1 hmember
    rw [foldlM_addMember?] at hfold
    exact ⟨members, rfl, hfold⟩
  · rintro ⟨members, rfl, hvalues⟩
    refine ⟨_, rfl, (accepts_list_iff State.member hne fun _ _ => accepts_member_iff).2 ?_⟩
    refine ⟨members, _, result, rfl, ?_, rfl, rfl⟩
    rw [foldlM_addMember?]
    exact hvalues

/-- An enum does not end with the input. -/
theorem plain?_endOfInput (state : State) : plain? state .endOfInput = none := by
  cases state with
  | afterName enum name span =>
    apply Option.eq_none_iff_forall_ne_some.2
    intro step h
    rcases plain?_afterName_eq_some_iff.1 h with ⟨htoken, _⟩ | ⟨value, _, hseparator⟩
    · cases htoken
    · cases hseparator
  | _ => rfl

end EnumReader

/-! ### Structs and exceptions -/

namespace StructReader

/-- Reads one token of a struct without layout. -/
def plain? (limit : Nat) (state : State) (token : Token) : Option (Step State Struct) :=
  (read limit state token.plain).plain?

variable {result : Struct} {name docText : String}

theorem accepts_opening_iff :
    Accepts (plain? limit) (.more (.opening name docText)) tokens result ↔
      ∃ rest, tokens = .symbol .leftBrace :: rest ∧ Accepts (plain? limit)
        (.more (.fields name docText FieldListReader.start)) rest result :=
  accepts_iff_of_symbol fun token step => by simp [plain?, read]

theorem plain?_fields {state : FieldListReader.State} {token : Token} :
    plain? limit (.fields name docText state) token =
      (FieldListReader.plain? limit .rightBrace state token).map
        (.inside (State.fields name docText) fun fields => .done ⟨name, fields, docText⟩) := by
  refine Reading.plain?_bind_of_pure fun step pending => ⟨pending, ?_⟩
  cases step <;> rfl

theorem accepts_fields_iff :
    Accepts (plain? limit) (.more (.fields name docText FieldListReader.start)) tokens result ↔
      ∃ (entries : List Syntax.Field) (rest : List Token) (fields : List ServiceIdl.Field),
        tokens = entries.flatMap Syntax.Field.tokens ++ .symbol .rightBrace :: rest ∧
          fields? limit 1 entries = some fields ∧
            Accepts (plain? limit) (.done ⟨name, fields, docText⟩) rest result :=
  FieldListReader.accepts_embedded_iff (.inl rfl) _ _ fun _ _ => plain?_fields

theorem accepts_iff :
    Accepts (plain? limit) (.more (start name docText)) tokens result ↔
      ∃ (entries : List Syntax.Field) (fields : List ServiceIdl.Field),
        tokens = braced (entries.flatMap Syntax.Field.tokens) ∧
          fields? limit 1 entries = some fields ∧ ⟨name, fields, docText⟩ = result := by
  rw [start, accepts_opening_iff]
  constructor
  · rintro ⟨_, rfl, hfields⟩
    obtain ⟨entries, _, fields, rfl, hvalues, hdone⟩ := accepts_fields_iff.1 hfields
    obtain ⟨rfl, rfl⟩ := accepts_done_iff.1 hdone
    exact ⟨entries, fields, rfl, hvalues, rfl⟩
  · rintro ⟨entries, fields, rfl, hvalues, rfl⟩
    refine ⟨_, rfl, accepts_fields_iff.2 ⟨entries, [], fields, rfl, hvalues, ?_⟩⟩
    exact accepts_done_iff.2 ⟨rfl, rfl⟩

/-- A struct does not end with the input. -/
theorem plain?_endOfInput (state : State) : plain? limit state .endOfInput = none := by
  cases state with
  | opening name docText => rfl
  | fields name docText state =>
    rw [plain?_fields, FieldListReader.plain?_endOfInput]
    rfl

end StructReader

end ServiceIdl
