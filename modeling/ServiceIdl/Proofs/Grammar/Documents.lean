import ServiceIdl.Proofs.Grammar.Definitions
import ServiceIdl.Proofs.Grammar.Services
import ServiceIdl.Reader.Document

/-!
# Documents are read by their grammar

The reader of documents accepts the tokens of a derivation with the end of the input behind them,
and its result is the document that the derivation denotes.
-/

namespace ServiceIdl.DocumentReader

open Syntax

/-- Reads one token of a document without layout. The document is complete at the end of
the input. -/
def plain? (limit : Nat) (state : State) (token : Token) :
    Option (Step State ServiceIdl.Document) :=
  (read limit state token.plain).plain?.map fun next =>
    if token = .endOfInput then .done next.document else .more next

variable {limit : Nat} {document result : ServiceIdl.Document} {tokens : List Token}

/-! ### Definitions -/

/-- The state behind a step of the reader of a definition. -/
private def stateBehind {σ α : Type} (document : ServiceIdl.Document) (phase : σ → Phase)
    (add : α → ServiceIdl.Document) : Step σ α → State
  | .more state => ⟨document, phase state⟩
  | .done value => ⟨add value, .definitions⟩

/-- While a definition is read, its reader runs inside the reader of the document. -/
private theorem plain?_inside {σ α : Type} {phase : σ → Phase} {add : α → ServiceIdl.Document}
    {inner : σ → Token → Option (Step σ α)} (reading : σ → SpannedToken → Reading (Step σ α))
    (hread : ∀ state t, read limit ⟨document, phase state⟩ t =
      reading state t >>= continueWith document phase add)
    (hinner : ∀ state token, inner state token = (reading state token.plain).plain?)
    (hend : ∀ state, inner state .endOfInput = none) (state : σ) (token : Token) :
    plain? limit ⟨document, phase state⟩ token =
      (inner state token).map (.inside (fun state => State.mk document (phase state))
        fun value => .more ⟨add value, .definitions⟩) := by
  have hplain : (read limit ⟨document, phase state⟩ token.plain).plain? =
      (inner state token).map (stateBehind document phase add) := by
    rw [hread, hinner]
    apply Reading.plain?_bind_of_pure
    intro step pending
    cases step with
    | more state => exact ⟨pending, rfl⟩
    | done value => exact ⟨"", rfl⟩
  rw [plain?, hplain]
  -- The document does not end inside a definition, whose reader refuses the end of the input.
  by_cases htoken : token = .endOfInput
  · rw [htoken, hend]
    rfl
  · cases inner state token with
    | none => rfl
    | some step => cases step <;> simp [htoken, Step.inside, stateBehind]

theorem plain?_constant (reader : ConstantReader.State) (token : Token) :
    plain? limit ⟨document, .constant reader⟩ token =
      (ConstantReader.plain? limit reader token).map
        (.inside (fun reader => State.mk document (.constant reader)) fun constant =>
          .more ⟨{ document with consts := document.consts ++ [constant] }, .definitions⟩) :=
  plain?_inside (fun state t => ConstantReader.read limit state t) (fun _ _ => rfl)
    (fun _ _ => (Reading.plain?_lift _).symm) ConstantReader.plain?_endOfInput reader token

theorem plain?_typedef (reader : TypedefReader.State) (token : Token) :
    plain? limit ⟨document, .typedef reader⟩ token =
      (TypedefReader.plain? limit reader token).map
        (.inside (fun reader => State.mk document (.typedef reader)) fun typedef =>
          .more ⟨{ document with typedefs := document.typedefs ++ [typedef] }, .definitions⟩) :=
  plain?_inside (fun state t => TypedefReader.read limit state t) (fun _ _ => rfl)
    (fun _ _ => (Reading.plain?_lift _).symm) TypedefReader.plain?_endOfInput reader token

theorem plain?_enum (reader : EnumReader.State) (token : Token) :
    plain? limit ⟨document, .enum reader⟩ token = (EnumReader.plain? reader token).map
      (.inside (fun reader => State.mk document (.enum reader)) fun enum =>
        .more ⟨{ document with enums := document.enums ++ [enum] }, .definitions⟩) :=
  plain?_inside (fun state t => EnumReader.read state t) (fun _ _ => rfl)
    (fun _ _ => (Reading.plain?_lift _).symm) EnumReader.plain?_endOfInput reader token

theorem plain?_struct (reader : StructReader.State) (token : Token) :
    plain? limit ⟨document, .struct reader⟩ token = (StructReader.plain? limit reader token).map
      (.inside (fun reader => State.mk document (.struct reader)) fun struct =>
        .more ⟨{ document with structs := document.structs ++ [struct] }, .definitions⟩) :=
  plain?_inside (fun state t => StructReader.read limit state t) (fun _ _ => rfl)
    (fun _ _ => rfl) StructReader.plain?_endOfInput reader token

theorem plain?_exception (reader : StructReader.State) (token : Token) :
    plain? limit ⟨document, .exception reader⟩ token =
      (StructReader.plain? limit reader token).map
        (.inside (fun reader => State.mk document (.exception reader)) fun struct =>
          .more ⟨{ document with exceptions := document.exceptions ++ [struct] }, .definitions⟩) :=
  plain?_inside (fun state t => StructReader.read limit state t) (fun _ _ => rfl)
    (fun _ _ => rfl) StructReader.plain?_endOfInput reader token

theorem plain?_service (reader : ServiceReader.State) (token : Token) :
    plain? limit ⟨document, .service reader⟩ token = (ServiceReader.plain? limit reader token).map
      (.inside (fun reader => State.mk document (.service reader)) fun service =>
        .more ⟨{ document with services := document.services ++ [service] }, .definitions⟩) :=
  plain?_inside (fun state t => ServiceReader.read limit state t) (fun _ _ => rfl)
    (fun _ _ => rfl) ServiceReader.plain?_endOfInput reader token

theorem accepts_constant_iff :
    Accepts (plain? limit) (.more ⟨document, .constant (ConstantReader.start "")⟩) tokens result ↔
      ∃ (type : TypeExpr) (name : String) (literal : Literal) (rest : List Token)
          (document' : ServiceIdl.Document),
        .keyword .constDef :: tokens = (Definition.constant type name literal).tokens ++ rest ∧
          (Definition.constant type name literal).addTo? limit document = some document' ∧
            Accepts (plain? limit) (.more ⟨document', .definitions⟩) rest result := by
  rw [accepts_embed_iff (fun reader => State.mk document (.constant reader)) _ plain?_constant]
  simp only [ConstantReader.accepts_iff, Definition.addTo?, Definition.tokens, List.cons_append,
    List.cons.injEq, true_and, Option.bind_eq_bind, Option.bind_eq_some_iff,
    TypeExpr.signature?_eq_some_iff]
  constructor
  · rintro ⟨_, rest, _, rfl, ⟨type, name, literal, rfl, hdepth, rfl⟩, haccepts⟩
    exact ⟨type, name, literal, rest, _, rfl, ⟨_, ⟨hdepth, rfl⟩, rfl⟩, haccepts⟩
  · rintro ⟨type, name, literal, rest, _, rfl, ⟨_, ⟨hdepth, rfl⟩, ⟨⟩⟩, haccepts⟩
    exact ⟨_, rest, _, rfl, ⟨type, name, literal, rfl, hdepth, rfl⟩, haccepts⟩

theorem accepts_typedef_iff :
    Accepts (plain? limit) (.more ⟨document, .typedef (TypedefReader.start "")⟩) tokens result ↔
      ∃ (type : TypeExpr) (name : String) (rest : List Token) (document' : ServiceIdl.Document),
        .keyword .typedefDef :: tokens = (Definition.typedef type name).tokens ++ rest ∧
          (Definition.typedef type name).addTo? limit document = some document' ∧
            Accepts (plain? limit) (.more ⟨document', .definitions⟩) rest result := by
  rw [accepts_embed_iff (fun reader => State.mk document (.typedef reader)) _ plain?_typedef]
  simp only [TypedefReader.accepts_iff, Definition.addTo?, Definition.tokens, List.cons_append,
    List.cons.injEq, true_and, Option.bind_eq_bind, Option.bind_eq_some_iff,
    TypeExpr.signature?_eq_some_iff]
  constructor
  · rintro ⟨_, rest, _, rfl, ⟨type, name, rfl, hdepth, rfl⟩, haccepts⟩
    exact ⟨type, name, rest, _, rfl, ⟨_, ⟨hdepth, rfl⟩, rfl⟩, haccepts⟩
  · rintro ⟨type, name, rest, _, rfl, ⟨_, ⟨hdepth, rfl⟩, ⟨⟩⟩, haccepts⟩
    exact ⟨_, rest, _, rfl, ⟨type, name, rfl, hdepth, rfl⟩, haccepts⟩

/-- Behind the keyword of a definition that does not start with a type comes its name. -/
theorem accepts_name_iff {kind : NamedKind} :
    Accepts (plain? limit) (.more ⟨document, .name kind⟩) tokens result ↔
      ∃ name rest, tokens = .identifier name :: rest ∧
        Accepts (plain? limit) (.more ⟨document, startNamed kind name ""⟩) rest result :=
  accepts_iff_of_token fun token step => by
    cases token <;> simp [plain?, read, SpannedToken.expectIdentifier]

theorem accepts_enum_iff {name : String} :
    Accepts (plain? limit) (.more ⟨document, .enum (EnumReader.start name "")⟩) tokens result ↔
      ∃ (members : List Member) (rest : List Token) (document' : ServiceIdl.Document),
        tokens = braced (members.flatMap Member.tokens) ++ rest ∧
          (Definition.enum name members).addTo? limit document = some document' ∧
            Accepts (plain? limit) (.more ⟨document', .definitions⟩) rest result := by
  rw [accepts_embed_iff (fun reader => State.mk document (.enum reader)) _ plain?_enum]
  simp only [EnumReader.accepts_iff, Definition.addTo?, Option.bind_eq_bind,
    Option.bind_eq_some_iff]
  constructor
  · rintro ⟨_, rest, enum, rfl, ⟨members, rfl, hvalues⟩, haccepts⟩
    exact ⟨members, rest, _, rfl, ⟨enum, hvalues, rfl⟩, haccepts⟩
  · rintro ⟨members, rest, _, rfl, ⟨enum, hvalues, ⟨⟩⟩, haccepts⟩
    exact ⟨_, rest, enum, rfl, ⟨members, rfl, hvalues⟩, haccepts⟩

theorem accepts_struct_iff {name : String} :
    Accepts (plain? limit) (.more ⟨document, .struct (StructReader.start name "")⟩) tokens result ↔
      ∃ (fields : List Syntax.Field) (rest : List Token) (document' : ServiceIdl.Document),
        tokens = braced (fields.flatMap Syntax.Field.tokens) ++ rest ∧
          (Definition.struct name fields).addTo? limit document = some document' ∧
            Accepts (plain? limit) (.more ⟨document', .definitions⟩) rest result := by
  rw [accepts_embed_iff (fun reader => State.mk document (.struct reader)) _ plain?_struct]
  simp only [StructReader.accepts_iff, Definition.addTo?, Option.bind_eq_bind,
    Option.bind_eq_some_iff]
  constructor
  · rintro ⟨_, rest, _, rfl, ⟨fields, values, rfl, hvalues, rfl⟩, haccepts⟩
    exact ⟨fields, rest, _, rfl, ⟨values, hvalues, rfl⟩, haccepts⟩
  · rintro ⟨fields, rest, _, rfl, ⟨values, hvalues, ⟨⟩⟩, haccepts⟩
    exact ⟨_, rest, _, rfl, ⟨fields, values, rfl, hvalues, rfl⟩, haccepts⟩

theorem accepts_exception_iff {name : String} :
    Accepts (plain? limit) (.more ⟨document, .exception (StructReader.start name "")⟩)
        tokens result ↔
      ∃ (fields : List Syntax.Field) (rest : List Token) (document' : ServiceIdl.Document),
        tokens = braced (fields.flatMap Syntax.Field.tokens) ++ rest ∧
          (Definition.exception name fields).addTo? limit document = some document' ∧
            Accepts (plain? limit) (.more ⟨document', .definitions⟩) rest result := by
  rw [accepts_embed_iff (fun reader => State.mk document (.exception reader)) _ plain?_exception]
  simp only [StructReader.accepts_iff, Definition.addTo?, Option.bind_eq_bind,
    Option.bind_eq_some_iff]
  constructor
  · rintro ⟨_, rest, _, rfl, ⟨fields, values, rfl, hvalues, rfl⟩, haccepts⟩
    exact ⟨fields, rest, _, rfl, ⟨values, hvalues, rfl⟩, haccepts⟩
  · rintro ⟨fields, rest, _, rfl, ⟨values, hvalues, ⟨⟩⟩, haccepts⟩
    exact ⟨_, rest, _, rfl, ⟨fields, values, rfl, hvalues, rfl⟩, haccepts⟩

theorem accepts_service_iff {name : String} :
    Accepts (plain? limit) (.more ⟨document, .service (ServiceReader.start name "")⟩)
        tokens result ↔
      ∃ (parent : Option String) (functions : List Syntax.Function) (rest : List Token)
          (document' : ServiceIdl.Document),
        tokens = optionTokens (fun parent => [.keyword .extendsClause, .identifier parent]) parent
          ++ braced (functions.flatMap Syntax.Function.tokens) ++ rest ∧
          (Definition.service name parent functions).addTo? limit document = some document' ∧
            Accepts (plain? limit) (.more ⟨document', .definitions⟩) rest result := by
  rw [accepts_embed_iff (fun reader => State.mk document (.service reader)) _ plain?_service]
  simp only [ServiceReader.accepts_iff, Definition.addTo?, Option.bind_eq_bind,
    Option.bind_eq_some_iff]
  constructor
  · rintro ⟨_, rest, _, rfl, ⟨parent, functions, values, rfl, hvalues, rfl⟩, haccepts⟩
    exact ⟨parent, functions, rest, _, rfl, ⟨values, hvalues, rfl⟩, haccepts⟩
  · rintro ⟨parent, functions, rest, _, rfl, ⟨values, hvalues, ⟨⟩⟩, haccepts⟩
    exact ⟨_, rest, _, rfl, ⟨parent, functions, values, rfl, hvalues, rfl⟩, haccepts⟩

/-- What is read behind the keyword of a definition. -/
def phaseBehind? : Keyword → Option Phase
  | .constDef => some (.constant (ConstantReader.start ""))
  | .typedefDef => some (.typedef (TypedefReader.start ""))
  | .enumDef => some (.name .enum)
  | .structDef => some (.name .struct)
  | .exceptionDef => some (.name .exception)
  | .serviceDef => some (.name .service)
  | _ => none

theorem plain?_definitions_eq_some_iff {token : Token} {step : Step State ServiceIdl.Document} :
    plain? limit ⟨document, .definitions⟩ token = some step ↔
      (token = .endOfInput ∧ .done document = step) ∨
      ∃ word phase, token = .keyword word ∧ phaseBehind? word = some phase ∧
        .more ⟨document, phase⟩ = step := by
  cases token with
  | keyword word => cases word <;> simp [plain?, read, readDefinition, phaseBehind?]
  | _ => simp [plain?, read, readDefinition]

/-- What is accepted behind the keyword of a definition starts with the rest of it. -/
private theorem exists_definition_of_accepts {word : Keyword} {phase : Phase}
    (hphase : phaseBehind? word = some phase)
    (h : Accepts (plain? limit) (.more ⟨document, phase⟩) tokens result) :
    ∃ (definition : Definition) (rest : List Token) (document' : ServiceIdl.Document),
      .keyword word :: tokens = definition.tokens ++ rest ∧
        definition.addTo? limit document = some document' ∧
          Accepts (plain? limit) (.more ⟨document', .definitions⟩) rest result := by
  cases word with
  | constDef =>
    obtain rfl := Option.some.inj hphase
    obtain ⟨type, name, literal, h⟩ := accepts_constant_iff.1 h
    exact ⟨.constant type name literal, h⟩
  | typedefDef =>
    obtain rfl := Option.some.inj hphase
    obtain ⟨type, name, h⟩ := accepts_typedef_iff.1 h
    exact ⟨.typedef type name, h⟩
  | enumDef =>
    obtain rfl := Option.some.inj hphase
    obtain ⟨name, tokens, rfl, hbody⟩ := accepts_name_iff.1 h
    obtain ⟨members, rest, document', rfl, hrest⟩ := accepts_enum_iff.1 hbody
    exact ⟨.enum name members, rest, document', rfl, hrest⟩
  | structDef =>
    obtain rfl := Option.some.inj hphase
    obtain ⟨name, tokens, rfl, hbody⟩ := accepts_name_iff.1 h
    obtain ⟨fields, rest, document', rfl, hrest⟩ := accepts_struct_iff.1 hbody
    exact ⟨.struct name fields, rest, document', rfl, hrest⟩
  | exceptionDef =>
    obtain rfl := Option.some.inj hphase
    obtain ⟨name, tokens, rfl, hbody⟩ := accepts_name_iff.1 h
    obtain ⟨fields, rest, document', rfl, hrest⟩ := accepts_exception_iff.1 hbody
    exact ⟨.exception name fields, rest, document', rfl, hrest⟩
  | serviceDef =>
    obtain rfl := Option.some.inj hphase
    obtain ⟨name, tokens, rfl, hbody⟩ := accepts_name_iff.1 h
    obtain ⟨parent, functions, rest, document', rfl, hrest⟩ := accepts_service_iff.1 hbody
    exact ⟨.service name parent functions, rest, document', rfl, hrest⟩
  | _ => cases hphase

/-- A definition is accepted in front of what is accepted behind it. -/
private theorem accepts_definition_tokens {definition : Definition}
    {document' : ServiceIdl.Document} (hvalue : definition.addTo? limit document = some document')
    (h : Accepts (plain? limit) (.more ⟨document', .definitions⟩) tokens result) :
    Accepts (plain? limit) (.more ⟨document, .definitions⟩) (definition.tokens ++ tokens)
      result := by
  have hkeyword {word : Keyword} {phase : Phase} {rest : List Token}
      (hphase : phaseBehind? word = some phase)
      (hrest : Accepts (plain? limit) (.more ⟨document, phase⟩) rest result) :
      Accepts (plain? limit) (.more ⟨document, .definitions⟩) (.keyword word :: rest) result := by
    have hstep : plain? limit ⟨document, .definitions⟩ (.keyword word) =
        some (.more ⟨document, phase⟩) :=
      plain?_definitions_eq_some_iff.2 (.inr ⟨word, phase, rfl, hphase, rfl⟩)
    exact accepts_cons_iff.2 ⟨_, hstep, hrest⟩
  cases definition with
  | constant type name literal =>
    have hbody := accepts_constant_iff.2 ⟨type, name, literal, tokens, document', rfl, hvalue, h⟩
    exact hkeyword rfl hbody
  | typedef type name =>
    have hbody := accepts_typedef_iff.2 ⟨type, name, tokens, document', rfl, hvalue, h⟩
    exact hkeyword rfl hbody
  | enum name members =>
    have hbody := accepts_enum_iff.2 ⟨members, tokens, document', rfl, hvalue, h⟩
    exact hkeyword rfl (accepts_name_iff.2 ⟨name, _, rfl, hbody⟩)
  | struct name fields =>
    have hbody := accepts_struct_iff.2 ⟨fields, tokens, document', rfl, hvalue, h⟩
    exact hkeyword rfl (accepts_name_iff.2 ⟨name, _, rfl, hbody⟩)
  | exception name fields =>
    have hbody := accepts_exception_iff.2 ⟨fields, tokens, document', rfl, hvalue, h⟩
    exact hkeyword rfl (accepts_name_iff.2 ⟨name, _, rfl, hbody⟩)
  | service name parent functions =>
    have hbody := accepts_service_iff.2 ⟨parent, functions, tokens, document', rfl, hvalue, h⟩
    exact hkeyword rfl (accepts_name_iff.2 ⟨name, _, rfl, hbody⟩)

/-- Between definitions, the document ends or one definition is read. -/
theorem accepts_definition_iff :
    Accepts (plain? limit) (.more ⟨document, .definitions⟩) tokens result ↔
      (tokens = [.endOfInput] ∧ document = result) ∨
      ∃ (definition : Definition) (rest : List Token) (document' : ServiceIdl.Document),
        tokens = definition.tokens ++ rest ∧ definition.addTo? limit document = some document' ∧
          Accepts (plain? limit) (.more ⟨document', .definitions⟩) rest result := by
  constructor
  · intro h
    obtain ⟨_, rest, step, rfl, hstep, haccepts⟩ := accepts_more_iff.1 h
    rcases plain?_definitions_eq_some_iff.1 hstep with ⟨rfl, rfl⟩ | ⟨word, phase, rfl, hphase, rfl⟩
    · obtain ⟨rfl, rfl⟩ := accepts_done_iff.1 haccepts
      exact .inl ⟨rfl, rfl⟩
    · exact .inr (exists_definition_of_accepts hphase haccepts)
  · rintro (⟨rfl, rfl⟩ | ⟨definition, rest, document', rfl, hvalue, h⟩)
    · have hstep : plain? limit ⟨document, .definitions⟩ .endOfInput = some (.done document) :=
        plain?_definitions_eq_some_iff.2 (.inl ⟨rfl, rfl⟩)
      exact accepts_cons_iff.2 ⟨_, hstep, accepts_done_iff.2 ⟨rfl, rfl⟩⟩
    · exact accepts_definition_tokens hvalue h

/-! ### Headers -/

theorem accepts_scope_iff :
    Accepts (plain? limit) (.more ⟨document, .namespaceScope⟩) tokens result ↔
      ∃ (scope : Option String) (rest : List Token),
        tokens = scope.elim (.symbol .star) .identifier :: rest ∧
          Accepts (plain? limit) (.more ⟨document, .namespaceName (scope.getD "*")⟩) rest result :=
  accepts_iff_of_token fun token step => by
    cases token with
    | symbol s => cases s <;> simp [plain?, read, Option.exists, Token.text, Symbol.char]
    | _ => simp [plain?, read, Option.exists]

theorem accepts_namespaceName_iff {scope : String} :
    Accepts (plain? limit) (.more ⟨document, .namespaceName scope⟩) tokens result ↔
      ∃ name rest, tokens = .identifier name :: rest ∧
        Accepts (plain? limit)
          (.more ⟨{ document with namespaces := document.namespaces.insert scope name }, .header⟩)
          rest result :=
  accepts_iff_of_token fun token step => by
    cases token <;> simp [plain?, read, SpannedToken.expectIdentifier]

theorem accepts_includePath_iff :
    Accepts (plain? limit) (.more ⟨document, .includePath⟩) tokens result ↔
      ∃ literal rest, tokens = .string literal :: rest ∧
        Accepts (plain? limit) (.more
          ⟨{ document with includes := document.includes ++ [includePath literal] }, .header⟩)
          rest result :=
  accepts_iff_of_token fun token step => by
    cases token <;> simp [plain?, read]

private theorem plain?_takeDocumentDoc : (takeDocumentDoc document).plain? = some document := by
  by_cases hdoc : document.docText = ""
  · have hsame : { document with docText := "" } = document := by rw [← hdoc]
    simp [takeDocumentDoc, hdoc, hsame]
  · simp [takeDocumentDoc, hdoc]

theorem plain?_header_eq_some_iff {token : Token} {step : Step State ServiceIdl.Document} :
    plain? limit ⟨document, .header⟩ token = some step ↔
      (token = .keyword .namespaceHeader ∧ .more ⟨document, .namespaceScope⟩ = step ∨
        token = .keyword .includeHeader ∧ .more ⟨document, .includePath⟩ = step) ∨
      plain? limit ⟨document, .definitions⟩ token = some step := by
  cases token with
  | keyword word =>
    cases word <;> simp [plain?, read, readDefinition, readHeader, plain?_takeDocumentDoc]
  | _ => simp [plain?, read, readHeader, readDefinition]

/-- Before the first definition, the header ends or one header statement is read. -/
theorem accepts_header_iff :
    Accepts (plain? limit) (.more ⟨document, .header⟩) tokens result ↔
      Accepts (plain? limit) (.more ⟨document, .definitions⟩) tokens result ∨
      ∃ (header : Header) (rest : List Token) (document' : ServiceIdl.Document),
        tokens = header.tokens ++ rest ∧ some (header.addTo document) = some document' ∧
          Accepts (plain? limit) (.more ⟨document', .header⟩) rest result := by
  rw [accepts_iff_of_or fun _ _ => plain?_header_eq_some_iff, or_comm]
  refine or_congr_right ⟨?_, ?_⟩
  · rintro ⟨_, tokens, step, rfl, ⟨rfl, rfl⟩ | ⟨rfl, rfl⟩, haccepts⟩
    · obtain ⟨scope, _, rfl, hname⟩ := accepts_scope_iff.1 haccepts
      obtain ⟨name, rest, rfl, hrest⟩ := accepts_namespaceName_iff.1 hname
      exact ⟨.namespaceName scope name, rest, _, rfl, rfl, hrest⟩
    · obtain ⟨literal, rest, rfl, hrest⟩ := accepts_includePath_iff.1 haccepts
      exact ⟨.includePath literal, rest, _, rfl, rfl, hrest⟩
  · rintro ⟨header, rest, _, rfl, ⟨⟩, haccepts⟩
    cases header with
    | namespaceName scope name =>
      have hname := accepts_namespaceName_iff.2 ⟨name, rest, rfl, haccepts⟩
      have hscope := accepts_scope_iff.2 ⟨scope, _, rfl, hname⟩
      exact ⟨_, _, _, rfl, .inl ⟨rfl, rfl⟩, hscope⟩
    | includePath literal =>
      have hpath := accepts_includePath_iff.2 ⟨literal, rest, rfl, haccepts⟩
      exact ⟨_, _, _, rfl, .inr ⟨rfl, rfl⟩, hpath⟩

/-- A document is read from its derivation, up to the end of the input. -/
theorem accepts_iff :
    Accepts (plain? limit) (.more start) tokens result ↔
      ∃ tree : Syntax.Document, tokens = tree.tokens ++ [.endOfInput] ∧
        tree.value? limit = some result := by
  have hheader (header : Header) : header.tokens ≠ [] := by cases header <;> simp [Header.tokens]
  have hdefinition (definition : Definition) : definition.tokens ≠ [] := by
    cases definition <;> simp [Definition.tokens]
  have hfold (headers : List Header) (document : ServiceIdl.Document) :
      headers.foldlM (fun document header => some (Header.addTo document header)) document =
        some (headers.foldl Header.addTo document) :=
    List.foldlM_pure
  rw [start, accepts_list_iff (fun document => State.mk document .header) hheader
    fun _ _ => accepts_header_iff]
  simp only [hfold, Option.some.injEq]
  -- What is left behind the list of header statements is the list of definitions.
  constructor
  · rintro ⟨headers, _, _, rfl, rfl, hrest⟩
    obtain ⟨definitions, _, _, rfl, hdefinitions, rfl, rfl⟩ :=
      (accepts_list_iff (fun document => State.mk document .definitions) hdefinition
        fun _ _ => accepts_definition_iff).1 hrest
    exact ⟨⟨headers, definitions⟩, by simp [Document.tokens], hdefinitions⟩
  · rintro ⟨⟨headers, definitions⟩, rfl, hvalue⟩
    refine ⟨headers, _, _, List.append_assoc _ _ _, rfl, ?_⟩
    exact (accepts_list_iff (fun document => State.mk document .definitions) hdefinition
      fun _ _ => accepts_definition_iff).2 ⟨definitions, _, result, rfl, hvalue, rfl, rfl⟩

end ServiceIdl.DocumentReader
