import ServiceIdl.Proofs.Grammar.Documents
import ServiceIdl.Proofs.Parsing.Writing

/-!
# What has been read can be completed

Wherever a reader stands, some further tokens lead it to its result, with three exceptions: a
number at the start of a field and a number behind an equals sign in an enum may be too small,
and a member without a number may come behind the greatest one.
-/

namespace ServiceIdl

variable {σ τ α β : Type} {strict : Bool} {ending : List Token}

/-- Some tokens that can be written, and then the tokens `ending`, are accepted behind the step. -/
def Finishes (strict : Bool) (ending : List Token) (read : σ → Token → Option (Step σ α))
    (step : Step σ α) : Prop :=
  ∃ tail result, IsWritable strict tail ∧ Accepts read step (tail ++ ending) result

theorem isWritable_identifier : IsWritable strict [.identifier "a"] := by
  have hname : IsName "a".toList := ⟨'a', [], rfl, rfl, by simp⟩
  have hword : ∀ k : Keyword, k.text ≠ "a" := fun k => by cases k <;> decide
  exact isWritable_cons_identifier.2 ⟨⟨hname, hword⟩, isWritable_nil⟩

theorem isWritable_number : IsWritable strict [.number "1"] := by
  have hdigits : IsDigits "1".toList := ⟨by decide, List.forall_mem_singleton.2 rfl⟩
  have hnumber : IsNumber "1".toList := ⟨'1', [], rfl, rfl, by simp⟩
  have hstrict : IsStrictNumber "1".toList := ⟨[], ['1'], [], rfl, .inl rfl, hdigits, .inl rfl⟩
  exact isWritable_cons_number.2 ⟨⟨hnumber, fun _ => hstrict⟩, isWritable_nil⟩

theorem isWritable_string : IsWritable strict [.string "\"\""] := by
  have hquoted : IsQuoted "\"\"".toList := ⟨'"', [], rfl, rfl, by simp⟩
  exact isWritable_cons_string.2 ⟨hquoted, isWritable_nil⟩

namespace Finishes

variable {read : σ → Token → Option (Step σ α)} {state : σ} {step : Step σ α}

theorem done (result : α) : Finishes strict [] read (.done result) :=
  ⟨[], result, isWritable_nil, accepts_done_iff.2 ⟨rfl, rfl⟩⟩

theorem cons {token : Token} (htoken : IsWritable strict [token])
    (hread : read state token = some step) (h : Finishes strict ending read step) :
    Finishes strict ending read (.more state) := by
  obtain ⟨tail, result, hwritable, haccepts⟩ := h
  refine ⟨token :: tail, result, ?_, accepts_cons_iff.2 ⟨step, hread, haccepts⟩⟩
  exact isWritable_append.2 ⟨htoken, hwritable⟩

theorem symbol (s : Symbol) (hread : read state (.symbol s) = some step)
    (h : Finishes strict ending read step) : Finishes strict ending read (.more state) :=
  cons (isWritable_cons_symbol.2 isWritable_nil) hread h

theorem keyword (word : Keyword) (hread : read state (.keyword word) = some step)
    (h : Finishes strict ending read step) : Finishes strict ending read (.more state) :=
  cons (isWritable_cons_keyword.2 isWritable_nil) hread h

/-- A reader that runs inside another one is completed first, and then the outer one. -/
theorem embed {inner : σ → Token → Option (Step σ α)} {outer : τ → Token → Option (Step τ β)}
    (wrap : σ → τ) (next : α → Step τ β)
    (h : ∀ state token, outer (wrap state) token = (inner state token).map (.inside wrap next))
    (hinner : Finishes strict [] inner (.more state))
    (hnext : ∀ found, Finishes strict ending outer (next found)) :
    Finishes strict ending outer (.more (wrap state)) := by
  obtain ⟨first, found, hfirst, haccepts⟩ := hinner
  rw [List.append_nil] at haccepts
  obtain ⟨rest, result, hrest, haccepts'⟩ := hnext found
  refine ⟨first ++ rest, result, isWritable_append.2 ⟨hfirst, hrest⟩, ?_⟩
  rw [List.append_assoc]
  exact (accepts_embed_iff wrap next h).2 ⟨first, _, found, rfl, haccepts, haccepts'⟩

end Finishes

/-! ### Types, constants and typedefs -/

namespace TypeReader

variable {limit : Nat}

theorem finishes_plug (type : TypeExpr) (holes : List Hole) :
    Finishes strict [] (plain? limit) (plug type holes) := by
  induction holes generalizing type with
  | nil => exact .done type
  | cons hole holes ih =>
    cases hole with
    | listElement => exact .symbol .rightAngle rfl (ih (.list type))
    | setElement => exact .symbol .rightAngle rfl (ih (.set type))
    | mapKey =>
      -- The key is complete, so a value is still to come.
      have hvalue : Finishes strict [] (plain? limit)
          (plug (.named "a") (.mapValue type :: holes)) :=
        .symbol .rightAngle rfl (ih (.map type (.named "a")))
      exact .symbol .comma rfl (.cons isWritable_identifier rfl hvalue)
    | mapValue key => exact .symbol .rightAngle rfl (ih (.map key type))

theorem finishes (state : State) : Finishes strict [] (plain? limit) (.more state) := by
  have hoperand (holes : List Hole) :
      Finishes strict [] (plain? limit) (.more (.operand holes)) :=
    .cons isWritable_identifier rfl (finishes_plug (.named "a") holes)
  cases state with
  | operand holes => exact hoperand holes
  | opening hole holes => exact .symbol .leftAngle rfl (hoperand (hole :: holes))
  | closing hole argument holes => exact finishes_plug argument (hole :: holes)

end TypeReader

theorem ConstantReader.finishes {limit : Nat} (state : State) :
    Finishes strict [] (plain? limit) (.more state) := by
  have hvalue (docText signature name : String) :
      Finishes strict [] (plain? limit) (.more (.value docText signature name)) :=
    .cons isWritable_number rfl (.done _)
  have hassign (docText signature name : String) :
      Finishes strict [] (plain? limit) (.more (.assign docText signature name)) :=
    .symbol .assign rfl (hvalue docText signature name)
  have hname (docText signature : String) :
      Finishes strict [] (plain? limit) (.more (.name docText signature)) :=
    .cons isWritable_identifier rfl (hassign docText signature "a")
  cases state with
  | type docText state =>
    exact .embed _ _ (fun _ _ => plain?_type) (TypeReader.finishes state) fun _ => hname _ _
  | name docText signature => exact hname docText signature
  | assign docText signature name => exact hassign docText signature name
  | value docText signature name => exact hvalue docText signature name

theorem TypedefReader.finishes {limit : Nat} (state : State) :
    Finishes strict [] (plain? limit) (.more state) := by
  have hname (docText signature : String) :
      Finishes strict [] (plain? limit) (.more (.name docText signature)) :=
    .cons isWritable_identifier rfl (.done _)
  cases state with
  | type docText state =>
    exact .embed _ _ (fun _ _ => plain?_type) (TypeReader.finishes state) fun _ => hname _ _
  | name docText signature => exact hname docText signature

/-! ### Enums -/

namespace EnumReader

/-- No number of a member is expected or has to be found. -/
def State.isNumbered : State → Bool
  | .afterName enum _ _ => (int32? (expectedValue enum)).isSome
  | .value _ _ => false
  | _ => true

theorem finishes {state : State} (h : state.isNumbered = true) :
    Finishes strict [] plain? (.more state) := by
  have hmember (enum : Enum) : Finishes strict [] plain? (.more (.member enum)) :=
    .symbol .rightBrace rfl (.done enum)
  cases state with
  | opening enum => exact .symbol .leftBrace rfl (hmember enum)
  | member enum => exact hmember enum
  | afterName enum name span =>
    obtain ⟨value, hvalue⟩ := Option.isSome_iff_exists.1 h
    have hread : plain? (.afterName enum name span) (.symbol .rightBrace) =
        some (.done (enum.insert name value)) :=
      plain?_afterName_eq_some_iff.2 (.inr ⟨value, hvalue, rfl⟩)
    exact .symbol .rightBrace hread (.done _)
  | value enum name => cases h
  | separator enum => exact .symbol .rightBrace rfl (.done enum)

end EnumReader

/-! ### Fields and what consists of them -/

namespace FieldListReader

/-- No number stands where its index is expected. -/
def State.isIndexed (state : State) : Bool :=
  match state.phase with
  | .colon _ => false
  | _ => true

variable {limit : Nat} {closer : Symbol}

theorem finishes (hcloser : closer = .rightBrace ∨ closer = .rightParen) {state : State}
    (h : state.isIndexed = true) : Finishes strict [] (plain? limit closer) (.more state) := by
  have hclosed {state : State} {result : List Field}
      (hread : plain? limit closer state (.symbol closer) = some (.done result)) :
      Finishes strict [] (plain? limit closer) (.more state) :=
    .symbol closer hread (.done result)
  have hafterName (fields : List Field) (field : Field) :
      Finishes strict [] (plain? limit closer) (.more ⟨fields, .afterName field⟩) := by
    rcases hcloser with rfl | rfl <;> exact hclosed rfl
  have hseparator (fields : List Field) (field : Field) :
      Finishes strict [] (plain? limit closer) (.more ⟨fields, .separator field⟩) := by
    rcases hcloser with rfl | rfl <;> exact hclosed rfl
  have hname (fields : List Field) (head : Head) (signature : String) :
      Finishes strict [] (plain? limit closer) (.more ⟨fields, .name head signature⟩) :=
    .cons isWritable_identifier rfl (hafterName fields _)
  obtain ⟨fields, phase⟩ := state
  cases phase with
  | start => rcases hcloser with rfl | rfl <;> exact hclosed rfl
  | colon number => cases h
  | modifier index docText =>
    exact .cons isWritable_identifier rfl (hname fields ⟨index, false, docText⟩ "a")
  | type head state =>
    exact .embed (fun state => State.mk fields (.type head state)) _ (fun _ _ => plain?_type)
      (TypeReader.finishes state) fun _ => hname fields head _
  | name head signature => exact hname fields head signature
  | afterName field => exact hafterName fields field
  | value field => exact .cons isWritable_number rfl (hseparator fields _)
  | separator field => exact hseparator fields field

end FieldListReader

namespace StructReader

/-- No number stands where the index of a field is expected. -/
def State.isIndexed : State → Bool
  | .opening _ _ => true
  | .fields _ _ reader => reader.isIndexed

theorem finishes {limit : Nat} {state : State} (h : state.isIndexed = true) :
    Finishes strict [] (plain? limit) (.more state) := by
  have hfields (name docText : String) {reader : FieldListReader.State}
      (h : reader.isIndexed = true) :
      Finishes strict [] (plain? limit) (.more (.fields name docText reader)) :=
    .embed (State.fields name docText) _ (fun _ _ => plain?_fields)
      (FieldListReader.finishes (.inl rfl) h) fun _ => .done _
  cases state with
  | opening name docText => exact .symbol .leftBrace rfl (hfields name docText rfl)
  | fields name docText reader => exact hfields name docText h

end StructReader

namespace ServiceReader

/-- No number stands where the index of a field is expected. -/
def State.isIndexed (state : State) : Bool :=
  match state.phase with
  | .arguments _ reader => reader.isIndexed
  | .throws _ reader => reader.isIndexed
  | _ => true

theorem finishes {limit : Nat} {state : State} (h : state.isIndexed = true) :
    Finishes strict [] (plain? limit) (.more state) := by
  obtain ⟨service, phase⟩ := state
  have hfunction (service : Service) :
      Finishes strict [] (plain? limit) (.more ⟨service, .function⟩) :=
    .symbol .rightBrace rfl (.done service)
  have hopening (service : Service) :
      Finishes strict [] (plain? limit) (.more ⟨service, .opening⟩) :=
    .symbol .leftBrace rfl (hfunction service)
  have hseparator (service : Service) :
      Finishes strict [] (plain? limit) (.more ⟨service, .separator⟩) :=
    .symbol .rightBrace rfl (.done service)
  have hafterArguments (function : Function) :
      Finishes strict [] (plain? limit) (.more ⟨service, .afterArguments function⟩) :=
    .symbol .rightBrace rfl (.done _)
  have harguments (function : Function) {reader : FieldListReader.State}
      (h : reader.isIndexed = true) :
      Finishes strict [] (plain? limit) (.more ⟨service, .arguments function reader⟩) :=
    .embed (fun reader => State.mk service (.arguments function reader)) _
      (fun _ _ => plain?_arguments) (FieldListReader.finishes (.inr rfl) h)
      fun _ => hafterArguments _
  have hthrows (function : Function) {reader : FieldListReader.State}
      (h : reader.isIndexed = true) :
      Finishes strict [] (plain? limit) (.more ⟨service, .throws function reader⟩) :=
    .embed (fun reader => State.mk service (.throws function reader)) _
      (fun _ _ => plain?_throws) (FieldListReader.finishes (.inr rfl) h) fun _ => hseparator _
  have hopenArguments (function : Function) :
      Finishes strict [] (plain? limit) (.more ⟨service, .openArguments function⟩) :=
    .symbol .leftParen rfl (harguments function rfl)
  have hname (head : Head) (returnType : String) :
      Finishes strict [] (plain? limit) (.more ⟨service, .name head returnType⟩) :=
    .cons isWritable_identifier rfl (hopenArguments _)
  cases phase with
  | afterName => exact .symbol .leftBrace rfl (hfunction service)
  | parent => exact .cons isWritable_identifier rfl (hopening _)
  | opening => exact hopening service
  | function => exact hfunction service
  | result head => exact .keyword .voidResult rfl (hname head _)
  | resultType head state =>
    exact .embed (fun state => State.mk service (.resultType head state)) _
      (fun _ _ => plain?_resultType) (TypeReader.finishes state) fun _ => hname head _
  | name head returnType => exact hname head returnType
  | openArguments function => exact hopenArguments function
  | arguments function reader => exact harguments function h
  | afterArguments function => exact hafterArguments function
  | openThrows function => exact .symbol .leftParen rfl (hthrows function rfl)
  | throws function reader => exact hthrows function h
  | separator => exact hseparator service

end ServiceReader

/-! ### Documents -/

namespace DocumentReader

/-- No number is left open. -/
def State.isNumbered (state : State) : Bool :=
  match state.phase with
  | .enum reader => reader.isNumbered
  | .struct reader => reader.isIndexed
  | .exception reader => reader.isIndexed
  | .service reader => reader.isIndexed
  | _ => true

variable {limit : Nat}

theorem finishes {state : State} (h : state.isNumbered = true) :
    Finishes strict [.endOfInput] (plain? limit) (.more state) := by
  obtain ⟨document, phase⟩ := state
  have hheader (document : Document) :
      Finishes strict [.endOfInput] (plain? limit) (.more ⟨document, .header⟩) :=
    ⟨[], document, isWritable_nil, accepts_cons_iff.2 ⟨.done document, rfl,
      accepts_done_iff.2 ⟨rfl, rfl⟩⟩⟩
  have hdefinitions (document : Document) :
      Finishes strict [.endOfInput] (plain? limit) (.more ⟨document, .definitions⟩) :=
    ⟨[], document, isWritable_nil, accepts_cons_iff.2 ⟨.done document, rfl,
      accepts_done_iff.2 ⟨rfl, rfl⟩⟩⟩
  have hnamespaceName (scope : String) :
      Finishes strict [.endOfInput] (plain? limit) (.more ⟨document, .namespaceName scope⟩) :=
    .cons isWritable_identifier rfl (hheader _)
  have henum {reader : EnumReader.State} (h : reader.isNumbered = true) :
      Finishes strict [.endOfInput] (plain? limit) (.more ⟨document, .enum reader⟩) :=
    .embed (fun reader => State.mk document (.enum reader)) _ plain?_enum
      (EnumReader.finishes h) fun _ => hdefinitions _
  have hstruct {reader : StructReader.State} (h : reader.isIndexed = true) :
      Finishes strict [.endOfInput] (plain? limit) (.more ⟨document, .struct reader⟩) :=
    .embed (fun reader => State.mk document (.struct reader)) _ plain?_struct
      (StructReader.finishes h) fun _ => hdefinitions _
  have hexception {reader : StructReader.State} (h : reader.isIndexed = true) :
      Finishes strict [.endOfInput] (plain? limit) (.more ⟨document, .exception reader⟩) :=
    .embed (fun reader => State.mk document (.exception reader)) _ plain?_exception
      (StructReader.finishes h) fun _ => hdefinitions _
  have hservice {reader : ServiceReader.State} (h : reader.isIndexed = true) :
      Finishes strict [.endOfInput] (plain? limit) (.more ⟨document, .service reader⟩) :=
    .embed (fun reader => State.mk document (.service reader)) _ plain?_service
      (ServiceReader.finishes h) fun _ => hdefinitions _
  cases phase with
  | header => exact hheader document
  | namespaceScope => exact .symbol .star rfl (hnamespaceName _)
  | namespaceName scope => exact hnamespaceName scope
  | includePath => exact .cons isWritable_string rfl (hheader _)
  | definitions => exact hdefinitions document
  | constant reader =>
    exact .embed (fun reader => State.mk document (.constant reader)) _ plain?_constant
      (ConstantReader.finishes reader) fun _ => hdefinitions _
  | typedef reader =>
    exact .embed (fun reader => State.mk document (.typedef reader)) _ plain?_typedef
      (TypedefReader.finishes reader) fun _ => hdefinitions _
  | name kind =>
    cases kind with
    | enum => exact .cons isWritable_identifier rfl (henum rfl)
    | struct => exact .cons isWritable_identifier rfl (hstruct rfl)
    | exception => exact .cons isWritable_identifier rfl (hexception rfl)
    | service => exact .cons isWritable_identifier rfl (hservice rfl)
  | enum reader => exact henum h
  | struct reader => exact hstruct h
  | exception reader => exact hexception h
  | service reader => exact hservice h

end DocumentReader

end ServiceIdl
