import ServiceIdl.Parse

/-!
# Changes of layout

A reader carries along where tokens stand and what doc comments say, and never decides
anything by them. A change of layout is what may happen to both; it acts on everything
that holds a span or a doc text.

## Main definitions

- `LayoutMap`, `LayoutMap.moved`, `LayoutMap.plain`, `LayoutMap.undocumented`
- `mapLayout` for tokens, errors, nodes of a document and states of readers
- `LayoutMap.Relates`: two readings that differ only by a change of layout
-/

namespace ServiceIdl

/-- A change of the places of tokens and of doc texts. -/
structure LayoutMap where
  /-- What happens to a span. -/
  span : Span → Span
  /-- What happens to a doc text. -/
  doc : String → String
  doc_empty : doc "" = ""
  /-- Either no doc text gets lost, or all do. -/
  eq_empty_of_doc_eq_empty : ∀ text, doc text = "" → text = "" ∨ ∀ other, doc other = ""

namespace LayoutMap

/-- Tokens stand elsewhere. -/
def moved (span : Span → Span) : LayoutMap :=
  ⟨span, id, rfl, fun _ h => .inl h⟩

/-- All tokens stand at one place, and there are no doc comments. -/
def plain : LayoutMap :=
  ⟨fun _ => ⟨.start, 0⟩, fun _ => "", rfl, fun _ _ => .inr fun _ => rfl⟩

/-- Tokens stand elsewhere, and there are no doc comments. -/
def undocumented (span : Span → Span) : LayoutMap :=
  ⟨span, fun _ => "", rfl, fun _ _ => .inr fun _ => rfl⟩

end LayoutMap

attribute [simp] LayoutMap.doc_empty

/-! ### Tokens, errors and nodes -/

/-- The step with another state, or with another result. -/
def Step.map {σ τ α β : Type} (onState : σ → τ) (onResult : α → β) : Step σ α → Step τ β
  | .more state => .more (onState state)
  | .done result => .done (onResult result)

variable (m : LayoutMap)

def SpannedToken.mapLayout (t : SpannedToken) : SpannedToken := ⟨t.token, m.span t.span⟩

def ParseError.mapLayout (e : ParseError) : ParseError := ⟨e.fault, m.span e.span⟩

def Constant.mapLayout (constant : Constant) : Constant :=
  { constant with docText := m.doc constant.docText }

def Typedef.mapLayout (typedef : Typedef) : Typedef :=
  { typedef with docText := m.doc typedef.docText }

def Enum.mapLayout (enum : Enum) : Enum :=
  { enum with docText := m.doc enum.docText }

def Field.mapLayout (field : Field) : Field :=
  { field with docText := m.doc field.docText }

def Struct.mapLayout (struct : Struct) : Struct :=
  { struct with
    fields := struct.fields.map (·.mapLayout m)
    docText := m.doc struct.docText }

def Function.mapLayout (function : Function) : Function :=
  { function with
    arguments := function.arguments.map (·.mapLayout m)
    throws := function.throws.map (·.mapLayout m)
    docText := m.doc function.docText }

def Service.mapLayout (service : Service) : Service :=
  { service with
    functions := service.functions.map (·.mapLayout m)
    docText := m.doc service.docText }

def Document.mapLayout (document : Document) : Document where
  namespaces := document.namespaces
  includes := document.includes
  consts := document.consts.map (·.mapLayout m)
  typedefs := document.typedefs.map (·.mapLayout m)
  enums := document.enums.map (·.mapLayout m)
  structs := document.structs.map (·.mapLayout m)
  exceptions := document.exceptions.map (·.mapLayout m)
  services := document.services.map (·.mapLayout m)
  docText := m.doc document.docText

/-! ### States of readers -/

def ConstantReader.State.mapLayout : ConstantReader.State → ConstantReader.State
  | .type docText reader => .type (m.doc docText) reader
  | .name docText signature => .name (m.doc docText) signature
  | .assign docText signature word => .assign (m.doc docText) signature word
  | .value docText signature word => .value (m.doc docText) signature word

def TypedefReader.State.mapLayout : TypedefReader.State → TypedefReader.State
  | .type docText reader => .type (m.doc docText) reader
  | .name docText signature => .name (m.doc docText) signature

def EnumReader.State.mapLayout : EnumReader.State → EnumReader.State
  | .opening enum => .opening (enum.mapLayout m)
  | .member enum => .member (enum.mapLayout m)
  | .afterName enum name span => .afterName (enum.mapLayout m) name (m.span span)
  | .value enum name => .value (enum.mapLayout m) name
  | .separator enum => .separator (enum.mapLayout m)

def FieldListReader.Head.mapLayout (head : FieldListReader.Head) : FieldListReader.Head :=
  { head with docText := m.doc head.docText }

def FieldListReader.Phase.mapLayout : FieldListReader.Phase → FieldListReader.Phase
  | .start => .start
  | .colon number => .colon (number.mapLayout m)
  | .modifier index docText => .modifier index (m.doc docText)
  | .type head reader => .type (head.mapLayout m) reader
  | .name head signature => .name (head.mapLayout m) signature
  | .afterName field => .afterName (field.mapLayout m)
  | .value field => .value (field.mapLayout m)
  | .separator field => .separator (field.mapLayout m)

def FieldListReader.State.mapLayout (state : FieldListReader.State) : FieldListReader.State :=
  ⟨state.fields.map (·.mapLayout m), state.phase.mapLayout m⟩

def StructReader.State.mapLayout : StructReader.State → StructReader.State
  | .opening name docText => .opening name (m.doc docText)
  | .fields name docText reader => .fields name (m.doc docText) (reader.mapLayout m)

def ServiceReader.Head.mapLayout (head : ServiceReader.Head) : ServiceReader.Head :=
  { head with docText := m.doc head.docText }

def ServiceReader.Phase.mapLayout : ServiceReader.Phase → ServiceReader.Phase
  | .afterName => .afterName
  | .parent => .parent
  | .opening => .opening
  | .function => .function
  | .result head => .result (head.mapLayout m)
  | .resultType head reader => .resultType (head.mapLayout m) reader
  | .name head returnType => .name (head.mapLayout m) returnType
  | .openArguments part => .openArguments (part.mapLayout m)
  | .arguments part reader => .arguments (part.mapLayout m) (reader.mapLayout m)
  | .afterArguments part => .afterArguments (part.mapLayout m)
  | .openThrows part => .openThrows (part.mapLayout m)
  | .throws part reader => .throws (part.mapLayout m) (reader.mapLayout m)
  | .separator => .separator

def ServiceReader.State.mapLayout (state : ServiceReader.State) : ServiceReader.State :=
  ⟨state.service.mapLayout m, state.phase.mapLayout m⟩

def DocumentReader.Phase.mapLayout : DocumentReader.Phase → DocumentReader.Phase
  | .header => .header
  | .namespaceScope => .namespaceScope
  | .namespaceName scope => .namespaceName scope
  | .includePath => .includePath
  | .definitions => .definitions
  | .constant reader => .constant (reader.mapLayout m)
  | .typedef reader => .typedef (reader.mapLayout m)
  | .name kind => .name kind
  | .enum reader => .enum (reader.mapLayout m)
  | .struct reader => .struct (reader.mapLayout m)
  | .exception reader => .exception (reader.mapLayout m)
  | .service reader => .service (reader.mapLayout m)

def DocumentReader.State.mapLayout (state : DocumentReader.State) : DocumentReader.State :=
  ⟨state.document.mapLayout m, state.phase.mapLayout m⟩

/-! ### Readings -/

namespace LayoutMap

variable {m} {α β γ δ : Type}

/-- An outcome without doc text after a change of layout, with the result mapped. -/
def outcome (m : LayoutMap) (f : α → β) : Except ParseError α → Except ParseError β
  | .error e => .error (e.mapLayout m)
  | .ok a => .ok (f a)

/-- The second reading is the first one after a change of layout, with the result mapped. -/
def Relates (m : LayoutMap) (f : α → β) (first : Reading α) (second : Reading β) : Prop :=
  ∀ pending, second.run (m.doc pending) =
    m.outcome (fun result => (f result.1, m.doc result.2)) (first.run pending)

namespace Relates

theorem pure {f : α → β} {a : α} {b : β} (h : b = f a) :
    m.Relates f (Pure.pure a) (Pure.pure b) := by
  subst h
  exact fun _ => rfl

theorem throw {f : α → β} {e e' : ParseError} (h : e' = e.mapLayout m) :
    m.Relates f (MonadExcept.throw e) (MonadExcept.throw e') := by
  subst h
  exact fun _ => rfl

theorem bind {f : α → β} {g : γ → δ} {first : Reading α} {second : Reading β}
    {next : α → Reading γ} {next' : β → Reading δ} (h : m.Relates f first second)
    (hnext : ∀ a, m.Relates g (next a) (next' (f a))) :
    m.Relates g (first >>= next) (second >>= next') := by
  intro pending
  rw [StateT.run_bind, StateT.run_bind, h pending]
  cases first.run pending with
  | error e => rfl
  | ok result => exact hnext result.1 result.2

theorem lift {f : α → β} {first : Except ParseError α} {second : Except ParseError β}
    (h : second = m.outcome f first) :
    m.Relates f (liftM first) (liftM second) := by
  subst h
  intro pending
  cases first <;> rfl

theorem takeDoc : m.Relates m.doc takeDoc takeDoc := by
  intro pending
  have hempty : m.doc "" = "" := m.doc_empty
  exact congrArg (fun cleared => Except.ok (m.doc pending, cleared)) hempty.symm

theorem clearDoc : m.Relates id clearDoc clearDoc := by
  intro pending
  have hempty : m.doc "" = "" := m.doc_empty
  exact congrArg (fun cleared => Except.ok ((), cleared)) hempty.symm

end Relates

end LayoutMap

end ServiceIdl
