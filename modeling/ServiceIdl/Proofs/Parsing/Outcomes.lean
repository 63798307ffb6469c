import ServiceIdl.Parse

/-!
# Outcomes of reading

What holds of the states that reading goes through, and of the error that it may end with, is
proved reader by reader: what one token preserves, reading of any stream preserves.

## Main definitions

- `Ensures`, `Reading.Ensures`: what holds of results, and what holds of errors
- `Step.GoesOnIn`: what holds of a state in which reading goes on
- `ServiceReader.State.IsPlain`, `DocumentReader.State.IsPlain`: states outside all lists
- `ServiceReader.State.BeginsBehind`, `DocumentReader.State.BeginsBehind`: such a state, or one in
  which a list is announced
-/

namespace ServiceIdl

variable {α β : Type} {P : α → Prop} {Q : β → Prop} {E : ParseError → Prop}

/-- A result satisfies `P`, and an error satisfies `E`. -/
def Ensures (P : α → Prop) (E : ParseError → Prop) : Except ParseError α → Prop
  | .ok a => P a
  | .error e => E e

/-- Whatever doc text is pending, a result satisfies `P`, and an error satisfies `E`. -/
def Reading.Ensures (P : α → Prop) (E : ParseError → Prop) (reading : Reading α) : Prop :=
  ∀ pending, ServiceIdl.Ensures (fun result => P result.1) E (reading.run pending)

/-- If reading goes on, then in a state that satisfies `P`. -/
def Step.GoesOnIn {σ : Type} (P : σ → Prop) : Step σ α → Prop
  | .more state => P state
  | .done _ => True

theorem Step.GoesOnIn.imp {σ : Type} {P Q : σ → Prop} (hstate : ∀ state, P state → Q state)
    (step : Step σ α) (h : step.GoesOnIn P) : step.GoesOnIn Q := by
  cases step with
  | more state => exact hstate state h
  | done result => trivial

theorem Step.goesOnIn_true {σ : Type} (step : Step σ α) : step.GoesOnIn fun _ => True := by
  cases step <;> trivial

namespace Ensures

theorem mono {Q : α → Prop} {F : ParseError → Prop} {outcome : Except ParseError α}
    (h : Ensures P E outcome) (hresult : ∀ a, P a → Q a) (herror : ∀ e, E e → F e) :
    Ensures Q F outcome := by
  cases outcome with
  | error e => exact herror e h
  | ok a => exact hresult a h

/-- What holds of results and what holds of errors can be shown one by one. -/
theorem of_parts {outcome : Except ParseError α} (hresult : Ensures P (fun _ => True) outcome)
    (herror : Ensures (fun _ => True) E outcome) : Ensures P E outcome := by
  cases outcome with
  | error e => exact herror
  | ok a => exact hresult

theorem bind {first : Except ParseError α} {next : α → Except ParseError β}
    (h : Ensures P E first) (hnext : ∀ a, P a → Ensures Q E (next a)) :
    Ensures Q E (first >>= next) := by
  cases first with
  | error e => exact h
  | ok a => exact hnext a h

theorem ite {p : Prop} [Decidable p] {first second : Except ParseError α}
    (hfirst : Ensures P E first) (hsecond : Ensures P E second) :
    Ensures P E (if p then first else second) := by
  split
  · exact hfirst
  · exact hsecond

end Ensures

namespace Reading.Ensures

theorem pure {a : α} (h : P a) : Reading.Ensures P E (Pure.pure a) :=
  fun _ => h

theorem throw {e : ParseError} (h : E e) : Reading.Ensures P E (MonadExcept.throw e) :=
  fun _ => h

theorem bind {first : Reading α} {next : α → Reading β} (h : first.Ensures P E)
    (hnext : ∀ a, P a → (next a).Ensures Q E) : (first >>= next).Ensures Q E := by
  intro pending
  rw [StateT.run_bind]
  exact ServiceIdl.Ensures.bind (h pending) fun result hresult => hnext result.1 hresult result.2

theorem lift {first : Except ParseError α} (h : ServiceIdl.Ensures P E first) :
    Reading.Ensures P E (liftM first) := by
  intro pending
  exact ServiceIdl.Ensures.bind h fun _ hresult => hresult

theorem ite {p : Prop} [Decidable p] {first second : Reading α}
    (hfirst : first.Ensures P E) (hsecond : second.Ensures P E) :
    Reading.Ensures P E (if p then first else second) := by
  split
  · exact hfirst
  · exact hsecond

theorem mono {Q : α → Prop} {reading : Reading α} (h : reading.Ensures P E)
    (hresult : ∀ a, P a → Q a) : reading.Ensures Q E :=
  fun pending => (h pending).mono (fun result => hresult result.1) fun _ herror => herror

theorem takeDoc : Reading.Ensures (fun _ => True) E takeDoc :=
  fun _ => trivial

theorem clearDoc : Reading.Ensures (fun _ => True) E clearDoc :=
  fun _ => trivial

end Reading.Ensures

/-! ### Readers of single tokens and types -/

section

variable {t : SpannedToken} (hunexpected : ∀ expected, E (t.unexpected expected))

include hunexpected

theorem ensures_expectSymbol (s : Symbol) :
    Ensures (fun _ => t.token = .symbol s) E (t.expectSymbol s) := by
  unfold SpannedToken.expectSymbol
  split
  · assumption
  · exact hunexpected _

theorem ensures_expectIdentifier :
    Ensures (fun name => t.token = .identifier name) E t.expectIdentifier := by
  unfold SpannedToken.expectIdentifier
  split
  · assumption
  · exact hunexpected _

theorem ensures_expectLiteral :
    Ensures (fun text => t.token = .number text ∨ t.token = .string text) E t.expectLiteral := by
  unfold SpannedToken.expectLiteral
  split
  · next htoken => exact .inl htoken
  · next htoken => exact .inr htoken
  · exact hunexpected _

variable {limit : Nat}
  (hdeep : (TypeReader.Hole.ofToken? t.token).isSome = true → E ⟨.typeTooDeep limit, t.span⟩)

include hdeep

theorem TypeReader.ensures_read (state : State) :
    Ensures (fun _ => True) E (read limit state t) := by
  cases state with
  | operand holes =>
    simp only [read, readOperand]
    split
    · trivial
    · split
      · exact hunexpected _
      · next hole hhole => exact .ite trivial (hdeep (by rw [hhole]; rfl))
  | opening hole holes => exact .bind (ensures_expectSymbol hunexpected _) fun _ _ => trivial
  | closing hole argument holes =>
    cases hole <;> exact .bind (ensures_expectSymbol hunexpected _) fun _ _ => trivial

theorem ConstantReader.ensures_read (state : State) :
    Ensures (fun _ => True) E (read limit state t) := by
  cases state with
  | type docText type =>
    refine .bind (TypeReader.ensures_read hunexpected hdeep type) fun step _ => ?_
    cases step <;> trivial
  | name docText signature =>
    exact .bind (ensures_expectIdentifier hunexpected) fun _ _ => trivial
  | assign docText signature name =>
    exact .bind (ensures_expectSymbol hunexpected _) fun _ _ => trivial
  | value docText signature name =>
    exact .bind (ensures_expectLiteral hunexpected) fun _ _ => trivial

theorem TypedefReader.ensures_read (state : State) :
    Ensures (fun _ => True) E (read limit state t) := by
  cases state with
  | type docText type =>
    refine .bind (TypeReader.ensures_read hunexpected hdeep type) fun step _ => ?_
    cases step <;> trivial
  | name docText signature =>
    exact .bind (ensures_expectIdentifier hunexpected) fun _ _ => trivial

/-! ### Services and documents outside lists -/

namespace ServiceReader

/-- No list of fields is read or about to be opened. -/
def State.IsPlain (state : State) : Prop :=
  match state.phase with
  | .openArguments _ | .arguments _ _ | .openThrows _ | .throws _ _ => False
  | _ => True

/-- No list of fields is read behind the token `t`, which may announce one. -/
def State.BeginsBehind (t : SpannedToken) (state : State) : Prop :=
  match state.phase with
  | .openArguments _ => ∃ name, t.token = .identifier name
  | .openThrows _ => t.token = .keyword .throwsClause
  | .arguments _ _ | .throws _ _ => False
  | _ => True

variable (service : Service)

omit hdeep in
theorem ensures_readOpening :
    Ensures (Step.GoesOnIn (State.BeginsBehind t)) E (readOpening service t) :=
  .bind (ensures_expectSymbol hunexpected _) fun _ _ => trivial

theorem ensures_readResultType (head : Head) (type : TypeReader.State) :
    Ensures (Step.GoesOnIn (State.BeginsBehind t)) E
      (readResultType limit service head type t) := by
  refine .bind (TypeReader.ensures_read hunexpected hdeep type) fun step _ => ?_
  cases step <;> trivial

theorem ensures_readResult (head : Head) :
    Ensures (Step.GoesOnIn (State.BeginsBehind t)) E (readResult limit service head t) :=
  .ite trivial (ensures_readResultType hunexpected hdeep service head _)

theorem ensures_readFunction :
    (readFunction limit service t).Ensures (Step.GoesOnIn (State.BeginsBehind t)) E := by
  refine .ite (.pure trivial) (.bind .takeDoc fun docText _ => .ite (.pure trivial) (.lift ?_))
  exact ensures_readResult hunexpected hdeep service ⟨false, docText⟩

theorem ensures_readSeparator :
    (readSeparator limit service t).Ensures (Step.GoesOnIn (State.BeginsBehind t)) E :=
  .ite (.pure trivial) (ensures_readFunction hunexpected hdeep service)

/-- Outside lists of fields, one token does no more than announce one. -/
theorem ensures_read_of_isPlain {state : State} (h : state.IsPlain) :
    (read limit state t).Ensures (Step.GoesOnIn (State.BeginsBehind t)) E := by
  obtain ⟨service, phase⟩ := state
  cases phase with
  | openArguments | arguments | openThrows | throws => exact False.elim h
  | afterName => exact .ite (.pure trivial) (.lift (ensures_readOpening hunexpected service))
  | parent => exact .bind (.lift (ensures_expectIdentifier hunexpected)) fun _ _ => .pure trivial
  | opening => exact .lift (ensures_readOpening hunexpected service)
  | function => exact ensures_readFunction hunexpected hdeep service
  | result head => exact .lift (ensures_readResult hunexpected hdeep service head)
  | resultType head type =>
    exact .lift (ensures_readResultType hunexpected hdeep service head type)
  | name head returnType =>
    exact .bind (.lift (ensures_expectIdentifier hunexpected)) fun name hname =>
      .pure ⟨name, hname⟩
  | afterArguments function =>
    simp only [read]
    split
    · next hthrows => exact .pure hthrows
    · exact .bind .clearDoc fun _ _ => ensures_readSeparator hunexpected hdeep _
  | separator => exact ensures_readSeparator hunexpected hdeep service

end ServiceReader

namespace DocumentReader

/-- The word in front of the name of a definition. -/
def NamedKind.keyword : NamedKind → Keyword
  | .enum => .enumDef
  | .struct => .structDef
  | .exception => .exceptionDef
  | .service => .serviceDef

/-- No definition with a name in front of it is read or about to be named. -/
def State.IsPlain (state : State) : Prop :=
  match state.phase with
  | .name _ | .enum _ | .struct _ | .exception _ | .service _ => False
  | _ => True

/-- No such definition is read behind the token `t`, which may be the word in front of a name. -/
def State.BeginsBehind (t : SpannedToken) (state : State) : Prop :=
  match state.phase with
  | .name kind => t.token = .keyword kind.keyword
  | .enum _ | .struct _ | .exception _ | .service _ => False
  | _ => True

variable (document : Document)

omit hunexpected hdeep in
theorem ensures_takeDocumentDoc : (takeDocumentDoc document).Ensures (fun _ => True) E :=
  .bind .takeDoc fun _ _ => .pure trivial

omit hdeep in
theorem ensures_readDefinition :
    (readDefinition document t).Ensures (State.BeginsBehind t) E := by
  unfold readDefinition
  split
  · exact .bind .takeDoc fun _ _ => .pure trivial
  · exact .bind .takeDoc fun _ _ => .pure trivial
  · next htoken => exact .pure htoken
  · next htoken => exact .pure htoken
  · next htoken => exact .pure htoken
  · next htoken => exact .pure htoken
  · exact .pure trivial
  · exact .throw (hunexpected _)

omit hdeep in
theorem ensures_readHeader : (readHeader document t).Ensures (State.BeginsBehind t) E := by
  unfold readHeader
  split
  · exact .bind (ensures_takeDocumentDoc document) fun _ _ => .pure trivial
  · exact .bind (ensures_takeDocumentDoc document) fun _ _ => .pure trivial
  · exact ensures_readDefinition hunexpected document

omit hunexpected hdeep in
/-- A step of the reader of a definition goes on inside the definition, or behind it. -/
theorem ensures_continueWith {σ α : Type} {phase : σ → Phase} {add : α → Document}
    {Inv : σ → Prop} {P : State → Prop} (hphase : ∀ state, Inv state → P ⟨document, phase state⟩)
    (hdone : ∀ document, P ⟨document, .definitions⟩) (step : Step σ α) (h : step.GoesOnIn Inv) :
    (continueWith document phase add step).Ensures P E := by
  cases step with
  | more state => exact .pure (hphase state h)
  | done result => exact .bind .clearDoc fun _ _ => .pure (hdone _)

/-- Outside such definitions, one token does no more than announce one. -/
theorem ensures_read_of_isPlain {state : State} (h : state.IsPlain) :
    (read limit state t).Ensures (State.BeginsBehind t) E := by
  obtain ⟨document, phase⟩ := state
  cases phase with
  | name | enum | struct | exception | service => exact False.elim h
  | header => exact ensures_readHeader hunexpected document
  | namespaceScope =>
    simp only [read]
    split
    · exact .pure trivial
    · exact .pure trivial
    · exact .throw (hunexpected _)
  | namespaceName scope =>
    exact .bind (.lift (ensures_expectIdentifier hunexpected)) fun _ _ => .pure trivial
  | includePath =>
    simp only [read]
    split
    · exact .pure trivial
    · exact .throw (hunexpected _)
  | definitions => exact ensures_readDefinition hunexpected document
  | constant state =>
    exact .bind (.lift (ConstantReader.ensures_read hunexpected hdeep state)) fun step _ =>
      ensures_continueWith document (fun _ _ => trivial) (fun _ => trivial) step step.goesOnIn_true
  | typedef state =>
    exact .bind (.lift (TypedefReader.ensures_read hunexpected hdeep state)) fun step _ =>
      ensures_continueWith document (fun _ _ => trivial) (fun _ => trivial) step step.goesOnIn_true

end DocumentReader

end

/-! ### Streams -/

/-- What every element of a stream preserves, reading of the stream preserves. -/
theorem ensures_readItems {limit : Nat} {Inv : DocumentReader.State → Prop} {items : List Item}
    (hitem : ∀ item ∈ items, ∀ state, Inv state → (readItem limit state item).Ensures Inv E)
    {state : DocumentReader.State} (h : Inv state) :
    (readItems limit state items).Ensures Inv E := by
  induction items generalizing state with
  | nil => exact .pure h
  | cons item items ih =>
    obtain ⟨hfirst, hitems⟩ := List.forall_mem_cons.1 hitem
    rw [readItems, List.foldlM_cons]
    exact .bind (hfirst state h) fun next hnext => ih hitems hnext

end ServiceIdl
