import ServiceIdl.Proofs.Reading.Layout

/-!
# Layout is inert

Every reader does the same after a change of layout: it accepts the same tokens, its
states and results differ only by the change, and a fault is the same at the new place.
-/

namespace ServiceIdl

variable (m : LayoutMap)

namespace LayoutMap

variable {m} {α β γ δ : Type}

theorem outcome_bind {f : α → β} {g : γ → δ} {first : Except ParseError α}
    {second : Except ParseError β} {next : α → Except ParseError γ}
    {next' : β → Except ParseError δ} (h : second = m.outcome f first)
    (hnext : ∀ a, next' (f a) = m.outcome g (next a)) :
    (second >>= next') = m.outcome g (first >>= next) := by
  subst h
  cases first with
  | error e => rfl
  | ok a => exact hnext a

theorem outcome_ite {f : α → β} {p : Prop} [Decidable p] {first first' : Except ParseError α}
    {second second' : Except ParseError β} (htrue : second = m.outcome f first)
    (hfalse : second' = m.outcome f first') :
    (if p then second else second') = m.outcome f (if p then first else first') := by
  subst htrue hfalse
  split <;> rfl

theorem Relates.ite {f : α → β} {p : Prop} [Decidable p] {first first' : Reading α}
    {second second' : Reading β} (htrue : m.Relates f first second)
    (hfalse : m.Relates f first' second') :
    m.Relates f (if p then first else first') (if p then second else second') := by
  split
  · exact htrue
  · exact hfalse

end LayoutMap

namespace SpannedToken

variable (t : SpannedToken)

@[simp] theorem token_mapLayout : (t.mapLayout m).token = t.token := rfl

theorem expectSymbol_mapLayout (s : Symbol) :
    (t.mapLayout m).expectSymbol s = m.outcome id (t.expectSymbol s) :=
  LayoutMap.outcome_ite rfl rfl

theorem expectIdentifier_mapLayout :
    (t.mapLayout m).expectIdentifier = m.outcome id t.expectIdentifier := by
  simp only [expectIdentifier, token_mapLayout]
  split <;> rfl

theorem expectLiteral_mapLayout :
    (t.mapLayout m).expectLiteral = m.outcome id t.expectLiteral := by
  simp only [expectLiteral, token_mapLayout]
  split <;> rfl

end SpannedToken

theorem explicitNumber_mapLayout (kind : IndexKind) (expected : Int) (t : SpannedToken) :
    explicitNumber kind expected (t.mapLayout m) =
      m.outcome id (explicitNumber kind expected t) := by
  simp only [explicitNumber, SpannedToken.token_mapLayout]
  split
  · split
    · rfl
    · split <;> rfl
  · rfl

theorem implicitNumber_mapLayout (expected : Int) (span : Span) :
    implicitNumber expected (m.span span) = m.outcome id (implicitNumber expected span) := by
  unfold implicitNumber
  split <;> rfl

namespace TypeReader

theorem read_mapLayout (limit : Nat) (state : State) (t : SpannedToken) :
    read limit state (t.mapLayout m) = m.outcome id (read limit state t) := by
  cases state with
  | operand holes =>
    simp only [read, readOperand, SpannedToken.token_mapLayout]
    split
    · rfl
    · split
      · rfl
      · split <;> rfl
  | opening hole holes =>
    exact LayoutMap.outcome_bind (t.expectSymbol_mapLayout m _) fun _ => rfl
  | closing hole argument holes =>
    cases hole <;> exact LayoutMap.outcome_bind (t.expectSymbol_mapLayout m _) fun _ => rfl

end TypeReader

namespace ConstantReader

theorem read_mapLayout (limit : Nat) (state : State) (t : SpannedToken) :
    read limit (state.mapLayout m) (t.mapLayout m) =
      m.outcome (Step.map (·.mapLayout m) (·.mapLayout m)) (read limit state t) := by
  cases state with
  | type docText type =>
    refine LayoutMap.outcome_bind (TypeReader.read_mapLayout m limit type t) fun step => ?_
    cases step <;> rfl
  | name docText signature =>
    exact LayoutMap.outcome_bind (t.expectIdentifier_mapLayout m) fun _ => rfl
  | assign docText signature name =>
    exact LayoutMap.outcome_bind (t.expectSymbol_mapLayout m _) fun _ => rfl
  | value docText signature name =>
    exact LayoutMap.outcome_bind (t.expectLiteral_mapLayout m) fun _ => rfl

end ConstantReader

namespace TypedefReader

theorem read_mapLayout (limit : Nat) (state : State) (t : SpannedToken) :
    read limit (state.mapLayout m) (t.mapLayout m) =
      m.outcome (Step.map (·.mapLayout m) (·.mapLayout m)) (read limit state t) := by
  cases state with
  | type docText type =>
    refine LayoutMap.outcome_bind (TypeReader.read_mapLayout m limit type t) fun step => ?_
    cases step <;> rfl
  | name docText signature =>
    exact LayoutMap.outcome_bind (t.expectIdentifier_mapLayout m) fun _ => rfl

end TypedefReader

namespace EnumReader

variable (enum : Enum) (t : SpannedToken)

theorem readMember_mapLayout :
    readMember (enum.mapLayout m) (t.mapLayout m) =
      m.outcome (Step.map (·.mapLayout m) (·.mapLayout m)) (readMember enum t) := by
  simp only [readMember, SpannedToken.token_mapLayout]
  split
  · rfl
  · exact LayoutMap.outcome_bind (t.expectSymbol_mapLayout m _) fun _ => rfl

theorem readSeparator_mapLayout :
    readSeparator (enum.mapLayout m) (t.mapLayout m) =
      m.outcome (Step.map (·.mapLayout m) (·.mapLayout m)) (readSeparator enum t) :=
  LayoutMap.outcome_ite rfl (readMember_mapLayout m enum t)

theorem read_mapLayout (state : State) (t : SpannedToken) :
    read (state.mapLayout m) (t.mapLayout m) =
      m.outcome (Step.map (·.mapLayout m) (·.mapLayout m)) (read state t) := by
  cases state with
  | opening enum => exact LayoutMap.outcome_bind (t.expectSymbol_mapLayout m _) fun _ => rfl
  | member enum => exact readMember_mapLayout m enum t
  | afterName enum name span =>
    refine LayoutMap.outcome_ite rfl ?_
    refine LayoutMap.outcome_bind (implicitNumber_mapLayout m _ span) fun value => ?_
    exact readSeparator_mapLayout m (enum.insert name value) t
  | value enum name =>
    exact LayoutMap.outcome_bind (explicitNumber_mapLayout m _ _ t) fun _ => rfl
  | separator enum => exact readSeparator_mapLayout m enum t

end EnumReader

namespace FieldListReader

theorem expectedIndex_mapLayout (fields : List Field) :
    expectedIndex (fields.map (·.mapLayout m)) = expectedIndex fields := by
  simp only [expectedIndex, List.getLast?_map, Option.map_map]
  rfl

variable (limit : Nat) (closer : Symbol) (fields : List Field) (t : SpannedToken)

theorem readType_mapLayout (head : Head) (type : TypeReader.State) :
    readType limit (fields.map (·.mapLayout m)) (head.mapLayout m) type (t.mapLayout m) =
      m.outcome (Step.map (·.mapLayout m) (List.map (·.mapLayout m)))
        (readType limit fields head type t) := by
  refine LayoutMap.outcome_bind (TypeReader.read_mapLayout m limit type t) fun step => ?_
  cases step <;> rfl

theorem readModifier_mapLayout (index : Int32) (docText : String) :
    readModifier limit (fields.map (·.mapLayout m)) index (m.doc docText) (t.mapLayout m) =
      m.outcome (Step.map (·.mapLayout m) (List.map (·.mapLayout m)))
        (readModifier limit fields index docText t) := by
  simp only [readModifier, SpannedToken.token_mapLayout]
  split
  · rfl
  · rfl
  · exact readType_mapLayout m limit fields t ⟨index, false, docText⟩ TypeReader.start

theorem relates_readStart :
    m.Relates (Step.map (·.mapLayout m) (List.map (·.mapLayout m)))
      (readStart limit closer fields t)
      (readStart limit closer (fields.map (·.mapLayout m)) (t.mapLayout m)) := by
  simp only [readStart, SpannedToken.token_mapLayout]
  split
  · exact .bind (.lift (t.expectSymbol_mapLayout m closer)) fun _ => .pure rfl
  · exact .bind (.lift (t.expectSymbol_mapLayout m closer)) fun _ => .pure rfl
  · exact .pure rfl
  · rw [expectedIndex_mapLayout]
    refine .bind (.lift (implicitNumber_mapLayout m _ t.span)) fun index => ?_
    refine .bind .takeDoc fun docText => ?_
    exact .lift (readModifier_mapLayout m limit fields t index docText)

theorem relates_readSeparator :
    m.Relates (Step.map (·.mapLayout m) (List.map (·.mapLayout m)))
      (readSeparator limit closer fields t)
      (readSeparator limit closer (fields.map (·.mapLayout m)) (t.mapLayout m)) :=
  .ite (.pure rfl) (relates_readStart m limit closer fields t)

theorem relates_read (state : State) :
    m.Relates (Step.map (·.mapLayout m) (List.map (·.mapLayout m)))
      (read limit closer state t)
      (read limit closer (state.mapLayout m) (t.mapLayout m)) := by
  obtain ⟨fields, phase⟩ := state
  cases phase with
  | start => exact relates_readStart m limit closer fields t
  | colon number =>
    refine .bind (.lift (t.expectSymbol_mapLayout m .colon)) fun _ => ?_
    refine .bind (.lift ?_) fun index => .bind .takeDoc fun docText => .pure rfl
    simp only [State.mapLayout, expectedIndex_mapLayout]
    exact explicitNumber_mapLayout m .field (expectedIndex fields) number
  | modifier index docText => exact .lift (readModifier_mapLayout m limit fields t index docText)
  | type head type => exact .lift (readType_mapLayout m limit fields t head type)
  | name head signature =>
    exact .bind (.lift (t.expectIdentifier_mapLayout m)) fun _ => .pure rfl
  | afterName field =>
    have hsep := relates_readSeparator m limit closer (fields ++ [field]) t
    rw [List.map_append] at hsep
    exact .ite (.pure rfl) hsep
  | value field => exact .bind (.lift (t.expectLiteral_mapLayout m)) fun _ => .pure rfl
  | separator field =>
    have hsep := relates_readSeparator m limit closer (fields ++ [field]) t
    rwa [List.map_append] at hsep

end FieldListReader

namespace StructReader

theorem relates_read (limit : Nat) (state : State) (t : SpannedToken) :
    m.Relates (Step.map (·.mapLayout m) (·.mapLayout m))
      (read limit state t) (read limit (state.mapLayout m) (t.mapLayout m)) := by
  cases state with
  | opening name docText =>
    exact .bind (.lift (t.expectSymbol_mapLayout m .leftBrace)) fun _ => .pure rfl
  | fields name docText fields =>
    refine .bind (FieldListReader.relates_read m limit .rightBrace t fields) fun step => ?_
    cases step <;> exact .pure rfl

end StructReader

namespace ServiceReader

theorem addFunction_mapLayout (service : Service) (function : Function) :
    addFunction (service.mapLayout m) (function.mapLayout m) =
      (addFunction service function).mapLayout m := by
  simp [addFunction, Service.mapLayout]

variable (limit : Nat) (service : Service) (t : SpannedToken)

theorem readOpening_mapLayout :
    readOpening (service.mapLayout m) (t.mapLayout m) =
      m.outcome (Step.map (·.mapLayout m) (·.mapLayout m)) (readOpening service t) :=
  LayoutMap.outcome_bind (t.expectSymbol_mapLayout m .leftBrace) fun _ => rfl

theorem readResultType_mapLayout (head : Head) (type : TypeReader.State) :
    readResultType limit (service.mapLayout m) (head.mapLayout m) type (t.mapLayout m) =
      m.outcome (Step.map (·.mapLayout m) (·.mapLayout m))
        (readResultType limit service head type t) := by
  refine LayoutMap.outcome_bind (TypeReader.read_mapLayout m limit type t) fun step => ?_
  cases step <;> rfl

theorem readResult_mapLayout (head : Head) :
    readResult limit (service.mapLayout m) (head.mapLayout m) (t.mapLayout m) =
      m.outcome (Step.map (·.mapLayout m) (·.mapLayout m)) (readResult limit service head t) :=
  LayoutMap.outcome_ite rfl (readResultType_mapLayout m limit service t head TypeReader.start)

theorem relates_readFunction :
    m.Relates (Step.map (·.mapLayout m) (·.mapLayout m)) (readFunction limit service t)
      (readFunction limit (service.mapLayout m) (t.mapLayout m)) := by
  refine .ite (.pure rfl) (.bind .takeDoc fun docText => .ite (.pure rfl) (.lift ?_))
  exact readResult_mapLayout m limit service t ⟨false, docText⟩

theorem relates_readSeparator :
    m.Relates (Step.map (·.mapLayout m) (·.mapLayout m)) (readSeparator limit service t)
      (readSeparator limit (service.mapLayout m) (t.mapLayout m)) :=
  .ite (.pure rfl) (relates_readFunction m limit service t)

theorem relates_read (state : State) :
    m.Relates (Step.map (·.mapLayout m) (·.mapLayout m))
      (read limit state t) (read limit (state.mapLayout m) (t.mapLayout m)) := by
  obtain ⟨service, phase⟩ := state
  cases phase with
  | afterName => exact .ite (.pure rfl) (.lift (readOpening_mapLayout m service t))
  | parent => exact .bind (.lift (t.expectIdentifier_mapLayout m)) fun _ => .pure rfl
  | opening => exact .lift (readOpening_mapLayout m service t)
  | function => exact relates_readFunction m limit service t
  | result head => exact .lift (readResult_mapLayout m limit service t head)
  | resultType head type => exact .lift (readResultType_mapLayout m limit service t head type)
  | name head returnType => exact .bind (.lift (t.expectIdentifier_mapLayout m)) fun _ => .pure rfl
  | openArguments function =>
    exact .bind (.lift (t.expectSymbol_mapLayout m .leftParen)) fun _ => .pure rfl
  | arguments function fields =>
    refine .bind (FieldListReader.relates_read m limit .rightParen t fields) fun step => ?_
    cases step <;> exact .pure rfl
  | afterArguments function =>
    refine .ite (.pure rfl) (.bind .clearDoc fun _ => ?_)
    have hsep := relates_readSeparator m limit (addFunction service function) t
    rwa [← addFunction_mapLayout] at hsep
  | openThrows function =>
    exact .bind (.lift (t.expectSymbol_mapLayout m .leftParen)) fun _ => .pure rfl
  | throws function fields =>
    refine .bind (FieldListReader.relates_read m limit .rightParen t fields) fun step => ?_
    cases step with
    | more fields => exact .pure rfl
    | done throws =>
      refine .bind .clearDoc fun _ => .pure ?_
      have hadd := addFunction_mapLayout m service { function with throws }
      exact congrArg (fun service => Step.more (State.mk service .separator)) hadd
  | separator => exact relates_readSeparator m limit service t

end ServiceReader

namespace DocumentReader

variable (limit : Nat) (document : Document) (t : SpannedToken)

theorem relates_takeDocumentDoc :
    m.Relates (·.mapLayout m) (takeDocumentDoc document)
      (takeDocumentDoc (document.mapLayout m)) := by
  refine .bind .takeDoc fun docText => .pure ?_
  by_cases hdoc : document.docText = ""
  · have hmap : (document.mapLayout m).docText = "" := by simp [Document.mapLayout, hdoc]
    rw [if_pos hdoc, if_pos hmap]
    rfl
  · rw [if_neg hdoc]
    split
    · next hmap =>
      -- The doc text got lost, so the pending one does as well.
      rcases m.eq_empty_of_doc_eq_empty _ hmap with h | hall
      · exact absurd h hdoc
      · simp only [Document.mapLayout, hall]
    · rfl

theorem relates_readDefinition :
    m.Relates (·.mapLayout m) (readDefinition document t)
      (readDefinition (document.mapLayout m) (t.mapLayout m)) := by
  simp only [readDefinition, SpannedToken.token_mapLayout]
  split
  · exact .bind .takeDoc fun _ => .pure rfl
  · exact .bind .takeDoc fun _ => .pure rfl
  · exact .pure rfl
  · exact .pure rfl
  · exact .pure rfl
  · exact .pure rfl
  · exact .pure rfl
  · exact .throw rfl

theorem relates_readHeader :
    m.Relates (·.mapLayout m) (readHeader document t)
      (readHeader (document.mapLayout m) (t.mapLayout m)) := by
  simp only [readHeader, SpannedToken.token_mapLayout]
  split
  · exact .bind (relates_takeDocumentDoc m document) fun _ => .pure rfl
  · exact .bind (relates_takeDocumentDoc m document) fun _ => .pure rfl
  · exact relates_readDefinition m document t

variable {document} in
theorem relates_continueWith {σ α : Type} {phase : σ → Phase} {add add' : α → Document}
    {onState : σ → σ} {onResult : α → α}
    (hphase : ∀ state, phase (onState state) = (phase state).mapLayout m)
    (hadd : ∀ result, add' (onResult result) = (add result).mapLayout m) (step : Step σ α) :
    m.Relates (·.mapLayout m) (continueWith document phase add step)
      (continueWith (document.mapLayout m) phase add' (step.map onState onResult)) := by
  cases step with
  | more state =>
    refine .pure ?_
    simp only [hphase, State.mapLayout]
  | done result =>
    refine .bind .clearDoc fun _ => .pure ?_
    simp only [hadd, State.mapLayout, Phase.mapLayout]

theorem relates_read (state : State) :
    m.Relates (·.mapLayout m) (read limit state t)
      (read limit (state.mapLayout m) (t.mapLayout m)) := by
  obtain ⟨document, phase⟩ := state
  cases phase with
  | header => exact relates_readHeader m document t
  | namespaceScope =>
    simp only [State.mapLayout, Phase.mapLayout, read, SpannedToken.token_mapLayout]
    split
    · exact .pure rfl
    · exact .pure rfl
    · exact .throw rfl
  | namespaceName scope => exact .bind (.lift (t.expectIdentifier_mapLayout m)) fun _ => .pure rfl
  | includePath =>
    simp only [State.mapLayout, Phase.mapLayout, read, SpannedToken.token_mapLayout]
    split
    · exact .pure rfl
    · exact .throw rfl
  | definitions => exact relates_readDefinition m document t
  | constant state =>
    refine .bind (.lift (ConstantReader.read_mapLayout m limit state t)) fun step => ?_
    refine relates_continueWith m (fun _ => by rfl) (fun _ => ?_) step
    simp [State.mapLayout, Document.mapLayout]
  | typedef state =>
    refine .bind (.lift (TypedefReader.read_mapLayout m limit state t)) fun step => ?_
    refine relates_continueWith m (fun _ => by rfl) (fun _ => ?_) step
    simp [State.mapLayout, Document.mapLayout]
  | name kind =>
    refine .bind (.lift (t.expectIdentifier_mapLayout m)) fun name => ?_
    refine .bind .takeDoc fun docText => .pure ?_
    cases kind <;> rfl
  | enum state =>
    refine .bind (.lift (EnumReader.read_mapLayout m state t)) fun step => ?_
    refine relates_continueWith m (fun _ => by rfl) (fun _ => ?_) step
    simp [State.mapLayout, Document.mapLayout]
  | struct state =>
    refine .bind (StructReader.relates_read m limit state t) fun step => ?_
    refine relates_continueWith m (fun _ => by rfl) (fun _ => ?_) step
    simp [State.mapLayout, Document.mapLayout]
  | exception state =>
    refine .bind (StructReader.relates_read m limit state t) fun step => ?_
    refine relates_continueWith m (fun _ => by rfl) (fun _ => ?_) step
    simp [State.mapLayout, Document.mapLayout]
  | service state =>
    refine .bind (ServiceReader.relates_read m limit t state) fun step => ?_
    refine relates_continueWith m (fun _ => by rfl) (fun _ => ?_) step
    simp [State.mapLayout, Document.mapLayout]

end DocumentReader

end ServiceIdl
