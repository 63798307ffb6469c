import ServiceIdl.Proofs.Reading.TypeUse

/-!
# The type that is being read

At most one type is being read at a time, by whichever reader. Reader by reader a token is a part of
that type, or it stands outside all types.
-/

namespace ServiceIdl

/-! ### Single tokens -/

theorem SpannedToken.isShallow_unexpected (t : SpannedToken) (expected : String) :
    (t.unexpected expected).IsShallow := by
  simp [ParseError.IsShallow, unexpected]

theorem isAngle_of_isSeparator {t : SpannedToken} (h : t.isSeparator = true) :
    t.token.isAngle = false := by
  obtain hcomma | hsemicolon : t.token = .symbol .comma ∨ t.token = .symbol .semicolon := by
    simpa [SpannedToken.isSeparator] using h
  · rw [hcomma]
    rfl
  · rw [hsemicolon]
    rfl

theorem isAngle_of_isLiteral {token : Token} {text : String}
    (h : token = .number text ∨ token = .string text) : token.isAngle = false := by
  rcases h with rfl | rfl <;> rfl

theorem ensures_explicitNumber_isShallow (kind : IndexKind) (expected : Int) (t : SpannedToken) :
    Ensures (fun _ => t.token.isAngle = false) ParseError.IsShallow
      (explicitNumber kind expected t) := by
  unfold explicitNumber
  split
  · next text htoken =>
    split
    · simp [Ensures, ParseError.IsShallow]
    · refine .ite ?_ ?_
      · simp [Ensures, ParseError.IsShallow]
      · rw [htoken]
        rfl
  · exact t.isShallow_unexpected _

theorem ensures_implicitNumber_isShallow (expected : Int) (span : Span) :
    Ensures (fun _ => True) ParseError.IsShallow (implicitNumber expected span) := by
  unfold implicitNumber
  split
  · trivial
  · simp [Ensures, ParseError.IsShallow]

theorem TypeReader.typeUse_read (state : State) (t : SpannedToken) :
    TypeUse state t (Step.openType id) fun limit => read limit state t := by
  refine .inside id (fun limit => ?_) fun _ => rfl
  cases read limit state t <;> rfl

/-! ### Constants, typedefs and enums -/

/-- The type that is being read. -/
def ConstantReader.State.openType : ConstantReader.State → TypeReader.State
  | .type _ inner => inner
  | _ => TypeReader.start

theorem ConstantReader.typeUse_read (state : State) (t : SpannedToken) :
    TypeUse state.openType t (Step.openType State.openType) fun limit => read limit state t := by
  cases state with
  | type docText type =>
    exact (TypeReader.typeUse_read type t).bind fun step => by
      cases step <;> exact ⟨_, rfl, rfl⟩
  | name docText signature =>
    refine .after rfl (ensures_expectIdentifier t.isShallow_unexpected) fun name hname => ?_
    exact .pure rfl (by rw [hname]; rfl) rfl
  | assign docText signature name =>
    refine .after rfl (ensures_expectSymbol t.isShallow_unexpected _) fun _ hassign => ?_
    exact .pure rfl (by rw [hassign]; rfl) rfl
  | value docText signature name =>
    refine .after rfl (ensures_expectLiteral t.isShallow_unexpected) fun _ hliteral => ?_
    exact .pure rfl (isAngle_of_isLiteral hliteral) rfl

/-- The type that is being read. -/
def TypedefReader.State.openType : TypedefReader.State → TypeReader.State
  | .type _ inner => inner
  | .name _ _ => TypeReader.start

theorem TypedefReader.typeUse_read (state : State) (t : SpannedToken) :
    TypeUse state.openType t (Step.openType State.openType) fun limit => read limit state t := by
  cases state with
  | type docText type =>
    exact (TypeReader.typeUse_read type t).bind fun step => by
      cases step <;> exact ⟨_, rfl, rfl⟩
  | name docText signature =>
    refine .after rfl (ensures_expectIdentifier t.isShallow_unexpected) fun name hname => ?_
    exact .pure rfl (by rw [hname]; rfl) rfl

namespace EnumReader

variable {t : SpannedToken}

theorem ensures_readMember_isShallow (enum : Enum) :
    Ensures (fun _ => t.token.isAngle = false) ParseError.IsShallow (readMember enum t) := by
  unfold readMember
  split
  · next name htoken =>
    change t.token.isAngle = false
    rw [htoken]
    rfl
  · refine .bind (ensures_expectSymbol t.isShallow_unexpected _) fun _ hbrace => ?_
    change t.token.isAngle = false
    rw [hbrace]
    rfl

theorem ensures_readSeparator_isShallow (enum : Enum) :
    Ensures (fun _ => t.token.isAngle = false) ParseError.IsShallow (readSeparator enum t) := by
  unfold readSeparator
  split
  · next hseparator => exact isAngle_of_isSeparator hseparator
  · exact ensures_readMember_isShallow enum

/-- No type stands in an enum. -/
theorem ensures_read_isShallow (state : State) :
    Ensures (fun _ => t.token.isAngle = false) ParseError.IsShallow (read state t) := by
  cases state with
  | opening enum =>
    refine .bind (ensures_expectSymbol t.isShallow_unexpected _) fun _ hbrace => ?_
    change t.token.isAngle = false
    rw [hbrace]
    rfl
  | member enum => exact ensures_readMember_isShallow enum
  | afterName enum name span =>
    simp only [read]
    split
    · next hassign =>
      change t.token.isAngle = false
      rw [hassign]
      rfl
    · exact .bind (ensures_implicitNumber_isShallow _ _) fun value _ =>
        ensures_readSeparator_isShallow _
  | value enum name =>
    exact .bind (ensures_explicitNumber_isShallow _ _ t) fun value hangle => hangle
  | separator enum => exact ensures_readSeparator_isShallow enum

end EnumReader

/-! ### Lists of fields, structs and services -/

/-- The type that is being read. -/
def FieldListReader.State.openType (state : FieldListReader.State) : TypeReader.State :=
  match state.phase with
  | .type _ type => type
  | _ => TypeReader.start

namespace FieldListReader

variable {t : SpannedToken} (fields : List Field)

theorem typeUse_readType (head : Head) (type : TypeReader.State) :
    TypeUse type t (Step.openType State.openType) fun limit =>
      readType limit fields head type t :=
  (TypeReader.typeUse_read type t).bind fun step => by cases step <;> exact ⟨_, rfl, rfl⟩

theorem typeUse_readModifier (index : Int32) (docText : String) :
    TypeUse TypeReader.start t (Step.openType State.openType) fun limit =>
      readModifier limit fields index docText t := by
  unfold readModifier
  split
  · next hrequired => exact .pure rfl (by rw [hrequired]; rfl) rfl
  · next hoptional => exact .pure rfl (by rw [hoptional]; rfl) rfl
  · exact typeUse_readType fields _ _

variable (closer : Symbol)

theorem typeUse_readStart :
    Reading.TypeUse TypeReader.start t (Step.openType State.openType) fun limit =>
      readStart limit closer fields t := by
  unfold readStart
  split
  · next hbrace =>
    refine .after rfl (ensures_expectSymbol t.isShallow_unexpected _) fun _ _ => ?_
    exact .pure rfl (by rw [hbrace]; rfl) rfl
  · next hparen =>
    refine .after rfl (ensures_expectSymbol t.isShallow_unexpected _) fun _ _ => ?_
    exact .pure rfl (by rw [hparen]; rfl) rfl
  · next number hnumber => exact .pure rfl (by rw [hnumber]; rfl) rfl
  · refine .after rfl (ensures_implicitNumber_isShallow _ _) fun index _ => ?_
    exact .takeDoc fun docText => .lift (typeUse_readModifier fields index docText)

theorem typeUse_readSeparator :
    Reading.TypeUse TypeReader.start t (Step.openType State.openType) fun limit =>
      readSeparator limit closer fields t :=
  .ite (fun hseparator => .pure rfl (isAngle_of_isSeparator hseparator) rfl)
    fun _ => typeUse_readStart fields closer

theorem typeUse_read (state : State) :
    Reading.TypeUse state.openType t (Step.openType State.openType) fun limit =>
      read limit closer state t := by
  obtain ⟨fields, phase⟩ := state
  cases phase with
  | start => exact typeUse_readStart fields closer
  | colon number =>
    refine .after rfl (ensures_expectSymbol t.isShallow_unexpected _) fun _ hcolon => ?_
    refine .after rfl (ensures_explicitNumber_isShallow _ _ number) fun index _ => ?_
    exact .takeDoc fun docText => .pure rfl (by rw [hcolon]; rfl) rfl
  | modifier index docText => exact .lift (typeUse_readModifier fields index docText)
  | type head type => exact .lift (typeUse_readType fields head type)
  | name head signature =>
    refine .after rfl (ensures_expectIdentifier t.isShallow_unexpected) fun name hname => ?_
    exact .pure rfl (by rw [hname]; rfl) rfl
  | afterName field =>
    exact .ite (fun hassign => .pure rfl (by rw [hassign]; rfl) rfl)
      fun _ => typeUse_readSeparator _ closer
  | value field =>
    refine .after rfl (ensures_expectLiteral t.isShallow_unexpected) fun text hliteral => ?_
    exact .pure rfl (isAngle_of_isLiteral hliteral) rfl
  | separator field => exact typeUse_readSeparator _ closer

end FieldListReader

/-- The type that is being read. -/
def StructReader.State.openType : StructReader.State → TypeReader.State
  | .opening _ _ => TypeReader.start
  | .fields _ _ list => list.openType

theorem StructReader.typeUse_read (state : State) (t : SpannedToken) :
    Reading.TypeUse state.openType t (Step.openType State.openType) fun limit =>
      read limit state t := by
  cases state with
  | opening name docText =>
    refine .after rfl (ensures_expectSymbol t.isShallow_unexpected _) fun _ hbrace => ?_
    exact .pure rfl (by rw [hbrace]; rfl) rfl
  | fields name docText list =>
    exact (FieldListReader.typeUse_read .rightBrace list).bind fun step pending => by
      cases step <;> exact ⟨_, rfl, rfl⟩

/-- The type that is being read. -/
def ServiceReader.State.openType (state : ServiceReader.State) : TypeReader.State :=
  match state.phase with
  | .resultType _ type => type
  | .arguments _ fields | .throws _ fields => fields.openType
  | _ => TypeReader.start

namespace ServiceReader

variable {t : SpannedToken} (service : Service)

theorem typeUse_readOpening :
    TypeUse TypeReader.start t (Step.openType State.openType) fun _ => readOpening service t := by
  refine .after rfl (ensures_expectSymbol t.isShallow_unexpected _) fun _ hbrace => ?_
  exact .pure rfl (by rw [hbrace]; rfl) rfl

theorem typeUse_readResultType (head : Head) (type : TypeReader.State) :
    TypeUse type t (Step.openType State.openType) fun limit =>
      readResultType limit service head type t :=
  (TypeReader.typeUse_read type t).bind fun step => by cases step <;> exact ⟨_, rfl, rfl⟩

theorem typeUse_readResult (head : Head) :
    TypeUse TypeReader.start t (Step.openType State.openType) fun limit =>
      readResult limit service head t :=
  .ite (fun hvoid => .pure rfl (by rw [hvoid]; rfl) rfl)
    fun _ => typeUse_readResultType service head _

theorem typeUse_readFunction :
    Reading.TypeUse TypeReader.start t (Step.openType State.openType) fun limit =>
      readFunction limit service t := by
  refine .ite (fun hbrace => .pure rfl (by rw [hbrace]; rfl) rfl) fun _ => .takeDoc fun docText => ?_
  exact .ite (fun honeway => .pure rfl (by rw [honeway]; rfl) rfl)
    fun _ => .lift (typeUse_readResult service _)

theorem typeUse_readSeparator :
    Reading.TypeUse TypeReader.start t (Step.openType State.openType) fun limit =>
      readSeparator limit service t :=
  .ite (fun hseparator => .pure rfl (isAngle_of_isSeparator hseparator) rfl)
    fun _ => typeUse_readFunction service

theorem typeUse_read (state : State) :
    Reading.TypeUse state.openType t (Step.openType State.openType) fun limit =>
      read limit state t := by
  obtain ⟨service, phase⟩ := state
  cases phase with
  | afterName =>
    exact .ite (fun hextends => .pure rfl (by rw [hextends]; rfl) rfl)
      fun _ => .lift (typeUse_readOpening service)
  | parent =>
    refine .after rfl (ensures_expectIdentifier t.isShallow_unexpected) fun name hname => ?_
    exact .pure rfl (by rw [hname]; rfl) rfl
  | opening => exact .lift (typeUse_readOpening service)
  | function => exact typeUse_readFunction service
  | result head => exact .lift (typeUse_readResult service head)
  | resultType head type => exact .lift (typeUse_readResultType service head type)
  | name head returnType =>
    refine .after rfl (ensures_expectIdentifier t.isShallow_unexpected) fun name hname => ?_
    exact .pure rfl (by rw [hname]; rfl) rfl
  | openArguments function =>
    refine .after rfl (ensures_expectSymbol t.isShallow_unexpected _) fun _ hparen => ?_
    exact .pure rfl (by rw [hparen]; rfl) rfl
  | arguments function list =>
    exact (FieldListReader.typeUse_read .rightParen list).bind fun step pending => by
      cases step <;> exact ⟨_, rfl, rfl⟩
  | afterArguments function =>
    exact .ite (fun hthrows => .pure rfl (by rw [hthrows]; rfl) rfl)
      fun _ => .clearDoc (typeUse_readSeparator _)
  | openThrows function =>
    refine .after rfl (ensures_expectSymbol t.isShallow_unexpected _) fun _ hparen => ?_
    exact .pure rfl (by rw [hparen]; rfl) rfl
  | throws function list =>
    exact (FieldListReader.typeUse_read .rightParen list).bind fun step pending => by
      cases step <;> exact ⟨_, rfl, rfl⟩
  | separator => exact typeUse_readSeparator service

end ServiceReader

/-! ### Documents -/

/-- The type that is being read. -/
def DocumentReader.State.openType (state : DocumentReader.State) : TypeReader.State :=
  match state.phase with
  | .constant state => state.openType
  | .typedef state => state.openType
  | .struct state | .exception state => state.openType
  | .service state => state.openType
  | _ => TypeReader.start

namespace DocumentReader

variable {t : SpannedToken} (document : Document)

theorem typeUse_readDefinition :
    Reading.TypeUse TypeReader.start t State.openType fun _ => readDefinition document t := by
  unfold readDefinition
  split
  case h_8 => exact .throw rfl (t.isShallow_unexpected _)
  case h_1 hkeyword | h_2 hkeyword =>
    exact .takeDoc fun docText => .pure rfl (by rw [hkeyword]; rfl) rfl
  all_goals
    next htoken => exact .pure rfl (by rw [htoken]; rfl) rfl

theorem typeUse_readHeader :
    Reading.TypeUse TypeReader.start t State.openType fun _ => readHeader document t := by
  unfold readHeader
  split
  · next hkeyword => exact .takeDoc fun docText => .pure rfl (by rw [hkeyword]; rfl) rfl
  · next hkeyword => exact .takeDoc fun docText => .pure rfl (by rw [hkeyword]; rfl) rfl
  · exact typeUse_readDefinition document

theorem typeUse_continueWith {σ α : Type} {type : TypeReader.State} {phase : σ → Phase}
    {add : α → Document} {openType : σ → TypeReader.State}
    (hphase : ∀ state, State.openType ⟨document, phase state⟩ = openType state)
    {reading : Nat → Reading (Step σ α)}
    (h : Reading.TypeUse type t (Step.openType openType) reading) :
    Reading.TypeUse type t State.openType fun limit =>
      reading limit >>= continueWith document phase add :=
  h.bind fun step pending => by
    cases step with
    | more state => exact ⟨_, rfl, hphase state⟩
    | done result => exact ⟨_, rfl, rfl⟩

/-- A token is read as a part of the type that is being read, or it stands outside all types. -/
theorem typeUse_read (state : State) :
    Reading.TypeUse state.openType t State.openType fun limit => read limit state t := by
  obtain ⟨document, phase⟩ := state
  cases phase with
  | header => exact typeUse_readHeader document
  | namespaceScope =>
    simp only [read]
    split
    · next htoken => exact .pure rfl (by rw [htoken]; rfl) rfl
    · next htoken => exact .pure rfl (by rw [htoken]; rfl) rfl
    · exact .throw rfl (t.isShallow_unexpected _)
  | namespaceName scope =>
    refine .after rfl (ensures_expectIdentifier t.isShallow_unexpected) fun name hname => ?_
    exact .pure rfl (by rw [hname]; rfl) rfl
  | includePath =>
    simp only [read]
    split
    · next htoken => exact .pure rfl (by rw [htoken]; rfl) rfl
    · exact .throw rfl (t.isShallow_unexpected _)
  | definitions => exact typeUse_readDefinition document
  | constant state =>
    exact typeUse_continueWith document (fun _ => rfl) (.lift (ConstantReader.typeUse_read state t))
  | typedef state =>
    exact typeUse_continueWith document (fun _ => rfl) (.lift (TypedefReader.typeUse_read state t))
  | name kind =>
    refine .after rfl (ensures_expectIdentifier t.isShallow_unexpected) fun name hname => ?_
    refine .takeDoc fun docText => .pure rfl (by rw [hname]; rfl) ?_
    cases kind <;> rfl
  | enum state =>
    refine .after rfl (EnumReader.ensures_read_isShallow state) fun step hangle => ?_
    cases step with
    | more state => exact .pure rfl hangle rfl
    | done enum => exact .clearDoc (.pure rfl hangle rfl)
  | struct state | exception state =>
    exact typeUse_continueWith document (fun _ => rfl) (StructReader.typeUse_read state t)
  | service state =>
    exact typeUse_continueWith document (fun _ => rfl) (ServiceReader.typeUse_read state)

end DocumentReader

end ServiceIdl
