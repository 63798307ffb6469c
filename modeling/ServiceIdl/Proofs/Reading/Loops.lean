import ServiceIdl.Proofs.Parsing.Outcomes

/-!
# Loops of readers

Header statements, definitions, the members of an enum, fields and functions are read in loops. At
the head of a loop nothing of a further entry has been read. Behind some entries the loop gets there
only when the next token is in sight, because it may still be a part of the entry: a separator, a
default value or a throws list. From the head of a loop each token that is consumed leads into an
entry or out of the loop.
-/

namespace ServiceIdl

/-- The loops in which a document is read. -/
inductive Loop where
  /-- Namespaces and includes. -/
  | header
  | definitions
  /-- The members of an enum. -/
  | members
  /-- The fields of a struct or an exception, arguments or exceptions of a function. -/
  | fields
  /-- The functions of a service. -/
  | functions
  deriving DecidableEq

variable {limit : Nat} {t : SpannedToken} {loop : Loop}

/-! ### Lists of fields -/

namespace FieldListReader

/-- A field is complete when a token is in sight that is no part of it. -/
def State.settle (state : State) (t : SpannedToken) : State :=
  match state.phase with
  | .afterName field =>
    if t.token = .symbol .assign ∨ t.isSeparator then state
    else ⟨state.fields ++ [field], .start⟩
  | .separator field => if t.isSeparator then state else ⟨state.fields ++ [field], .start⟩
  | _ => state

def State.head? (state : State) : Option Loop :=
  match state.phase with
  | .start => some .fields
  | _ => none

variable (closer : Symbol)

theorem read_settle (state : State) :
    read limit closer (state.settle t) t = read limit closer state t := by
  obtain ⟨fields, phase⟩ := state
  cases phase with
  | afterName field =>
    by_cases hassign : t.token = .symbol .assign
    · simp [State.settle, hassign]
    · by_cases hseparator : t.isSeparator = true
      · simp [State.settle, hseparator]
      · simp [State.settle, read, readSeparator, hassign, hseparator]
  | separator field =>
    by_cases hseparator : t.isSeparator = true
    · simp [State.settle, hseparator]
    · simp [State.settle, read, readSeparator, hseparator]
  | _ => rfl

theorem ensures_readType_head? (fields : List Field) (head : Head) (type : TypeReader.State) :
    Ensures (Step.GoesOnIn fun next => next.head? = none) (fun _ => True)
      (readType limit fields head type t) := by
  refine .bind (TypeReader.ensures_read (fun _ => trivial) (fun _ => trivial) type) fun step _ => ?_
  cases step <;> rfl

theorem ensures_readModifier_head? (fields : List Field) (index : Int32) (docText : String) :
    Ensures (Step.GoesOnIn fun next => next.head? = none) (fun _ => True)
      (readModifier limit fields index docText t) := by
  unfold readModifier
  split
  · rfl
  · rfl
  · exact ensures_readType_head? fields _ _

/-- The first token of a field leads into the field, and the closing bracket out of the loop. -/
theorem ensures_readStart_head? (fields : List Field) :
    (readStart limit closer fields t).Ensures (Step.GoesOnIn fun next => next.head? = none)
      fun _ => True := by
  have hclose : (do t.expectSymbol closer; return .done fields : Reading (Step State _)).Ensures
      (Step.GoesOnIn fun next => next.head? = none) fun _ => True :=
    .bind (.lift (ensures_expectSymbol (fun _ => trivial) _)) fun _ _ => .pure trivial
  have hnumber : Ensures (fun _ => True) (fun _ => True)
      (implicitNumber (expectedIndex fields) t.span) := by
    cases implicitNumber (expectedIndex fields) t.span <;> trivial
  unfold readStart
  split
  · exact hclose
  · exact hclose
  · exact .pure rfl
  · exact .bind (.lift hnumber) fun index _ => .bind .takeDoc fun docText _ =>
      .lift (ensures_readModifier_head? fields index docText)

theorem State.eq_of_head? {state : State} (h : state.head? = some loop) : loop = .fields := by
  obtain ⟨fields, phase⟩ := state
  cases phase <;> cases h
  rfl

theorem ensures_read_leavesHead {state : State} (h : state.head? = some loop) :
    (read limit closer state t).Ensures (Step.GoesOnIn fun next => next.head? = none)
      fun _ => True := by
  obtain ⟨fields, phase⟩ := state
  cases phase with
  | start => exact ensures_readStart_head? closer fields
  | _ => cases h

end FieldListReader

/-! ### Enums and structs -/

namespace EnumReader

/-- A member is complete when a token is in sight that is no part of it. A member without a number
gets one then, unless there is none. -/
def State.settle (state : State) (t : SpannedToken) : State :=
  match state with
  | .afterName enum name _ =>
    if t.token = .symbol .assign ∨ t.isSeparator then state
    else match int32? (expectedValue enum) with
      | some number => .member (enum.insert name number)
      | none => state
  | .separator enum => if t.isSeparator then state else .member enum
  | _ => state

def State.head? : State → Option Loop
  | .member _ => some .members
  | _ => none

theorem read_settle (state : State) : read (state.settle t) t = read state t := by
  cases state with
  | afterName enum name span =>
    by_cases hassign : t.token = .symbol .assign
    · simp [State.settle, hassign]
    · by_cases hseparator : t.isSeparator = true
      · simp [State.settle, hseparator]
      · cases hvalue : int32? (expectedValue enum) with
        | none => simp [State.settle, hassign, hseparator, hvalue]
        | some value =>
          simp only [State.settle, read, implicitNumber, readSeparator, hassign, hseparator, hvalue]
          rfl
  | separator enum =>
    by_cases hseparator : t.isSeparator = true
    · simp [State.settle, hseparator]
    · simp [State.settle, read, readSeparator, hseparator]
  | _ => rfl

theorem State.eq_of_head? {state : State} (h : state.head? = some loop) : loop = .members := by
  cases state <;> cases h
  rfl

/-- The name of a member leads into the member, and the closing brace out of the loop. -/
theorem ensures_read_leavesHead {state : State} (h : state.head? = some loop) :
    Ensures (Step.GoesOnIn fun next => next.head? = none) (fun _ => True) (read state t) := by
  cases state with
  | member enum =>
    simp only [read, readMember]
    split
    · rfl
    · exact .bind (ensures_expectSymbol (fun _ => trivial) _) fun _ _ => trivial
  | _ => cases h

/-- The closing brace behind the name of a member is in sight at the head of the loop. -/
example : ((State.afterName ⟨"E", [], ""⟩ "A" ⟨⟨1, 8, 7⟩, 8⟩).settle
    ⟨.symbol .rightBrace, ⟨⟨1, 9, 8⟩, 9⟩⟩).head? = some .members := by decide

end EnumReader

namespace StructReader

def State.settle (state : State) (t : SpannedToken) : State :=
  match state with
  | .opening _ _ => state
  | .fields name docText list => .fields name docText (list.settle t)

def State.head? : State → Option Loop
  | .opening _ _ => none
  | .fields _ _ list => list.head?

theorem read_settle (state : State) : read limit (state.settle t) t = read limit state t := by
  cases state with
  | opening name docText => rfl
  | fields name docText list =>
    simp only [State.settle, read]
    rw [FieldListReader.read_settle]

theorem State.eq_of_head? {state : State} (h : state.head? = some loop) : loop = .fields := by
  cases state with
  | opening name docText => cases h
  | fields name docText list => exact FieldListReader.State.eq_of_head? h

theorem ensures_read_leavesHead {state : State} (h : state.head? = some loop) :
    (read limit state t).Ensures (Step.GoesOnIn fun next => next.head? = none) fun _ => True := by
  cases state with
  | opening name docText => cases h
  | fields name docText list =>
    refine .bind (FieldListReader.ensures_read_leavesHead .rightBrace h) fun step hstep => ?_
    cases step with
    | more list => exact .pure hstep
    | done fields => exact .pure trivial

end StructReader

/-! ### Services -/

namespace ServiceReader

/-- A function without a throws list is complete when a token is in sight that is no part of it. -/
def State.settle (state : State) (t : SpannedToken) : State :=
  match state.phase with
  | .arguments function list => ⟨state.service, .arguments function (list.settle t)⟩
  | .afterArguments function =>
    if t.token = .keyword .throwsClause ∨ t.isSeparator then state
    else ⟨addFunction state.service function, .function⟩
  | .throws function list => ⟨state.service, .throws function (list.settle t)⟩
  | .separator => if t.isSeparator then state else ⟨state.service, .function⟩
  | _ => state

def State.head? (state : State) : Option Loop :=
  match state.phase with
  | .function => some .functions
  | .arguments _ list | .throws _ list => list.head?
  | _ => none

/-- Doc text that is pending behind the arguments is cleared before the function is complete. -/
theorem exists_run_read_settle (state : State) (t : SpannedToken) (pending : String) :
    ∃ pending',
      (read limit (state.settle t) t).run pending' = (read limit state t).run pending := by
  obtain ⟨service, phase⟩ := state
  cases phase with
  | arguments function list | throws function list =>
    refine ⟨pending, ?_⟩
    simp only [State.settle, read]
    rw [FieldListReader.read_settle]
  | afterArguments function =>
    by_cases hthrows : t.token = .keyword .throwsClause
    · exact ⟨pending, by simp [State.settle, hthrows]⟩
    · by_cases hseparator : t.isSeparator = true
      · exact ⟨pending, by simp [State.settle, hseparator]⟩
      · refine ⟨"", ?_⟩
        simp only [State.settle, read, readSeparator, hthrows, hseparator]
        rfl
  | separator =>
    refine ⟨pending, ?_⟩
    by_cases hseparator : t.isSeparator = true
    · simp [State.settle, hseparator]
    · simp [State.settle, read, readSeparator, hseparator]
  | _ => exact ⟨pending, rfl⟩

theorem State.ne_definitions_of_head? {state : State} (h : state.head? = some loop) :
    loop ≠ .definitions := by
  obtain ⟨service, phase⟩ := state
  cases phase with
  | function =>
    cases h
    simp
  | arguments function list | throws function list =>
    simp [FieldListReader.State.eq_of_head? h]
  | _ => cases h

theorem ensures_readResultType_head? (service : Service) (head : Head) (type : TypeReader.State) :
    Ensures (Step.GoesOnIn fun next => next.head? = none) (fun _ => True)
      (readResultType limit service head type t) := by
  refine .bind (TypeReader.ensures_read (fun _ => trivial) (fun _ => trivial) type) fun step _ => ?_
  cases step <;> rfl

/-- The first token of a function leads into the function, and the closing brace out of the loop. -/
theorem ensures_readFunction_head? (service : Service) :
    (readFunction limit service t).Ensures (Step.GoesOnIn fun next => next.head? = none)
      fun _ => True := by
  refine .ite (.pure trivial) (.bind .takeDoc fun docText _ => .ite (.pure rfl) (.lift ?_))
  exact .ite rfl (ensures_readResultType_head? service _ _)

theorem ensures_read_leavesHead {state : State} (h : state.head? = some loop) :
    (read limit state t).Ensures (Step.GoesOnIn fun next => next.head? = none) fun _ => True := by
  obtain ⟨service, phase⟩ := state
  cases phase with
  | function => exact ensures_readFunction_head? service
  | arguments function list =>
    refine .bind (FieldListReader.ensures_read_leavesHead .rightParen h) fun step hstep => ?_
    cases step with
    | more list => exact .pure hstep
    | done fields => exact .pure rfl
  | throws function list =>
    refine .bind (FieldListReader.ensures_read_leavesHead .rightParen h) fun step hstep => ?_
    cases step with
    | more list => exact .pure hstep
    | done throws => exact .bind .clearDoc fun _ _ => .pure rfl
  | _ => cases h

end ServiceReader

/-! ### Documents -/

namespace DocumentReader

/-- The header is complete when a token is in sight that starts no header statement. -/
def State.settle (state : State) (t : SpannedToken) : State :=
  match state.phase with
  | .header =>
    if t.token = .keyword .namespaceHeader ∨ t.token = .keyword .includeHeader then state
    else ⟨state.document, .definitions⟩
  | .enum enum => ⟨state.document, .enum (enum.settle t)⟩
  | .struct struct => ⟨state.document, .struct (struct.settle t)⟩
  | .exception struct => ⟨state.document, .exception (struct.settle t)⟩
  | .service service => ⟨state.document, .service (service.settle t)⟩
  | _ => state

/-- The loop that is at its head. -/
def State.head? (state : State) : Option Loop :=
  match state.phase with
  | .header => some .header
  | .definitions => some .definitions
  | .enum enum => enum.head?
  | .struct struct | .exception struct => struct.head?
  | .service service => service.head?
  | _ => none

/-- A token is read in the state that it settles. The pending doc text is the same, or it is cleared
with the end of a function. -/
theorem exists_run_read_settle (limit : Nat) (state : State) (t : SpannedToken) (pending : String) :
    ∃ pending',
      (read limit (state.settle t) t).run pending' = (read limit state t).run pending := by
  obtain ⟨document, phase⟩ := state
  cases phase with
  | header =>
    refine ⟨pending, ?_⟩
    simp only [State.settle]
    split
    · rfl
    · next hheader =>
      simp only [read, readHeader]
      split
      · next hnamespace => exact absurd (.inl hnamespace) hheader
      · next hinclude => exact absurd (.inr hinclude) hheader
      · rfl
  | enum state =>
    refine ⟨pending, ?_⟩
    simp only [State.settle, read]
    rw [EnumReader.read_settle]
  | struct state | exception state =>
    refine ⟨pending, ?_⟩
    simp only [State.settle, read]
    rw [StructReader.read_settle]
  | service state =>
    obtain ⟨pending', hread⟩ := ServiceReader.exists_run_read_settle state t pending
    refine ⟨pending', ?_⟩
    simp only [State.settle, read, StateT.run_bind]
    rw [hread]
  | _ => exact ⟨pending, rfl⟩

variable (document : Document)

/-- A keyword of a definition leads into the definition. -/
theorem ensures_readDefinition_head? (hend : t.token ≠ .endOfInput) :
    (readDefinition document t).Ensures (fun next => next.head? = none) fun _ => True := by
  unfold readDefinition
  split
  case h_7 h => exact absurd h hend
  case h_8 => exact .throw trivial
  case h_1 | h_2 => exact .bind .takeDoc fun _ _ => .pure rfl
  all_goals exact .pure rfl

/-- At the head of a loop every token but the end of the input leads into an entry or out of the
loop. -/
theorem ensures_read_leavesHead {state : State} (h : state.head? = some loop)
    (hend : t.token ≠ .endOfInput) :
    (read limit state t).Ensures (fun next => next.head? ≠ some loop) fun _ => True := by
  obtain ⟨document, phase⟩ := state
  cases phase with
  | header =>
    cases h
    simp only [read, readHeader]
    split
    · exact .bind (ensures_takeDocumentDoc document) fun _ _ => .pure (by simp [State.head?])
    · exact .bind (ensures_takeDocumentDoc document) fun _ _ => .pure (by simp [State.head?])
    · exact (ensures_readDefinition_head? document hend).mono fun next hnext => by simp [hnext]
  | definitions =>
    exact (ensures_readDefinition_head? document hend).mono fun next hnext => by simp [hnext]
  | enum state =>
    have hloop : loop ≠ .definitions := by simp [EnumReader.State.eq_of_head? h]
    refine .bind (.lift (EnumReader.ensures_read_leavesHead h)) ?_
    exact ensures_continueWith document (fun next hnext => by simp [State.head?, hnext])
      fun _ => by simp [State.head?, hloop.symm]
  | struct state | exception state =>
    have hloop : loop ≠ .definitions := by simp [StructReader.State.eq_of_head? h]
    refine .bind (StructReader.ensures_read_leavesHead h) ?_
    exact ensures_continueWith document (fun next hnext => by simp [State.head?, hnext])
      fun _ => by simp [State.head?, hloop.symm]
  | service state =>
    have hloop := ServiceReader.State.ne_definitions_of_head? h
    refine .bind (ServiceReader.ensures_read_leavesHead h) ?_
    exact ensures_continueWith document (fun next hnext => by simp [State.head?, hnext])
      fun _ => by simp [State.head?, hloop.symm]
  | _ => cases h

end DocumentReader

end ServiceIdl
