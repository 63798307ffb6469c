import ServiceIdl.Proofs.Grammar.Completion
import ServiceIdl.Proofs.Parsing.Outcomes

/-!
# Misplaced tokens

A reader that finds a token out of place names the token that it was given, at the place of that
token. At such a moment no number is left open: a number that turns out to be no index, and a
number that is missing in an enum, are other complaints.
-/

namespace ServiceIdl

/-- A token is out of place, but is neither missing behind a number as its colon, nor missing
itself as a number of an enum. -/
def ParseError.IsMisplaced (e : ParseError) : Prop :=
  ∃ expected found, e.fault = .unexpectedToken expected found ∧
    expected ≠ "':'" ∧ expected ≠ "integer"

variable {α β : Type} {t : SpannedToken} {P : Prop}

/-- If the outcome is that a token is out of place, then it is the token `t`, and `P` holds. -/
def Blames (t : SpannedToken) (P : Prop) (outcome : Except ParseError α) : Prop :=
  ∀ e, outcome = .error e → e.IsMisplaced → (∃ expected, e = t.unexpected expected) ∧ P

/-- Whatever doc text is pending, only the token `t` can be found out of place. -/
def Reading.Blames (t : SpannedToken) (P : Prop) (reading : Reading α) : Prop :=
  ∀ pending, ServiceIdl.Blames t P (reading.run pending)

namespace Blames

theorem ok {a : α} : Blames t P (.ok a) := by
  intro e h
  cases h

/-- A complaint of another kind. -/
theorem error {e : ParseError} (h : ¬e.IsMisplaced) :
    Blames t P (.error e : Except ParseError α) := by
  intro e' he hmisplaced
  cases he
  exact absurd hmisplaced h

theorem bind {first : Except ParseError α} {next : α → Except ParseError β}
    (h : Blames t P first) (hnext : ∀ a, first = .ok a → Blames t P (next a)) :
    Blames t P (first >>= next) := by
  cases first with
  | error e =>
    intro e' he
    cases he
    exact h e rfl
  | ok a => exact hnext a rfl

theorem ite {p : Prop} [Decidable p] {first second : Except ParseError α}
    (hfirst : Blames t P first) (hsecond : Blames t P second) :
    Blames t P (if p then first else second) := by
  split
  · exact hfirst
  · exact hsecond

end Blames

namespace Reading.Blames

theorem pure {a : α} : Reading.Blames t P (Pure.pure a) :=
  fun _ => .ok

theorem bind {first : Reading α} {next : α → Reading β} (h : first.Blames t P)
    (hnext : ∀ a, (next a).Blames t P) : (first >>= next).Blames t P := by
  intro pending
  rw [StateT.run_bind]
  exact .bind (h pending) fun result _ => hnext result.1 result.2

theorem lift {first : Except ParseError α} (h : ServiceIdl.Blames t P first) :
    Reading.Blames t P (liftM first) := by
  intro pending
  exact .bind h fun _ _ => .ok

theorem ite {p : Prop} [Decidable p] {first second : Reading α}
    (hfirst : first.Blames t P) (hsecond : second.Blames t P) :
    Reading.Blames t P (if p then first else second) := by
  split
  · exact hfirst
  · exact hsecond

theorem takeDoc : Reading.Blames t P takeDoc :=
  fun _ => .ok

theorem clearDoc : Reading.Blames t P clearDoc :=
  fun _ => .ok

end Reading.Blames

/-! ### Demands -/

/-- A reader blames no other token if all its errors do. -/
theorem blames_of_ensures {Q : α → Prop} {outcome : Except ParseError α}
    (h : Ensures Q (fun e => e.IsMisplaced → (∃ expected, e = t.unexpected expected) ∧ P)
      outcome) : Blames t P outcome := by
  rintro e rfl
  exact h

theorem Reading.blames_of_ensures {Q : α → Prop} {reading : Reading α}
    (h : reading.Ensures Q fun e => e.IsMisplaced → (∃ expected, e = t.unexpected expected) ∧ P) :
    reading.Blames t P :=
  fun pending => ServiceIdl.blames_of_ensures (h pending)

theorem SpannedToken.blamed_of_unexpected (hP : P) (expected : String) :
    (t.unexpected expected).IsMisplaced →
      (∃ expected', t.unexpected expected = t.unexpected expected') ∧ P :=
  fun _ => ⟨⟨expected, rfl⟩, hP⟩

theorem blames_expectSymbol (s : Symbol) (hP : P) : Blames t P (t.expectSymbol s) :=
  blames_of_ensures (ensures_expectSymbol (t.blamed_of_unexpected hP) s)

theorem blames_expectIdentifier (hP : P) : Blames t P t.expectIdentifier :=
  blames_of_ensures (ensures_expectIdentifier (t.blamed_of_unexpected hP))

theorem blames_expectLiteral (hP : P) : Blames t P t.expectLiteral :=
  blames_of_ensures (ensures_expectLiteral (t.blamed_of_unexpected hP))

/-- A missing colon shows that a number is no index. -/
theorem blames_expectColon : Blames t P (t.expectSymbol .colon) := by
  refine .ite .ok (.error ?_)
  rintro ⟨expected, found, hfault, hcolon, _⟩
  cases hfault
  exact hcolon rfl

theorem blames_explicitNumber (kind : IndexKind) (expected : Int) (number : SpannedToken) :
    Blames t P (explicitNumber kind expected number) := by
  unfold explicitNumber
  split
  · split
    · exact .error (by simp [ParseError.IsMisplaced])
    · exact .ite (.error (by simp [ParseError.IsMisplaced])) .ok
  · refine .error ?_
    rintro ⟨expected, found, hfault, _, hinteger⟩
    cases hfault
    exact hinteger rfl

theorem blames_implicitNumber (expected : Int) (span : Span) :
    Blames t P (implicitNumber expected span) := by
  unfold implicitNumber
  split
  · exact .ok
  · exact .error (by simp [ParseError.IsMisplaced])

/-! ### Types -/

/-- A container too many is a complaint of another kind. -/
theorem SpannedToken.blamed_of_typeTooDeep (t : SpannedToken) (limit : Nat) :
    (ParseError.mk (.typeTooDeep limit) t.span).IsMisplaced →
      (∃ expected, ⟨.typeTooDeep limit, t.span⟩ = t.unexpected expected) ∧ P := by
  simp [ParseError.IsMisplaced]

theorem TypeReader.blames_read (limit : Nat) (state : State) (hP : P) :
    Blames t P (read limit state t) :=
  blames_of_ensures
    (ensures_read (t.blamed_of_unexpected hP) (fun _ => t.blamed_of_typeTooDeep limit) state)

/-! ### Enums -/

namespace EnumReader

theorem blames_readMember (enum : Enum) (hP : P) : Blames t P (readMember enum t) := by
  unfold readMember
  split
  · exact .ok
  · exact .bind (blames_expectSymbol _ hP) fun _ _ => .ok

theorem blames_readSeparator (enum : Enum) (hP : P) : Blames t P (readSeparator enum t) :=
  .ite .ok (blames_readMember enum hP)

theorem blames_read (state : State) : Blames t (state.isNumbered = true) (read state t) := by
  cases state with
  | opening enum => exact .bind (blames_expectSymbol _ rfl) fun _ _ => .ok
  | member enum => exact blames_readMember enum rfl
  | afterName enum name span =>
    -- The token is looked at only when the member has got its number.
    refine .ite .ok (.bind (blames_implicitNumber _ _) fun value hvalue => ?_)
    refine blames_readSeparator _ ?_
    unfold implicitNumber at hvalue
    split at hvalue
    · next hint => exact Option.isSome_iff_exists.2 ⟨_, hint⟩
    · cases hvalue
  | value enum name => exact .bind (blames_explicitNumber _ _ _) fun _ _ => .ok
  | separator enum => exact blames_readSeparator enum rfl

end EnumReader

/-! ### Fields and what consists of them -/

namespace FieldListReader

variable (limit : Nat) (closer : Symbol) (fields : List Field)

theorem blames_readType (head : Head) (type : TypeReader.State) (hP : P) :
    Blames t P (readType limit fields head type t) := by
  refine .bind (TypeReader.blames_read limit type hP) fun step _ => ?_
  cases step <;> exact .ok

theorem blames_readModifier (index : Int32) (docText : String) (hP : P) :
    Blames t P (readModifier limit fields index docText t) := by
  unfold readModifier
  split
  · exact .ok
  · exact .ok
  · exact blames_readType limit fields _ _ hP

theorem blames_readStart (hP : P) : (readStart limit closer fields t).Blames t P := by
  unfold readStart
  split
  · exact .bind (.lift (blames_expectSymbol closer hP)) fun _ => .pure
  · exact .bind (.lift (blames_expectSymbol closer hP)) fun _ => .pure
  · exact .pure
  · refine .bind (.lift (blames_implicitNumber _ _)) fun index => .bind .takeDoc fun docText => ?_
    exact .lift (blames_readModifier limit fields index docText hP)

theorem blames_readSeparator (hP : P) : (readSeparator limit closer fields t).Blames t P :=
  .ite .pure (blames_readStart limit closer fields hP)

theorem blames_read (state : State) :
    (read limit closer state t).Blames t (state.isIndexed = true) := by
  obtain ⟨fields, phase⟩ := state
  cases phase with
  | start => exact blames_readStart limit closer fields rfl
  | colon number =>
    refine .bind (.lift blames_expectColon) fun _ => ?_
    exact .bind (.lift (blames_explicitNumber _ _ _)) fun _ => .bind .takeDoc fun _ => .pure
  | modifier index docText => exact .lift (blames_readModifier limit fields index docText rfl)
  | type head type => exact .lift (blames_readType limit fields head type rfl)
  | name head signature => exact .bind (.lift (blames_expectIdentifier rfl)) fun _ => .pure
  | afterName field => exact .ite .pure (blames_readSeparator limit closer _ rfl)
  | value field => exact .bind (.lift (blames_expectLiteral rfl)) fun _ => .pure
  | separator field => exact blames_readSeparator limit closer _ rfl

end FieldListReader

theorem StructReader.blames_read (limit : Nat) (state : State) :
    (read limit state t).Blames t (state.isIndexed = true) := by
  cases state with
  | opening name docText => exact .bind (.lift (blames_expectSymbol _ rfl)) fun _ => .pure
  | fields name docText fields =>
    refine .bind (FieldListReader.blames_read limit .rightBrace fields) fun step => ?_
    cases step <;> exact .pure

theorem ServiceReader.blames_read (limit : Nat) (state : State) :
    (read limit state t).Blames t (state.isIndexed = true) := by
  obtain ⟨service, phase⟩ := state
  cases phase with
  | openArguments function | openThrows function =>
    exact .bind (.lift (blames_expectSymbol _ rfl)) fun _ => .pure
  | arguments function fields =>
    refine .bind (FieldListReader.blames_read limit .rightParen fields) fun step => ?_
    cases step <;> exact .pure
  | throws function fields =>
    refine .bind (FieldListReader.blames_read limit .rightParen fields) fun step => ?_
    cases step with
    | more fields => exact .pure
    | done throws => exact .bind .clearDoc fun _ => .pure
  | _ =>
    exact Reading.blames_of_ensures (ensures_read_of_isPlain (t.blamed_of_unexpected rfl)
      (fun _ => t.blamed_of_typeTooDeep limit) trivial)

/-! ### Documents -/

namespace DocumentReader

theorem blames_continueWith {σ α : Type} {phase : σ → Phase} {add : α → Document}
    (document : Document) (step : Step σ α) :
    (continueWith document phase add step).Blames t P := by
  cases step with
  | more state => exact .pure
  | done result => exact .bind .clearDoc fun _ => .pure

/-- A token that is out of place in a document is the one that was read, and no number was left
open before it. -/
theorem blames_read (limit : Nat) (state : State) :
    (read limit state t).Blames t (state.isNumbered = true) := by
  obtain ⟨document, phase⟩ := state
  cases phase with
  | name kind =>
    exact .bind (.lift (blames_expectIdentifier rfl)) fun _ => .bind .takeDoc fun _ => .pure
  | enum state =>
    exact .bind (.lift (EnumReader.blames_read state)) (blames_continueWith document)
  | struct state =>
    exact .bind (StructReader.blames_read limit state) (blames_continueWith document)
  | exception state =>
    exact .bind (StructReader.blames_read limit state) (blames_continueWith document)
  | service state =>
    exact .bind (ServiceReader.blames_read limit state) (blames_continueWith document)
  | _ =>
    exact Reading.blames_of_ensures (ensures_read_of_isPlain (t.blamed_of_unexpected rfl)
      (fun _ => t.blamed_of_typeTooDeep limit) trivial)

end DocumentReader

end ServiceIdl
