import ServiceIdl.Proofs.Numbering.Entries
import ServiceIdl.Proofs.Parsing.Outcomes

/-!
# The next number of an open list

While a list of fields or of members is read, its numbers ascend from one on. So the number
behind the last one is at least one, and it fits into 32 bits unless the last number is the
greatest of them; this is the only way in which an entry without a number can fail to get one.
-/

namespace ServiceIdl

/-! ### The number behind the last one -/

theorem ascendFrom_concat {least : Int} {numbers : List Int32} {number : Int32} :
    AscendFrom least (numbers ++ [number]) ↔
      AscendFrom least numbers ∧ numberBehind least numbers ≤ number.toInt := by
  induction numbers generalizing least with
  | nil =>
    rw [List.nil_append, ascendFrom_cons]
    exact ⟨fun h => ⟨ascendFrom_nil least, h.1⟩, fun h => ⟨h.2, ascendFrom_nil _⟩⟩
  | cons first numbers ih =>
    rw [List.cons_append, ascendFrom_cons, ascendFrom_cons, ih, numberBehind_cons, and_assoc]

theorem toInt_add_one_le (number : Int32) : number.toInt + 1 ≤ 2147483648 := by
  have := number.toInt_lt
  omega

theorem AscendFrom.numberBehind_bounds {numbers : List Int32} (h : AscendFrom 1 numbers) :
    1 ≤ numberBehind 1 numbers ∧ numberBehind 1 numbers ≤ 2147483648 := by
  cases hlast : numbers.getLast? with
  | none => simp [numberBehind, hlast]
  | some last =>
    have hleast := h.least_le last (List.mem_of_getLast? hlast)
    have hgreatest := toInt_add_one_le last
    simp only [numberBehind, hlast]
    omega

/-- The only number from one to 2^31 that does not fit into 32 bits is the last one. -/
theorem int32?_eq_none {number : Int} (hleast : 1 ≤ number) (hgreatest : number ≤ 2147483648)
    (h : int32? number = none) : number = 2147483648 := by
  unfold int32? at h
  split at h
  · cases h
  · next hrange =>
    simp only [Int32.toInt_minValue, Int32.toInt_maxValue] at hrange
    omega

/-! ### Complaints about numbers -/

/-- A number that is no integer of 32 bits is written in the text, unless an entry without a
number stands behind the greatest of these integers. A number out of order is written in the
text, and is less than a number that could stand there. -/
structure ParseError.NumbersJustified (occurs : SpannedToken → Prop) (e : ParseError) : Prop where
  invalid : ∀ text, e.fault = .invalidInteger text → ∃ t, occurs t ∧ t.span = e.span ∧
    (t.token = .number text ∧ readInt32? text.toList = none ∨
      (∀ other, t.token ≠ .number other) ∧ text = "2147483648")
  outOfOrder : ∀ kind value expected, e.fault = .indexOutOfOrder kind value expected →
    (∃ t text, occurs t ∧ t.span = e.span ∧ t.token = .number text ∧
      readInt32? text.toList = some value) ∧
      value.toInt < expected ∧ 1 ≤ expected ∧ expected ≤ 2147483648

/-- What an error says holds of a token that occurs: the token stands where something else was
expected, it opens a container too many, or it has no number or a wrong one. -/
inductive ParseError.Justified (limit : Nat) (occurs : SpannedToken → Prop) :
    ParseError → Prop where
  | unexpected {t : SpannedToken} (ht : occurs t) (expected : String) :
      Justified limit occurs (t.unexpected expected)
  | tooDeep {t : SpannedToken} (ht : occurs t)
      (hcontainer : (TypeReader.Hole.ofToken? t.token).isSome = true) :
      Justified limit occurs ⟨.typeTooDeep limit, t.span⟩
  | invalid {t : SpannedToken} {text : String} (ht : occurs t) (htoken : t.token = .number text)
      (hread : readInt32? text.toList = none) :
      Justified limit occurs ⟨.invalidInteger text, t.span⟩
  | exhausted {t : SpannedToken} (ht : occurs t) (htoken : ∀ other, t.token ≠ .number other) :
      Justified limit occurs ⟨.invalidInteger "2147483648", t.span⟩
  | outOfOrder {t : SpannedToken} {text : String} {value : Int32} {expected : Int}
      (kind : IndexKind) (ht : occurs t) (htoken : t.token = .number text)
      (hread : readInt32? text.toList = some value) (hless : value.toInt < expected)
      (hbounds : 1 ≤ expected ∧ expected ≤ 2147483648) :
      Justified limit occurs ⟨.indexOutOfOrder kind value expected, t.span⟩

namespace ParseError.Justified

variable {limit : Nat} {occurs : SpannedToken → Prop} {e : ParseError}

theorem numbersJustified (h : e.Justified limit occurs) : e.NumbersJustified occurs := by
  cases h with
  | unexpected ht expected =>
    exact ⟨by simp [SpannedToken.unexpected], by simp [SpannedToken.unexpected]⟩
  | tooDeep ht hcontainer => exact ⟨by simp, by simp⟩
  | invalid ht htoken hread =>
    refine ⟨fun _ hfault => ?_, by simp⟩
    cases hfault
    exact ⟨_, ht, rfl, .inl ⟨htoken, hread⟩⟩
  | exhausted ht htoken =>
    refine ⟨fun _ hfault => ?_, by simp⟩
    cases hfault
    exact ⟨_, ht, rfl, .inr ⟨htoken, rfl⟩⟩
  | outOfOrder kind ht htoken hread hless hbounds =>
    refine ⟨by simp, fun _ _ _ hfault => ?_⟩
    cases hfault
    exact ⟨⟨_, _, ht, rfl, htoken, hread⟩, hless, hbounds⟩

/-- An error of a reader stands where a token stands. -/
theorem exists_span_eq (h : e.Justified limit occurs) : ∃ t, occurs t ∧ t.span = e.span := by
  cases h with
  | unexpected ht | tooDeep ht | invalid ht | exhausted ht | outOfOrder _ ht =>
    exact ⟨_, ht, rfl⟩

/-- No reader finds a lexical error. -/
theorem ne_lexical (h : e.Justified limit occurs) (fault : LexFault) :
    e.fault ≠ .lexical fault := by
  cases h <;> simp [SpannedToken.unexpected]

end ParseError.Justified

theorem numbersJustified_ofLex (occurs : SpannedToken → Prop) (error : LexError) :
    (ParseError.ofLex error).NumbersJustified occurs :=
  ⟨by simp [ParseError.ofLex], by simp [ParseError.ofLex]⟩

variable {limit : Nat} {occurs : SpannedToken → Prop} {t : SpannedToken}

section

variable {numbers : List Int32}

/-- The number that an entry states goes on with the numbers before it. -/
theorem ensures_explicitNumber (h : AscendFrom 1 numbers) (ht : occurs t) (kind : IndexKind) :
    Ensures (fun number => AscendFrom 1 (numbers ++ [number]))
      (ParseError.Justified limit occurs) (explicitNumber kind (numberBehind 1 numbers) t) := by
  unfold explicitNumber
  split
  · next text htoken =>
    split
    · next hread =>
      exact .invalid ht htoken hread
    · next value hread =>
      by_cases horder : value.toInt < numberBehind 1 numbers
      · rw [if_pos horder]
        exact .outOfOrder kind ht htoken hread horder h.numberBehind_bounds
      · rw [if_neg horder]
        exact ascendFrom_concat.2 ⟨h, Int.not_lt.1 horder⟩
  · exact .unexpected ht _

/-- The number of an entry that states none is the one behind the last, if there is one. -/
theorem ensures_implicitNumber (h : AscendFrom 1 numbers) (ht : occurs t)
    (htoken : ∀ other, t.token ≠ .number other) :
    Ensures (fun number => AscendFrom 1 (numbers ++ [number]))
      (ParseError.Justified limit occurs) (implicitNumber (numberBehind 1 numbers) t.span) := by
  unfold implicitNumber
  split
  · next value hvalue =>
    exact ascendFrom_concat.2 ⟨h, Int.le_of_eq (toInt_of_int32?_eq_some hvalue).symm⟩
  · next hnone =>
    obtain ⟨hleast, hgreatest⟩ := h.numberBehind_bounds
    rw [int32?_eq_none hleast hgreatest hnone]
    exact .exhausted ht htoken

end

/-! ### Enums -/

namespace EnumReader

def State.enum : State → Enum
  | .opening enum | .member enum | .afterName enum _ _ | .value enum _ | .separator enum => enum

/-- The numbers of the members, each of which was read. -/
def State.numbers (state : State) : List Int32 := state.enum.members.map (·.value)

/-- The numbers ascend, and a name that waits for its number is a token. -/
structure State.Ascending (occurs : SpannedToken → Prop) (state : State) : Prop where
  numbers : AscendFrom 1 state.numbers
  name : ∀ enum name span, state = .afterName enum name span →
    ∃ t, occurs t ∧ t.span = span ∧ ∀ other, t.token ≠ .number other

theorem expectedValue_eq (enum : Enum) :
    expectedValue enum = numberBehind 1 (enum.members.map (·.value)) := by
  rw [expectedValue, numberBehind_one, List.getLast?_map]

/-- A greater number stays ascending whatever member it takes away. -/
theorem ascendFrom_insert {enum : Enum} {name : String} {value : Int32}
    (h : AscendFrom 1 (enum.members.map (·.value) ++ [value])) :
    AscendFrom 1 ((enum.insert name value).members.map (·.value)) := by
  rw [Enum.insert, List.map_append]
  exact h.sublist ((List.filter_sublist.map _).append (.refl _))

variable {enum : Enum}

theorem ensures_readMember (h : AscendFrom 1 (enum.members.map (·.value))) (ht : occurs t) :
    Ensures (Step.GoesOnIn (State.Ascending occurs)) (ParseError.Justified limit occurs)
      (readMember enum t) := by
  unfold readMember
  split
  · next name htoken =>
    refine ⟨h, fun _ _ _ hstate => ?_⟩
    cases hstate
    exact ⟨t, ht, rfl, by simp [htoken]⟩
  · exact .bind (ensures_expectSymbol (.unexpected ht) _) fun _ _ => trivial

theorem ensures_readSeparator (h : AscendFrom 1 (enum.members.map (·.value))) (ht : occurs t) :
    Ensures (Step.GoesOnIn (State.Ascending occurs)) (ParseError.Justified limit occurs)
      (readSeparator enum t) :=
  .ite ⟨h, by simp⟩ (ensures_readMember h ht)

theorem ensures_read {state : State} (h : state.Ascending occurs) (ht : occurs t) :
    Ensures (Step.GoesOnIn (State.Ascending occurs)) (ParseError.Justified limit occurs)
      (read state t) := by
  cases state with
  | opening enum =>
    exact .bind (ensures_expectSymbol (.unexpected ht) _) fun _ _ => ⟨h.numbers, by simp⟩
  | member enum => exact ensures_readMember h.numbers ht
  | afterName enum name span =>
    obtain ⟨named, hnamed, rfl, htoken⟩ := h.name enum name span rfl
    refine .ite ⟨h.numbers, by simp⟩ ?_
    rw [expectedValue_eq]
    refine .bind (ensures_implicitNumber h.numbers hnamed htoken) fun value hvalue => ?_
    exact ensures_readSeparator (ascendFrom_insert hvalue) ht
  | value enum name =>
    simp only [read]
    rw [expectedValue_eq]
    refine .bind (ensures_explicitNumber h.numbers ht _) fun value hvalue => ?_
    exact ⟨ascendFrom_insert hvalue, by simp⟩
  | separator enum => exact ensures_readSeparator h.numbers ht

end EnumReader

/-! ### Lists of fields -/

namespace FieldListReader

/-- The index of a field that has been begun. -/
def Phase.index? : Phase → Option Int32
  | .start | .colon _ => none
  | .modifier index _ => some index
  | .type head _ | .name head _ => some head.index
  | .afterName field | .value field | .separator field => some field.index

/-- The indices of the fields, the one that has been begun included. -/
def State.numbers (state : State) : List Int32 :=
  state.fields.map (·.index) ++ state.phase.index?.toList

/-- The indices ascend, and what may be the index of a field is a token. -/
structure State.Ascending (occurs : SpannedToken → Prop) (state : State) : Prop where
  numbers : AscendFrom 1 state.numbers
  colon : ∀ number, state.phase = .colon number → occurs number

theorem expectedIndex_eq (fields : List Field) :
    expectedIndex fields = numberBehind 1 (fields.map (·.index)) := by
  rw [expectedIndex, numberBehind_one, List.getLast?_map]

theorem ascending_start : start.Ascending occurs :=
  ⟨ascendFrom_nil 1, by simp [start]⟩

variable (closer : Symbol) {fields : List Field}

theorem ensures_readType {head : Head} (type : TypeReader.State) (ht : occurs t)
    (h : AscendFrom 1 (fields.map (·.index) ++ [head.index])) :
    Ensures (Step.GoesOnIn (State.Ascending occurs)) (ParseError.Justified limit occurs)
      (readType limit fields head type t) := by
  refine .bind (TypeReader.ensures_read (.unexpected ht) (.tooDeep ht) type) fun step _ => ?_
  cases step <;> exact ⟨h, by simp⟩

theorem ensures_readModifier {index : Int32} (docText : String) (ht : occurs t)
    (h : AscendFrom 1 (fields.map (·.index) ++ [index])) :
    Ensures (Step.GoesOnIn (State.Ascending occurs)) (ParseError.Justified limit occurs)
      (readModifier limit fields index docText t) := by
  unfold readModifier
  split
  · exact ⟨h, by simp⟩
  · exact ⟨h, by simp⟩
  · exact ensures_readType _ ht h

theorem ensures_readStart (h : AscendFrom 1 (fields.map (·.index))) (ht : occurs t) :
    (readStart limit closer fields t).Ensures (Step.GoesOnIn (State.Ascending occurs))
      (ParseError.Justified limit occurs) := by
  have hclose : (do t.expectSymbol closer; return .done fields : Reading (Step State _)).Ensures
      (Step.GoesOnIn (State.Ascending occurs)) (ParseError.Justified limit occurs) :=
    .bind (.lift (ensures_expectSymbol (.unexpected ht) _)) fun _ _ => .pure trivial
  unfold readStart
  split
  · exact hclose
  · exact hclose
  · refine .pure ⟨?_, fun number hphase => ?_⟩
    · rw [State.numbers]
      simpa [Phase.index?] using h
    · cases hphase
      exact ht
  · next htoken =>
    rw [expectedIndex_eq]
    refine .bind (.lift (ensures_implicitNumber h ht htoken)) fun index hindex => ?_
    exact .bind .takeDoc fun docText _ => .lift (ensures_readModifier docText ht hindex)

theorem ensures_readSeparator (h : AscendFrom 1 (fields.map (·.index))) (ht : occurs t) :
    (readSeparator limit closer fields t).Ensures (Step.GoesOnIn (State.Ascending occurs))
      (ParseError.Justified limit occurs) := by
  refine .ite (.pure ⟨?_, by simp⟩) (ensures_readStart closer h ht)
  rw [State.numbers]
  simpa [Phase.index?] using h

theorem ensures_read {state : State} (h : state.Ascending occurs) (ht : occurs t) :
    (read limit closer state t).Ensures (Step.GoesOnIn (State.Ascending occurs))
      (ParseError.Justified limit occurs) := by
  obtain ⟨fields, phase⟩ := state
  obtain ⟨hnumbers, hcolon⟩ := h
  have hread (field : Field) (hnumbers : AscendFrom 1 (fields.map (·.index) ++ [field.index])) :
      AscendFrom 1 ((fields ++ [field]).map (·.index)) := by
    rwa [List.map_append]
  cases phase with
  | start =>
    rw [State.numbers, Phase.index?, Option.toList_none, List.append_nil] at hnumbers
    exact ensures_readStart closer hnumbers ht
  | colon number =>
    rw [State.numbers, Phase.index?, Option.toList_none, List.append_nil] at hnumbers
    refine .bind (.lift (ensures_expectSymbol (.unexpected ht) _)) fun _ _ => ?_
    rw [expectedIndex_eq]
    refine .bind (.lift (ensures_explicitNumber hnumbers (hcolon number rfl) _)) fun index hindex =>
      .bind .takeDoc fun docText _ => .pure ⟨hindex, by simp⟩
  | modifier index docText => exact .lift (ensures_readModifier docText ht hnumbers)
  | type head type => exact .lift (ensures_readType type ht hnumbers)
  | name head signature =>
    exact .bind (.lift (ensures_expectIdentifier (.unexpected ht))) fun _ _ =>
      .pure ⟨hnumbers, by simp⟩
  | afterName field =>
    exact .ite (.pure ⟨hnumbers, by simp⟩)
      (ensures_readSeparator closer (hread field hnumbers) ht)
  | value field =>
    exact .bind (.lift (ensures_expectLiteral (.unexpected ht))) fun _ _ =>
      .pure ⟨hnumbers, by simp⟩
  | separator field => exact ensures_readSeparator closer (hread field hnumbers) ht

end FieldListReader

/-! ### Structs and services -/

namespace StructReader

/-- The indices of the list of fields that is read. -/
def State.numbers? : State → Option (List Int32)
  | .opening _ _ => none
  | .fields _ _ list => some list.numbers

def State.Ascending (occurs : SpannedToken → Prop) : State → Prop
  | .opening _ _ => True
  | .fields _ _ list => list.Ascending occurs

theorem State.Ascending.ascendFrom {state : State} (h : state.Ascending occurs)
    {numbers : List Int32} (hnumbers : state.numbers? = some numbers) : AscendFrom 1 numbers := by
  cases state with
  | opening name docText => cases hnumbers
  | fields name docText fields =>
    cases hnumbers
    exact FieldListReader.State.Ascending.numbers h

theorem ensures_read {state : State} (h : state.Ascending occurs) (ht : occurs t) :
    (read limit state t).Ensures (Step.GoesOnIn (State.Ascending occurs))
      (ParseError.Justified limit occurs) := by
  cases state with
  | opening name docText =>
    refine .bind (.lift (ensures_expectSymbol (.unexpected ht) _)) fun _ _ => .pure ?_
    exact FieldListReader.ascending_start
  | fields name docText fields =>
    refine .bind (FieldListReader.ensures_read .rightBrace h ht) fun step hstep => ?_
    cases step with
    | more fields => exact .pure hstep
    | done fields => exact .pure trivial

end StructReader

namespace ServiceReader

/-- The indices of the argument list or throws list that is read. -/
def State.numbers? (state : State) : Option (List Int32) :=
  match state.phase with
  | .arguments _ fields | .throws _ fields => some fields.numbers
  | _ => none

def State.Ascending (occurs : SpannedToken → Prop) (state : State) : Prop :=
  match state.phase with
  | .arguments _ fields | .throws _ fields => fields.Ascending occurs
  | _ => True

theorem State.Ascending.ascendFrom {state : State} (h : state.Ascending occurs)
    {numbers : List Int32} (hnumbers : state.numbers? = some numbers) : AscendFrom 1 numbers := by
  obtain ⟨service, phase⟩ := state
  cases phase with
  | arguments function fields | throws function fields =>
    cases hnumbers
    exact FieldListReader.State.Ascending.numbers h
  | _ => cases hnumbers

theorem State.BeginsBehind.ascending {state : State} (h : state.BeginsBehind t) :
    state.Ascending occurs := by
  obtain ⟨service, phase⟩ := state
  cases phase with
  | arguments | throws => exact False.elim h
  | _ => trivial

theorem ensures_read {state : State} (h : state.Ascending occurs) (ht : occurs t) :
    (read limit state t).Ensures (Step.GoesOnIn (State.Ascending occurs))
      (ParseError.Justified limit occurs) := by
  obtain ⟨service, phase⟩ := state
  cases phase with
  | openArguments function | openThrows function =>
    exact .bind (.lift (ensures_expectSymbol (.unexpected ht) _)) fun _ _ =>
      .pure FieldListReader.ascending_start
  | arguments function fields =>
    refine .bind (FieldListReader.ensures_read .rightParen h ht) fun step hstep => ?_
    cases step with
    | more fields => exact .pure hstep
    | done fields => exact .pure trivial
  | throws function fields =>
    refine .bind (FieldListReader.ensures_read .rightParen h ht) fun step hstep => ?_
    cases step with
    | more fields => exact .pure hstep
    | done throws => exact .bind .clearDoc fun _ _ => .pure trivial
  | _ =>
    exact .mono (ensures_read_of_isPlain (.unexpected ht) (.tooDeep ht) trivial)
      (Step.GoesOnIn.imp fun _ => State.BeginsBehind.ascending)

end ServiceReader

/-! ### Documents -/

namespace DocumentReader

/-- The numbers of the list that is read. -/
def State.numbers? (state : State) : Option (List Int32) :=
  match state.phase with
  | .enum enum => some enum.numbers
  | .struct struct | .exception struct => struct.numbers?
  | .service service => service.numbers?
  | _ => none

/-- The least number that the next entry of the list that is read may have. -/
def State.expectation? (state : State) : Option Int :=
  state.numbers?.map fun numbers => nextNumber numbers.getLast?

def State.Ascending (occurs : SpannedToken → Prop) (state : State) : Prop :=
  match state.phase with
  | .enum enum => enum.Ascending occurs
  | .struct struct | .exception struct => struct.Ascending occurs
  | .service service => service.Ascending occurs
  | _ => True

theorem State.Ascending.ascendFrom {state : State} (h : state.Ascending occurs)
    {numbers : List Int32} (hnumbers : state.numbers? = some numbers) : AscendFrom 1 numbers := by
  obtain ⟨document, phase⟩ := state
  cases phase with
  | enum enum =>
    cases hnumbers
    exact h.numbers
  | struct struct | exception struct => exact StructReader.State.Ascending.ascendFrom h hnumbers
  | service service => exact ServiceReader.State.Ascending.ascendFrom h hnumbers
  | _ => cases hnumbers

theorem State.BeginsBehind.ascending {state : State} (h : state.BeginsBehind t) :
    state.Ascending occurs := by
  obtain ⟨document, phase⟩ := state
  cases phase with
  | enum | struct | exception | service => exact False.elim h
  | _ => trivial

theorem ascending_startNamed (document : Document) (kind : NamedKind) (name docText : String) :
    State.Ascending occurs ⟨document, startNamed kind name docText⟩ := by
  cases kind with
  | enum => exact ⟨ascendFrom_nil 1, by simp [EnumReader.start]⟩
  | struct | exception | service => exact True.intro

/-- One token leaves the numbers of the open list ascending. -/
theorem ensures_read {state : State} (h : state.Ascending occurs) (ht : occurs t) :
    (read limit state t).Ensures (State.Ascending occurs) (ParseError.Justified limit occurs) := by
  obtain ⟨document, phase⟩ := state
  have hdone (document : Document) : State.Ascending occurs ⟨document, .definitions⟩ := trivial
  cases phase with
  | name kind =>
    exact .bind (.lift (ensures_expectIdentifier (.unexpected ht))) fun name _ =>
      .bind .takeDoc fun docText _ => .pure (ascending_startNamed document kind name docText)
  | enum state =>
    exact .bind (.lift (EnumReader.ensures_read h ht))
      (ensures_continueWith document (fun _ henum => henum) hdone)
  | struct state =>
    exact .bind (StructReader.ensures_read h ht)
      (ensures_continueWith document (fun _ hstruct => hstruct) hdone)
  | exception state =>
    exact .bind (StructReader.ensures_read h ht)
      (ensures_continueWith document (fun _ hstruct => hstruct) hdone)
  | service state =>
    exact .bind (ServiceReader.ensures_read h ht)
      (ensures_continueWith document (fun _ hservice => hservice) hdone)
  | _ =>
    exact .mono (ensures_read_of_isPlain (.unexpected ht) (.tooDeep ht) trivial) fun _ =>
      State.BeginsBehind.ascending

end DocumentReader

/-! ### Streams -/

/-- However far a stream is read, the numbers of the open list ascend, and an error is the lexical
one of the stream, or says of a token in the stream what holds of it. -/
theorem ensures_readItems_ascending (limit : Nat) {items : List Item}
    (hitems : ∀ u, .ok u ∈ items → u.token.isDocComment = false → occurs u)
    {state : DocumentReader.State} (h : state.Ascending occurs) :
    (readItems limit state items).Ensures (DocumentReader.State.Ascending occurs) fun e =>
      (∃ error, .error error ∈ items ∧ .ofLex error = e) ∨ e.Justified limit occurs := by
  refine ensures_readItems (fun item hitem state h => ?_) h
  cases item with
  | error error => exact .throw (.inl ⟨error, hitem, rfl⟩)
  | ok u =>
    cases hdoc : u.token.isDocComment with
    | true =>
      obtain ⟨comment, hcomment⟩ := Token.isDocComment_iff.1 hdoc
      rw [readItem_of_docComment hcomment]
      exact fun pending => h
    | false =>
      rw [readItem_of_isDocComment_eq_false hdoc]
      have hread : (DocumentReader.read limit state u).Ensures _
          (ParseError.Justified limit occurs) :=
        DocumentReader.ensures_read h (hitems u hitem hdoc)
      exact fun pending => (hread pending).mono (fun _ hnext => hnext) fun _ => .inr

theorem ascending_of_readItems_eq_ok {limit : Nat} {items : List Item}
    {next : DocumentReader.State} {left : String}
    (hitems : ∀ u, .ok u ∈ items → u.token.isDocComment = false → occurs u)
    (h : (readItems limit DocumentReader.start items).run "" = .ok (next, left)) :
    next.Ascending occurs := by
  have hstart : DocumentReader.start.Ascending occurs := trivial
  have hread := ensures_readItems_ascending limit hitems hstart ""
  rw [h] at hread
  exact hread

theorem justified_of_parse_eq_error {options : ParseOptions} {source : String} {e : ParseError}
    (h : parse options source = .error e)
    (hitems : ∀ u, .ok u ∈ (TokenStream.ofSource options source).items →
      u.token.isDocComment = false → occurs u) :
    (∃ error, .error error ∈ (TokenStream.ofSource options source).items ∧ .ofLex error = e) ∨
      e.Justified options.maxTypeDepth occurs := by
  have hstart : DocumentReader.start.Ascending occurs := trivial
  have hread := ensures_readItems_ascending options.maxTypeDepth hitems hstart ""
  rw [parse_eq_error_iff.1 h] at hread
  exact hread

end ServiceIdl
