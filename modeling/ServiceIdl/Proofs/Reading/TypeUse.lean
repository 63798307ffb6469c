import Mathlib.Tactic.Choose
import ServiceIdl.Proofs.Grammar.Syntax
import ServiceIdl.Proofs.Parsing.Outcomes

/-!
# What a token does to a type

Only types ask for the depth limit. So where a token is read as a part of a type, the limit does to
the outcome what it does to the reader of that type: the outcome is the same under all limits,
unless the token opens a container. Where a token stands outside all types, the limit does nothing.

## Main definitions

- `AnglesMatch`: the angles of tokens are closed
- `TypeReader.Hole.tokens`, `TypeReader.openTokens`: the tokens of containers up to their holes
- `TypeReader.State.ReadBy`: the tokens of which a state is the outcome
- `TypeUse`, `Reading.TypeUse`: a token is read as a part of a type, or outside all types
-/

namespace ServiceIdl

/-- Another fault than a container too many. -/
def ParseError.IsShallow (e : ParseError) : Prop := ∀ limit, e.fault ≠ .typeTooDeep limit

def Token.isAngle (token : Token) : Bool :=
  token = .symbol .leftAngle || token = .symbol .rightAngle

/-- As many angles are opened as are closed. -/
def AnglesMatch (tokens : List Token) : Prop :=
  tokens.count (.symbol .leftAngle) = tokens.count (.symbol .rightAngle)

theorem AnglesMatch.append {first second : List Token} (hfirst : AnglesMatch first)
    (hsecond : AnglesMatch second) : AnglesMatch (first ++ second) := by
  rw [AnglesMatch, List.count_append, List.count_append, hfirst, hsecond]

theorem anglesMatch_singleton {token : Token} (h : token.isAngle = false) :
    AnglesMatch [token] := by
  obtain ⟨hleft, hright⟩ : token ≠ .symbol .leftAngle ∧ token ≠ .symbol .rightAngle := by
    simpa [Token.isAngle] using h
  rw [AnglesMatch, List.count_singleton, List.count_singleton, if_neg (by simpa using hleft),
    if_neg (by simpa using hright)]

theorem TypeExpr.anglesMatch_tokens (type : TypeExpr) : AnglesMatch type.tokens := by
  unfold AnglesMatch
  induction type with
  | named name => rfl
  | list element ih | set element ih => simp [tokens, ih]
  | map key value ihkey ihvalue =>
    simp only [tokens, List.count_cons, List.count_append, ihkey, ihvalue]
    simp
    omega

/-! ### Types -/

namespace TypeReader

/-- The tokens of a container in front of the argument for a hole. -/
def Hole.tokens : Hole → List Token
  | .listElement => [.keyword .listType, .symbol .leftAngle]
  | .setElement => [.keyword .setType, .symbol .leftAngle]
  | .mapKey => [.keyword .mapType, .symbol .leftAngle]
  | .mapValue key => .keyword .mapType :: .symbol .leftAngle :: (key.tokens ++ [.symbol .comma])

/-- The tokens of nested containers in front of the argument for the innermost hole. -/
def openTokens : List Hole → List Token
  | [] => []
  | hole :: holes => openTokens holes ++ hole.tokens

/-- The containers around the place behind what has been read. -/
def State.holes : State → List Hole
  | .operand holes => holes
  | .opening hole holes | .closing hole _ holes => hole :: holes

/-- Of a type exactly the given tokens have been read. -/
def State.ReadBy (tokens : List Token) : State → Prop
  | .operand holes => tokens = openTokens holes
  | .opening hole holes =>
    ∃ token, Hole.ofToken? token = some hole ∧ tokens = openTokens holes ++ [token]
  | .closing hole argument holes => tokens = openTokens holes ++ hole.tokens ++ argument.tokens

/-- Behind the given tokens a type is being read or complete. -/
def ReadBehind (tokens : List Token) : Step State TypeExpr → Prop
  | .more state => state.ReadBy tokens
  | .done type => tokens = type.tokens

variable {limit : Nat} {t : SpannedToken} {tokens : List Token} {hole : Hole} {holes : List Hole}

theorem Hole.tokens_of_ofToken? {token : Token} (h : ofToken? token = some hole) :
    hole.tokens = [token, .symbol .leftAngle] := by
  unfold ofToken? at h
  split at h <;> cases h <;> rfl

theorem isContainer_of_ofToken? {token : Token} (h : Hole.ofToken? token = some hole) :
    token = .keyword .listType ∨ token = .keyword .setType ∨ token = .keyword .mapType := by
  unfold Hole.ofToken? at h
  split at h <;> simp_all

theorem readBehind_plug {type : TypeExpr} (h : tokens = openTokens holes ++ type.tokens) :
    ReadBehind tokens (plug type holes) := by
  cases holes with
  | nil => exact h
  | cons hole holes => exact h

/-- A token that opens a container is the only one for which the limit makes a difference. -/
theorem read_operand_of_container (h : Hole.ofToken? t.token = some hole) :
    read limit (.operand holes) t =
      if holes.length < limit then .ok (.more (.opening hole holes))
      else .error ⟨.typeTooDeep limit, t.span⟩ := by
  obtain ⟨token, span⟩ := t
  cases token with
  | keyword word => simp only [read, readOperand, h]
  | _ => cases h

theorem read_operand_of_no_container (h : Hole.ofToken? t.token = none) :
    read limit (.operand holes) t =
      match t.token with
      | .identifier name => .ok (plug (.named name) holes)
      | _ => .error (t.unexpected "type") := by
  obtain ⟨token, span⟩ := t
  cases token with
  | keyword word => simp only [read, readOperand, h]
  | _ => rfl

theorem read_eq_of_no_container {state : State}
    (h : ∀ holes, state = .operand holes → Hole.ofToken? t.token = none) (limit limit' : Nat) :
    read limit state t = read limit' state t := by
  cases state with
  | operand holes =>
    rw [read_operand_of_no_container (h holes rfl), read_operand_of_no_container (h holes rfl)]
  | _ => rfl

theorem ensures_read_isShallow {state : State}
    (h : ∀ holes, state = .operand holes → Hole.ofToken? t.token = none) :
    Ensures (fun _ => True) ParseError.IsShallow (read limit state t) := by
  have hunexpected (expected : String) : (t.unexpected expected).IsShallow := by
    simp [ParseError.IsShallow, SpannedToken.unexpected]
  cases state with
  | operand holes =>
    rw [read_operand_of_no_container (h holes rfl)]
    split
    · trivial
    · exact hunexpected _
  | opening hole holes => exact .bind (ensures_expectSymbol hunexpected _) fun _ _ => trivial
  | closing hole argument holes =>
    cases hole <;> exact .bind (ensures_expectSymbol hunexpected _) fun _ _ => trivial

/-- One token is added to those that have been read. -/
theorem ensures_read_readBehind {state : State} (h : state.ReadBy tokens) :
    Ensures (ReadBehind (tokens ++ [t.token])) (fun _ => True) (read limit state t) := by
  cases state with
  | operand holes =>
    obtain rfl : tokens = openTokens holes := h
    cases hcontainer : Hole.ofToken? t.token with
    | some hole =>
      rw [read_operand_of_container hcontainer]
      split
      · exact ⟨t.token, hcontainer, rfl⟩
      · trivial
    | none =>
      rw [read_operand_of_no_container hcontainer]
      split
      · next name hname => exact readBehind_plug (by rw [hname]; rfl)
      · trivial
  | opening hole holes =>
    obtain ⟨token, hhole, rfl⟩ := h
    refine .bind (ensures_expectSymbol (fun _ => trivial) .leftAngle) fun _ hangle => ?_
    change _ = openTokens holes ++ hole.tokens
    rw [Hole.tokens_of_ofToken? hhole, hangle, List.append_assoc]
    rfl
  | closing hole argument holes =>
    obtain rfl : tokens = openTokens holes ++ hole.tokens ++ argument.tokens := h
    cases hole with
    | listElement | setElement | mapValue =>
      refine .bind (ensures_expectSymbol (fun _ => trivial) .rightAngle) fun _ hangle => readBehind_plug ?_
      simp [hangle, Hole.tokens, TypeExpr.tokens]
    | mapKey =>
      refine .bind (ensures_expectSymbol (fun _ => trivial) .comma) fun _ hcomma => ?_
      change _ = openTokens holes ++ Hole.tokens _
      simp [hcomma, Hole.tokens]

theorem goesOnIn_plug {type : TypeExpr} (h : holes.length ≤ limit) :
    (plug type holes).GoesOnIn (·.holes.length ≤ limit) := by
  cases holes with
  | nil => trivial
  | cons hole holes => exact h

/-- No more containers are opened than the limit allows. -/
theorem ensures_read_holes {state : State} (h : state.holes.length ≤ limit) :
    Ensures (Step.GoesOnIn (·.holes.length ≤ limit)) (fun _ => True) (read limit state t) := by
  cases state with
  | operand holes =>
    cases hcontainer : Hole.ofToken? t.token with
    | some hole =>
      rw [read_operand_of_container hcontainer]
      split
      · next hroom => exact hroom
      · trivial
    | none =>
      rw [read_operand_of_no_container hcontainer]
      split
      · exact goesOnIn_plug h
      · trivial
  | opening hole holes => exact .bind (ensures_expectSymbol (fun _ => trivial) .leftAngle) fun _ _ => h
  | closing hole argument holes =>
    have hholes : holes.length ≤ limit := Nat.le_of_succ_le h
    cases hole with
    | listElement | setElement | mapValue =>
      exact .bind (ensures_expectSymbol (fun _ => trivial) .rightAngle) fun _ _ => goesOnIn_plug hholes
    | mapKey => exact .bind (ensures_expectSymbol (fun _ => trivial) .comma) fun _ _ => h

end TypeReader

/-! ### Tokens inside and outside types -/

/-- The type that is being read behind a step. -/
def Step.openType {σ α : Type} (openType : σ → TypeReader.State) : Step σ α → TypeReader.State
  | .more state => openType state
  | .done _ => TypeReader.start

/-- A token is read as a part of a type, whatever else is done with the type, or it stands outside
all types, is no angle, and the limit has no influence. -/
inductive TypeUse {β : Type} (type : TypeReader.State) (t : SpannedToken)
    (behind : β → TypeReader.State) (outcome : Nat → Except ParseError β) : Prop where
  | inside (result : Step TypeReader.State TypeExpr → β)
      (hread : ∀ limit, outcome limit = (TypeReader.read limit type t).map result)
      (hbehind : ∀ step, behind (result step) = step.openType id)
  | outside (fixed : Except ParseError β) (hread : ∀ limit, outcome limit = fixed)
      (htype : type = TypeReader.start)
      (hfixed : Ensures (fun result => behind result = TypeReader.start ∧ t.token.isAngle = false)
        ParseError.IsShallow fixed)

/-- The same for any pending doc text. -/
def Reading.TypeUse {β : Type} (type : TypeReader.State) (t : SpannedToken)
    (behind : β → TypeReader.State) (reading : Nat → Reading β) : Prop :=
  ∀ pending, ServiceIdl.TypeUse type t (fun result => behind result.1) fun limit =>
    (reading limit).run pending

variable {α β γ : Type} {type : TypeReader.State} {t : SpannedToken}
  {behind : β → TypeReader.State} {behind' : γ → TypeReader.State}

namespace TypeUse

variable {outcome : Nat → Except ParseError β}

theorem pure {result : β} (htype : type = TypeReader.start) (hangle : t.token.isAngle = false)
    (hbehind : behind result = TypeReader.start) :
    TypeUse type t behind fun _ => .ok result :=
  .outside (.ok result) (fun _ => rfl) htype ⟨hbehind, hangle⟩

theorem error {e : ParseError} (htype : type = TypeReader.start) (h : e.IsShallow) :
    TypeUse type t behind fun _ => .error e :=
  .outside (.error e) (fun _ => rfl) htype h

/-- Something is done with the result, which does not change the type that is being read. -/
theorem bind (h : TypeUse type t behind outcome) {next : β → Except ParseError γ}
    (hnext : ∀ result, ∃ result', next result = .ok result' ∧ behind' result' = behind result) :
    TypeUse type t behind' fun limit => outcome limit >>= next := by
  choose follow hfollow hbehind' using hnext
  cases h with
  | inside result hread hbehind =>
    refine .inside (fun step => follow (result step)) (fun limit => ?_) fun step => ?_
    · rw [hread]
      cases TypeReader.read limit type t with
      | error e => rfl
      | ok step => exact hfollow (result step)
    · rw [hbehind', hbehind]
  | outside fixed hread htype hfixed =>
    refine .outside (fixed >>= next) (fun limit => by rw [hread]) htype (hfixed.bind ?_)
    rintro result ⟨hresult, hangle⟩
    rw [hfollow]
    exact ⟨(hbehind' result).trans hresult, hangle⟩

/-- Before the token is read, something is done that has nothing to do with types. -/
theorem after {first : Except ParseError α} {P : α → Prop} (htype : type = TypeReader.start)
    (hfirst : Ensures P ParseError.IsShallow first) {next : Nat → α → Except ParseError β}
    (hnext : ∀ a, P a → TypeUse type t behind fun limit => next limit a) :
    TypeUse type t behind fun limit => first >>= next limit := by
  cases first with
  | error e => exact .error htype hfirst
  | ok a => exact hnext a hfirst

theorem ite {p : Prop} [Decidable p] {first second : Nat → Except ParseError β}
    (hfirst : p → TypeUse type t behind first) (hsecond : ¬ p → TypeUse type t behind second) :
    TypeUse type t behind fun limit => if p then first limit else second limit := by
  by_cases hp : p
  · simp only [if_pos hp]
    exact hfirst hp
  · simp only [if_neg hp]
    exact hsecond hp

/-- A token is read alike under all limits, or it opens a container, and the limit decides whether
it may. -/
theorem limited (h : TypeUse type t behind outcome) :
    (∃ fixed, (∀ limit, outcome limit = fixed) ∧
        Ensures (fun _ => True) ParseError.IsShallow fixed) ∨
      ∃ hole holes result, type = .operand holes ∧
        TypeReader.Hole.ofToken? t.token = some hole ∧ behind result = .opening hole holes ∧
        ∀ limit, outcome limit =
          if holes.length < limit then .ok result else .error ⟨.typeTooDeep limit, t.span⟩ := by
  cases h with
  | outside fixed hread htype hfixed =>
    cases fixed with
    | error e => exact .inl ⟨.error e, hread, hfixed⟩
    | ok result => exact .inl ⟨.ok result, hread, trivial⟩
  | inside result hread hbehind =>
    by_cases hcontainer : ∃ holes hole, type = .operand holes ∧
        TypeReader.Hole.ofToken? t.token = some hole
    · obtain ⟨holes, hole, rfl, hhole⟩ := hcontainer
      refine .inr ⟨hole, holes, result (.more (.opening hole holes)), rfl, hhole, hbehind _,
        fun limit => ?_⟩
      rw [hread, TypeReader.read_operand_of_container hhole]
      split <;> rfl
    · have hnone (holes) (htype : type = .operand holes) :
          TypeReader.Hole.ofToken? t.token = none :=
        Option.eq_none_iff_forall_ne_some.2 fun hole hhole => hcontainer ⟨holes, hole, htype, hhole⟩
      refine .inl ⟨outcome 0, fun limit => ?_, ?_⟩
      · rw [hread, hread, TypeReader.read_eq_of_no_container hnone limit 0]
      · rw [hread]
        have hshallow : Ensures _ ParseError.IsShallow (TypeReader.read 0 type t) :=
          TypeReader.ensures_read_isShallow hnone
        cases hstep : TypeReader.read 0 type t with
        | error e =>
          rw [hstep] at hshallow
          exact hshallow
        | ok step => trivial

end TypeUse

namespace Reading.TypeUse

theorem lift {outcome : Nat → Except ParseError β} (h : ServiceIdl.TypeUse type t behind outcome) :
    Reading.TypeUse type t behind fun limit => liftM (outcome limit) :=
  fun _ => h.bind fun _ => ⟨_, rfl, rfl⟩

theorem pure {result : β} (htype : type = TypeReader.start) (hangle : t.token.isAngle = false)
    (hbehind : behind result = TypeReader.start) :
    Reading.TypeUse type t behind fun _ => Pure.pure result :=
  fun _ => .pure htype hangle hbehind

theorem throw {e : ParseError} (htype : type = TypeReader.start) (h : e.IsShallow) :
    Reading.TypeUse type t behind fun _ => MonadExcept.throw e :=
  fun _ => .error htype h

theorem bind {reading : Nat → Reading β} (h : Reading.TypeUse type t behind reading)
    {next : β → Reading γ}
    (hnext : ∀ result pending, ∃ result', (next result).run pending = .ok result' ∧
      behind' result'.1 = behind result) :
    Reading.TypeUse type t behind' fun limit => reading limit >>= next :=
  fun pending => (h pending).bind fun result => hnext result.1 result.2

theorem after {first : Except ParseError α} {P : α → Prop} (htype : type = TypeReader.start)
    (hfirst : ServiceIdl.Ensures P ParseError.IsShallow first) {next : Nat → α → Reading β}
    (hnext : ∀ a, P a → Reading.TypeUse type t behind fun limit => next limit a) :
    Reading.TypeUse type t behind fun limit => liftM first >>= next limit := by
  cases first with
  | error e => exact fun _ => .error htype hfirst
  | ok a => exact hnext a hfirst

theorem takeDoc {next : Nat → String → Reading β}
    (h : ∀ docText, Reading.TypeUse type t behind fun limit => next limit docText) :
    Reading.TypeUse type t behind fun limit => ServiceIdl.takeDoc >>= next limit :=
  fun pending => h pending ""

theorem clearDoc {next : Nat → Reading β} (h : Reading.TypeUse type t behind next) :
    Reading.TypeUse type t behind fun limit => ServiceIdl.clearDoc >>= fun _ => next limit :=
  fun _ => h ""

theorem ite {p : Prop} [Decidable p] {first second : Nat → Reading β}
    (hfirst : p → Reading.TypeUse type t behind first)
    (hsecond : ¬ p → Reading.TypeUse type t behind second) :
    Reading.TypeUse type t behind fun limit => if p then first limit else second limit := by
  by_cases hp : p
  · simp only [if_pos hp]
    exact hfirst hp
  · simp only [if_neg hp]
    exact hsecond hp

end Reading.TypeUse

end ServiceIdl
