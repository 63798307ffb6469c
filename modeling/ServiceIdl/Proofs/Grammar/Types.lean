import ServiceIdl.Proofs.Grammar.Syntax
import ServiceIdl.Proofs.Reading.Acceptance

/-!
# Types are read by their grammar

The reader of types accepts the tokens of a type, if it is not too deep, and results in this type.
Where it stands inside the reader of a node, the node is read on behind the type.
-/

namespace ServiceIdl.TypeReader

/-- Reads one token of a type without layout. -/
def plain? (limit : Nat) (state : State) (token : Token) : Option (Step State TypeExpr) :=
  (read limit state token.plain).toOption

variable {limit : Nat} {holes : List Hole} {tokens : List Token} {result : TypeExpr}

theorem accepts_opening_iff {hole : Hole} :
    Accepts (plain? limit) (.more (.opening hole holes)) tokens result ↔ ∃ rest,
      tokens = .symbol .leftAngle :: rest ∧
        Accepts (plain? limit) (.more (.operand (hole :: holes))) rest result :=
  accepts_iff_of_symbol fun token step => by simp [plain?, read]

/-- The step behind the token that follows the argument for a hole. -/
def behindClosing (hole : Hole) (argument : TypeExpr) (holes : List Hole) : Step State TypeExpr :=
  match hole with
  | .listElement => plug (.list argument) holes
  | .setElement => plug (.set argument) holes
  | .mapKey => .more (.operand (.mapValue argument :: holes))
  | .mapValue key => plug (.map key argument) holes

theorem accepts_closing_iff {hole : Hole} {argument : TypeExpr} :
    Accepts (plain? limit) (.more (.closing hole argument holes)) tokens result ↔ ∃ rest,
      tokens = .symbol (if hole = .mapKey then .comma else .rightAngle) :: rest ∧
        Accepts (plain? limit) (behindClosing hole argument holes) rest result := by
  apply accepts_iff_of_symbol
  intro token step
  cases hole <;> simp [plain?, read, readClosing, behindClosing]

/-- A type starts with its name or with the keyword of a container. -/
def startsType : Token → Bool
  | .identifier _ => true
  | token => (Hole.ofToken? token).isSome

theorem plain?_operand_eq_none {token : Token} (h : startsType token = false) :
    plain? limit (.operand holes) token = none := by
  cases token with
  | identifier name => simp [startsType] at h
  | keyword word =>
    have hnone : Hole.ofToken? (.keyword word) = none := by simpa [startsType] using h
    simp [plain?, read, readOperand, hnone]
  | _ => simp [plain?, read, readOperand, Hole.ofToken?]

/-- A type does not end with the input. -/
theorem plain?_endOfInput (state : State) : plain? limit state .endOfInput = none := by
  cases state with
  | operand holes => exact plain?_operand_eq_none rfl
  | opening hole holes => rfl
  | closing hole argument holes => cases hole <;> rfl

theorem accepts_identifier_iff {name : String} :
    Accepts (plain? limit) (.more (.operand holes)) (.identifier name :: tokens) result ↔
      Accepts (plain? limit) (plug (.named name) holes) tokens result := by
  simp [accepts_cons_iff, plain?, read, readOperand]

theorem accepts_container_iff {token : Token} {hole : Hole} (h : Hole.ofToken? token = some hole) :
    Accepts (plain? limit) (.more (.operand holes)) (token :: tokens) result ↔
      holes.length < limit ∧ ∃ rest, tokens = .symbol .leftAngle :: rest ∧
        Accepts (plain? limit) (.more (.operand (hole :: holes))) rest result := by
  rw [← accepts_opening_iff, accepts_cons_iff]
  have hplain : plain? limit (.operand holes) token =
      if holes.length < limit then some (.more (.opening hole holes)) else none := by
    cases token <;> simp only [Hole.ofToken?, reduceCtorEq] at h
    simp only [plain?, read, readOperand, Token.token_plain, Hole.ofToken?, h]
    split <;> rfl
  rw [hplain]
  split <;> simp [*]

theorem exists_of_accepts_operand
    (h : Accepts (plain? limit) (.more (.operand holes)) tokens result) :
    ∃ token rest, tokens = token :: rest ∧
      ((∃ name, token = .identifier name) ∨ ∃ hole, Hole.ofToken? token = some hole) := by
  obtain ⟨token, rest, step, rfl, hstep, _⟩ := accepts_more_iff.1 h
  refine ⟨token, rest, rfl, ?_⟩
  cases hstarts : startsType token with
  | false =>
    rw [plain?_operand_eq_none hstarts] at hstep
    cases hstep
  | true =>
    cases token with
    | identifier name => exact .inl ⟨name, rfl⟩
    | _ => exact .inr (Option.isSome_iff_exists.1 hstarts)

private theorem accepts_tokens_append (type : TypeExpr) (h : type.depth + holes.length ≤ limit)
    (haccepts : Accepts (plain? limit) (plug type holes) tokens result) :
    Accepts (plain? limit) (.more (.operand holes)) (type.tokens ++ tokens) result := by
  -- The holes vary, since an argument is read inside one more container.
  induction type generalizing holes tokens with
  | named name => exact accepts_identifier_iff.2 haccepts
  | list element ih =>
    simp only [TypeExpr.depth] at h
    have hclosing : Accepts (plain? limit) (plug element (.listElement :: holes))
        (.symbol .rightAngle :: tokens) result := accepts_closing_iff.2 ⟨tokens, rfl, haccepts⟩
    have helement := ih (by rw [List.length_cons]; omega) hclosing
    exact (accepts_container_iff rfl).2 ⟨by omega, _, by simp, helement⟩
  | set element ih =>
    simp only [TypeExpr.depth] at h
    have hclosing : Accepts (plain? limit) (plug element (.setElement :: holes))
        (.symbol .rightAngle :: tokens) result := accepts_closing_iff.2 ⟨tokens, rfl, haccepts⟩
    have helement := ih (by rw [List.length_cons]; omega) hclosing
    exact (accepts_container_iff rfl).2 ⟨by omega, _, by simp, helement⟩
  | map key value ihkey ihvalue =>
    simp only [TypeExpr.depth] at h
    have hclosing : Accepts (plain? limit) (plug value (.mapValue key :: holes))
        (.symbol .rightAngle :: tokens) result := accepts_closing_iff.2 ⟨tokens, rfl, haccepts⟩
    -- The value is read behind the comma, with the key already in place.
    have hvalue := ihvalue (by rw [List.length_cons]; omega) hclosing
    have hcomma : Accepts (plain? limit) (plug key (.mapKey :: holes))
        (.symbol .comma :: (value.tokens ++ .symbol .rightAngle :: tokens)) result :=
      accepts_closing_iff.2 ⟨_, rfl, hvalue⟩
    have hkey := ihkey (by rw [List.length_cons]; omega) hcomma
    exact (accepts_container_iff rfl).2 ⟨by omega, _, by simp, hkey⟩

private theorem exists_tokens_append (n : Nat) (hn : tokens.length ≤ n)
    (hholes : holes.length ≤ limit)
    (haccepts : Accepts (plain? limit) (.more (.operand holes)) tokens result) :
    ∃ (type : TypeExpr) (rest : List Token), tokens = type.tokens ++ rest ∧
      type.depth + holes.length ≤ limit ∧ Accepts (plain? limit) (plug type holes) rest result := by
  -- The induction is on a bound for the tokens, since the value of a map is read behind its key.
  induction n generalizing holes tokens with
  | zero =>
    rw [List.length_eq_zero_iff.1 (Nat.le_zero.1 hn)] at haccepts
    exact absurd haccepts not_accepts_nil
  | succ n ih =>
    obtain ⟨token, rest, rfl, ⟨name, rfl⟩ | ⟨hole, hhole⟩⟩ := exists_of_accepts_operand haccepts
    · refine ⟨.named name, rest, rfl, ?_, accepts_identifier_iff.1 haccepts⟩
      simpa [TypeExpr.depth] using hholes
    · obtain ⟨hroom, rest, rfl, hargument⟩ := (accepts_container_iff hhole).1 haccepts
      simp only [List.length_cons] at hn
      have hinside : (hole :: holes).length ≤ limit := hroom
      obtain ⟨argument, rest, rfl, hdepth, hclosing⟩ := ih (by omega) hinside hargument
      obtain ⟨rest, rfl, hbehind⟩ := accepts_closing_iff.1 hclosing
      simp only [List.length_append, List.length_cons] at hn hdepth
      cases token with
      | keyword word =>
        cases word with
        | listType =>
          obtain rfl : Hole.listElement = hole := Option.some.inj hhole
          refine ⟨.list argument, rest, ?_, ?_, hbehind⟩
          · simp [TypeExpr.tokens]
          · simp only [TypeExpr.depth]
            omega
        | setType =>
          obtain rfl : Hole.setElement = hole := Option.some.inj hhole
          refine ⟨.set argument, rest, ?_, ?_, hbehind⟩
          · simp [TypeExpr.tokens]
          · simp only [TypeExpr.depth]
            omega
        | mapType =>
          obtain rfl : Hole.mapKey = hole := Option.some.inj hhole
          have hinside : (Hole.mapValue argument :: holes).length ≤ limit := hroom
          obtain ⟨value, rest, rfl, hdepth', hclosing⟩ := ih (by omega) hinside hbehind
          obtain ⟨rest, rfl, hmap⟩ := accepts_closing_iff.1 hclosing
          refine ⟨.map argument value, rest, ?_, ?_, hmap⟩
          · simp [TypeExpr.tokens]
          · simp only [TypeExpr.depth, List.length_cons] at hdepth' ⊢
            omega
        | _ => cases hhole
      | _ => cases hhole

/-- Where a type is expected inside some containers, a type is read that nests as many
containers as are left, and it goes into the innermost container. -/
theorem accepts_operand_iff (h : holes.length ≤ limit) :
    Accepts (plain? limit) (.more (.operand holes)) tokens result ↔
      ∃ (type : TypeExpr) (rest : List Token), tokens = type.tokens ++ rest ∧
        type.depth + holes.length ≤ limit ∧
          Accepts (plain? limit) (plug type holes) rest result := by
  constructor
  · exact exists_tokens_append tokens.length (Nat.le_refl _) h
  · rintro ⟨type, rest, rfl, hdepth, haccepts⟩
    exact accepts_tokens_append type hdepth haccepts

/-- A type is read as it is written, if it is not too deep. -/
theorem accepts_start_iff :
    Accepts (plain? limit) (.more start) tokens result ↔
      tokens = result.tokens ∧ result.depth ≤ limit := by
  rw [start, accepts_operand_iff (Nat.zero_le limit)]
  simp only [plug, accepts_done_iff, List.length_nil, Nat.add_zero]
  constructor
  · rintro ⟨type, rest, rfl, hdepth, rfl, rfl⟩
    exact ⟨List.append_nil _, hdepth⟩
  · rintro ⟨rfl, hdepth⟩
    exact ⟨result, [], (List.append_nil _).symm, hdepth, rfl, rfl⟩

/-- Where a type stands inside a node, the reader of the node goes on behind the type. -/
theorem accepts_embedded_iff {τ β : Type} {outer : τ → Token → Option (Step τ β)}
    (wrap : State → τ) (next : TypeExpr → Step τ β)
    (h : ∀ state token,
      outer (wrap state) token = (plain? limit state token).map (.inside wrap next))
    {result : β} :
    Accepts outer (.more (wrap start)) tokens result ↔
      ∃ (type : TypeExpr) (rest : List Token), tokens = type.tokens ++ rest ∧
        type.depth ≤ limit ∧ Accepts outer (next type) rest result := by
  rw [accepts_embed_iff wrap next h]
  simp only [accepts_start_iff]
  constructor
  · rintro ⟨_, rest, type, rfl, ⟨rfl, hdepth⟩, haccepts⟩
    exact ⟨type, rest, rfl, hdepth, haccepts⟩
  · rintro ⟨type, rest, rfl, hdepth, haccepts⟩
    exact ⟨_, rest, type, rfl, ⟨rfl, hdepth⟩, haccepts⟩

end ServiceIdl.TypeReader
