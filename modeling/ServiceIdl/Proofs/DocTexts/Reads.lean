import ServiceIdl.Proofs.DocTexts.Semantics
import ServiceIdl.Proofs.Parsing.Layout

/-!
# Reading tokens with doc comments in front

What a reader does with a sentence is followed together with the place since which doc comments
are pending. A token either leaves the pending doc comments alone or uses them all up.
-/

namespace ServiceIdl

variable {σ τ α β : Type}

/-- From a step at `place`, where doc comments are pending since the place `since`, the tokens
lead to the last step, and there doc comments are pending since the place that comes before it. -/
inductive Reads (docs : DocTexts) (read : σ → SpannedToken → Reading (Step σ α)) :
    Nat → Nat → Step σ α → List Token → Nat → Step σ α → Prop where
  | refl {place since : Nat} {step : Step σ α} : Reads docs read place since step [] since step
  | keep {place since behind : Nat} {state : σ} {step last : Step σ α} {token : Token}
      {rest : List Token}
      (hread : (read state token.plain).run (docs.between since (place + 1)) =
        .ok (step, docs.between since (place + 1)))
      (hrest : Reads docs read (place + 1) since step rest behind last) :
      Reads docs read place since (.more state) (token :: rest) behind last
  | take {place since behind : Nat} {state : σ} {step last : Step σ α} {token : Token}
      {rest : List Token}
      (hread : (read state token.plain).run (docs.between since (place + 1)) = .ok (step, ""))
      (hrest : Reads docs read (place + 1) (place + 1) step rest behind last) :
      Reads docs read place since (.more state) (token :: rest) behind last

theorem eq_ok_of_toOption {ε : Type} {first : Except ε α} {a : α}
    (h : first.toOption = some a) : first = .ok a := by
  cases first with
  | error e => cases h
  | ok found => exact congrArg Except.ok (Option.some.inj h)

namespace Reads

variable {docs : DocTexts} {read : σ → SpannedToken → Reading (Step σ α)}
  {place since behind : Nat} {first last : Step σ α} {state : σ} {tokens : List Token}

theorem append {next : Step σ α} {between : Nat} {rest : List Token}
    (h : Reads docs read place since first tokens between next)
    (hrest : Reads docs read (place + tokens.length) between next rest behind last) :
    Reads docs read place since first (tokens ++ rest) behind last := by
  induction h with
  | refl => exact hrest
  | keep hread _ ih =>
    refine .keep hread (ih ?_)
    rwa [List.length_cons, ← Nat.add_assoc, Nat.add_right_comm] at hrest
  | take hread _ ih =>
    refine .take hread (ih ?_)
    rwa [List.length_cons, ← Nat.add_assoc, Nat.add_right_comm] at hrest

/-- A reader that has nothing to do with doc texts leaves doc comments pending. -/
theorem of_accepts {inner : σ → SpannedToken → Except ParseError (Step σ α)}
    {plain? : σ → Token → Option (Step σ α)}
    (hplain : ∀ state token, plain? state token = (inner state token.plain).toOption)
    {result : α} (h : Accepts plain? first tokens result) :
    Reads docs (fun state t => liftM (inner state t)) place since first tokens since
      (.done result) := by
  induction tokens generalizing place first with
  | nil =>
    cases first with
    | more state => exact absurd h not_accepts_nil
    | done found =>
      obtain ⟨_, rfl⟩ := accepts_done_iff.1 h
      exact .refl
  | cons token tokens ih =>
    cases first with
    | more state =>
      obtain ⟨step, hstep, hrest⟩ := accepts_cons_iff.1 h
      rw [hplain] at hstep
      have hinner : inner state token.plain = .ok step := eq_ok_of_toOption hstep
      refine .keep ?_ (ih hrest)
      rw [hinner]
      rfl
    | done found => exact absurd (accepts_done_iff.1 h).1 (List.cons_ne_nil _ _)

/-- A reader that runs inside another one, which goes on with its result. -/
theorem embed {inner : τ → SpannedToken → Reading (Step τ β)} (wrap : τ → σ)
    (next : β → Step σ α)
    (hread : ∀ state t, read (wrap state) t =
      inner state t >>= fun step => pure (step.inside wrap next))
    {firstInner lastInner : Step τ β}
    (h : Reads docs inner place since firstInner tokens behind lastInner) :
    Reads docs read place since (firstInner.inside wrap next) tokens behind
      (lastInner.inside wrap next) := by
  induction h with
  | refl => exact .refl
  | keep hinner _ ih =>
    refine .keep ?_ ih
    rw [hread, StateT.run_bind, hinner]
    rfl
  | take hinner _ ih =>
    refine .take ?_ ih
    rw [hread, StateT.run_bind, hinner]
    rfl

/-- The same where the doc comments that are left over at the end are forgotten. -/
theorem embed_cleared {inner : τ → SpannedToken → Reading (Step τ β)} (wrap : τ → σ)
    (next : β → Step σ α)
    (hmore : ∀ {state t pending state' pending'},
      (inner state t).run pending = .ok (.more state', pending') →
        (read (wrap state) t).run pending = .ok (.more (wrap state'), pending'))
    (hdone : ∀ {state t pending result pending'},
      (inner state t).run pending = .ok (.done result, pending') →
        (read (wrap state) t).run pending = .ok (next result, ""))
    {stateInner : τ} {result : β}
    (h : Reads docs inner place since (.more stateInner) tokens behind (.done result)) :
    Reads docs read place since (.more (wrap stateInner)) tokens (place + tokens.length)
      (next result) := by
  generalize hfirst : Step.more stateInner = firstInner at h
  generalize hlast : Step.done result = lastInner at h
  induction h generalizing stateInner with
  | refl =>
    rw [← hfirst] at hlast
    cases hlast
  | @keep place since behind state step last token rest hinner hrest ih =>
    obtain rfl := Step.more.inj hfirst
    rw [List.length_cons, ← Nat.add_assoc, Nat.add_right_comm]
    cases step with
    | more state => exact .keep (hmore hinner) (ih rfl hlast)
    | done found =>
      cases hrest
      cases hlast
      exact .take (hdone hinner) .refl
  | @take place since behind state step last token rest hinner hrest ih =>
    obtain rfl := Step.more.inj hfirst
    rw [List.length_cons, ← Nat.add_assoc, Nat.add_right_comm]
    cases step with
    | more state => exact .take (hmore hinner) (ih rfl hlast)
    | done found =>
      cases hrest
      cases hlast
      exact .take (hdone hinner) .refl

/-- A state that reads the next token as another one does. -/
theorem of_head {token : Token} {rest : List Token} {state' : σ}
    (h : Reads docs read place since (.more state) (token :: rest) behind last)
    (hread : ∀ pending, (read state' token.plain).run pending =
      (read state token.plain).run pending) :
    Reads docs read place since (.more state') (token :: rest) behind last := by
  cases h with
  | keep hstate hrest => exact .keep ((hread _).trans hstate) hrest
  | take hstate hrest => exact .take ((hread _).trans hstate) hrest

/-- A state that reads the next token as another one does without doc comments in front. -/
theorem of_head_used {token : Token} {rest : List Token} {state' : σ}
    (h : Reads docs read place (place + 1) (.more state) (token :: rest) behind last)
    (hread : (read state' token.plain).run (docs.between since (place + 1)) =
      (read state token.plain).run "") :
    Reads docs read place since (.more state') (token :: rest) behind last := by
  rw [← docs.between_self (place + 1)] at hread
  cases h with
  | keep hstate hrest =>
    rw [docs.between_self] at hstate hread
    exact .take (hread.trans hstate) hrest
  | take hstate hrest => exact .take (hread.trans hstate) hrest

end Reads

/-! ### Texts -/

section

variable {t : SpannedToken} {tokens : List SpannedToken} {comment : String}

theorem docTextsOf_docComment_zero (h : t.token = .docComment comment) :
    docTextsOf (t :: tokens) 0 = docBody comment ++ docTextsOf tokens 0 := by
  simp only [docTextsOf, h]

theorem docTextsOf_docComment_succ (h : t.token = .docComment comment) (place : Nat) :
    docTextsOf (t :: tokens) (place + 1) = docTextsOf tokens (place + 1) := by
  simp only [docTextsOf, h]

theorem docTextsOf_token_zero (h : t.token.isDocComment = false) :
    docTextsOf (t :: tokens) 0 = "" := by
  obtain ⟨token, span⟩ := t
  cases token with
  | docComment comment => cases h
  | _ => simp only [docTextsOf]

theorem docTextsOf_token_succ (h : t.token.isDocComment = false) (place : Nat) :
    docTextsOf (t :: tokens) (place + 1) = docTextsOf tokens place := by
  obtain ⟨token, span⟩ := t
  cases token with
  | docComment comment => cases h
  | _ => simp only [docTextsOf]

end

namespace DocumentReader

/-- Reads one token of a document; a document is never complete before the end of the input. -/
def readStep (limit : Nat) (state : State) (t : SpannedToken) : Reading (Step State Empty) :=
  Step.more <$> read limit state t

theorem run_readStep (limit : Nat) (state : State) (t : SpannedToken) (pending : String) :
    (readStep limit state t).run pending =
      ((read limit state t).run pending).map fun result => (.more result.1, result.2) := by
  rw [readStep, StateT.run_map]
  rfl

theorem run_read_of_readStep {limit : Nat} {state : State} {t : SpannedToken} {pending : String}
    {step : Step State Empty} {pending' : String}
    (h : (readStep limit state t).run pending = .ok (step, pending')) :
    ∃ next, step = .more next ∧ (read limit state t).run pending = .ok (next, pending') := by
  rw [run_readStep] at h
  cases hread : (read limit state t).run pending with
  | error e =>
    rw [hread] at h
    cases h
  | ok result =>
    rw [hread] at h
    cases h
    exact ⟨_, rfl, rfl⟩

/-- The tokens of a text are read as its sentence with its doc texts, wherever they stand. -/
theorem run_readItems_of_reads {docs : DocTexts} {limit : Nat} {tokens : List SpannedToken}
    {place since behind : Nat} {state last : State} {pending : String}
    (h : Reads docs (readStep limit) place since (.more state) (sentence tokens) behind
      (.more last))
    (hsince : since ≤ place)
    (hpending : pending ++ docTextsOf tokens 0 = docs.between since (place + 1))
    (hdocs : ∀ further, docTextsOf tokens (further + 1) = docs (place + (further + 1))) :
    ∃ pending', (readItems limit state (tokens.map fun t => .ok t.token.plain)).run pending =
      .ok (last, pending') := by
  induction tokens generalizing place since state pending with
  | nil =>
    cases h
    exact ⟨pending, rfl⟩
  | cons t tokens ih =>
    rw [List.map_cons, readItems, List.foldlM_cons, StateT.run_bind]
    cases hdoc : t.token.isDocComment with
    | true =>
      obtain ⟨comment, hcomment⟩ := Token.isDocComment_iff.1 hdoc
      have hplain : t.token.plain.token = .docComment comment := hcomment
      have hsentence : sentence (t :: tokens) = sentence tokens := by simp [sentence, hdoc]
      rw [hsentence] at h
      rw [docTextsOf_docComment_zero hcomment, ← String.append_assoc] at hpending
      rw [readItem_of_docComment hplain]
      exact ih h hsince hpending fun further =>
        (docTextsOf_docComment_succ hcomment further).symm.trans (hdocs further)
    | false =>
      have hsentence : sentence (t :: tokens) = t.token :: sentence tokens := by
        simp [sentence, hdoc]
      rw [hsentence] at h
      rw [docTextsOf_token_zero hdoc, String.append_empty] at hpending
      have hplain : t.token.plain.token.isDocComment = false := hdoc
      rw [readItem_of_isDocComment_eq_false hplain, hpending]
      -- Behind the token doc comments are pending since the same place, or since this one.
      have hnext {since' : Nat} (hsince : since' ≤ place + 1) :
          docs.between since' (place + 1) ++ docTextsOf tokens 0 =
            docs.between since' (place + 1 + 1) := by
        rw [docs.between_succ hsince, ← docTextsOf_token_succ hdoc, hdocs]
      have hdocs' (further : Nat) :
          docTextsOf tokens (further + 1) = docs (place + 1 + (further + 1)) := by
        rw [← docTextsOf_token_succ hdoc, hdocs, Nat.add_assoc place 1, Nat.add_comm 1]
      cases h with
      | keep hread hrest =>
        obtain ⟨next, rfl, hnextRead⟩ := run_read_of_readStep hread
        rw [hnextRead]
        exact ih hrest (by omega) (hnext (by omega)) hdocs'
      | take hread hrest =>
        obtain ⟨next, rfl, hnextRead⟩ := run_read_of_readStep hread
        rw [hnextRead]
        refine ih hrest (Nat.le_refl _) ?_ hdocs'
        rw [← hnext (Nat.le_refl _), docs.between_self]

end DocumentReader

end ServiceIdl
