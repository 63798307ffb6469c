import Mathlib.Logic.Basic
import ServiceIdl.Proofs.Grammar.Syntax
import ServiceIdl.Proofs.Reading.Layout

/-!
# What a reader accepts

Without layout a reader is an automaton over tokens: a token takes a state to a step, or
is refused. A list of tokens is accepted with a result if reading it ends there.

## Main definitions

- `Reading.plain?`, `Token.plain`: reading without layout
- `Step.inside`: the step of a reader that runs inside another one
- `Accepts`: some tokens are read to their end and give a result
-/

namespace ServiceIdl

open Syntax (optionTokens)

variable {σ τ α β : Type}

/-- A token without layout. -/
def Token.plain (token : Token) : SpannedToken := ⟨token, ⟨.start, 0⟩⟩

@[simp] theorem Token.token_plain (token : Token) : token.plain.token = token := rfl

/-- The result of a reading without pending doc text, if it does not fail. -/
def Reading.plain? (reading : Reading α) : Option α :=
  (reading.run "").toOption.map Prod.fst

@[simp] theorem toOption_ok {ε : Type} (a : α) : (.ok a : Except ε α).toOption = some a := rfl

@[simp] theorem toOption_error {ε : Type} (e : ε) : (.error e : Except ε α).toOption = none := rfl

@[simp] theorem toOption_map {ε : Type} (f : α → β) (first : Except ε α) :
    (f <$> first).toOption = first.toOption.map f := by
  cases first <;> rfl

@[simp] theorem toOption_bind {ε : Type} (first : Except ε α) (next : α → Except ε β) :
    (first >>= next).toOption = first.toOption.bind fun a => (next a).toOption := by
  cases first <;> rfl

namespace Reading

@[simp] theorem plain?_pure (a : α) : Reading.plain? (pure a) = some a := rfl

@[simp] theorem plain?_throw (e : ParseError) :
    Reading.plain? (throw e : Reading α) = none := rfl

@[simp] theorem plain?_lift (first : Except ParseError α) :
    Reading.plain? (liftM first) = first.toOption := by
  cases first <;> rfl

@[simp] theorem plain?_map (f : α → β) (first : Reading α) :
    Reading.plain? (f <$> first) = first.plain?.map f := by
  simp only [plain?, StateT.run_map]
  cases first.run "" <;> rfl

@[simp] theorem plain?_lift_bind (first : Except ParseError α) (next : α → Reading β) :
    Reading.plain? (liftM first >>= next) = first.toOption.bind fun a => (next a).plain? := by
  cases first <;> rfl

@[simp] theorem plain?_takeDoc : takeDoc.plain? = some "" := rfl

@[simp] theorem plain?_takeDoc_bind (next : String → Reading α) :
    Reading.plain? (takeDoc >>= next) = (next "").plain? := rfl

@[simp] theorem plain?_clearDoc_bind (next : Unit → Reading α) :
    Reading.plain? (clearDoc >>= next) = (next ()).plain? := rfl

/-- What is done with a result without failing and without looking at doc text. -/
theorem plain?_bind_of_pure {first : Reading α} {next : α → Reading β} {f : α → β}
    (h : ∀ a pending, ∃ pending', (next a).run pending = .ok (f a, pending')) :
    Reading.plain? (first >>= next) = first.plain?.map f := by
  simp only [plain?, StateT.run_bind]
  cases first.run "" with
  | error e => rfl
  | ok result =>
    obtain ⟨pending', hnext⟩ := h result.1 result.2
    simp [bind, Except.bind, hnext]

theorem plain?_bind_eq_none {first : Reading α} (h : first.plain? = none)
    (next : α → Reading β) : Reading.plain? (first >>= next) = none := by
  simp only [plain?, StateT.run_bind] at h ⊢
  cases hrun : first.run "" with
  | error e => rfl
  | ok result =>
    rw [hrun] at h
    cases h

end Reading

namespace SpannedToken

variable {token : Token}

@[simp] theorem toOption_expectSymbol_eq_some_iff {s : Symbol} {u : Unit} :
    (token.plain.expectSymbol s).toOption = some u ↔ token = .symbol s := by
  by_cases h : token = .symbol s <;> simp [expectSymbol, h]

@[simp] theorem toOption_expectIdentifier_eq_some_iff {name : String} :
    token.plain.expectIdentifier.toOption = some name ↔ token = .identifier name := by
  cases token <;> simp [expectIdentifier]

end SpannedToken

/-- The step of a reader that runs inside another one. The outer reader wraps the states
of the inner one, and goes on with its result. -/
def Step.inside (wrap : σ → τ) (next : α → Step τ β) : Step σ α → Step τ β
  | .more state => .more (wrap state)
  | .done result => next result

theorem toOption_bind_inside {ε : Type} {first : Except ε (Step σ α)}
    {behind : Step σ α → Except ε (Step τ β)} (wrap : σ → τ) (next : α → Step τ β)
    (h : ∀ step, behind step = .ok (step.inside wrap next)) :
    (first >>= behind).toOption = first.toOption.map (.inside wrap next) := by
  cases first with
  | error e => rfl
  | ok step => exact congrArg Except.toOption (h step)

/-- The tokens are read behind the step, all of them, and give the result. -/
def Accepts (read : σ → Token → Option (Step σ α)) : Step σ α → List Token → α → Prop
  | .done found, tokens, result => tokens = [] ∧ found = result
  | .more _, [], _ => False
  | .more state, token :: rest, result =>
    match read state token with
    | none => False
    | some step => Accepts read step rest result

section

variable {read : σ → Token → Option (Step σ α)} {state : σ} {tokens : List Token} {result : α}

@[simp] theorem accepts_done_iff {found : α} :
    Accepts read (.done found) tokens result ↔ tokens = [] ∧ found = result := by
  rw [Accepts]

@[simp] theorem not_accepts_nil : ¬Accepts read (.more state) [] result := by
  simp [Accepts]

theorem accepts_cons_iff {token : Token} {rest : List Token} :
    Accepts read (.more state) (token :: rest) result ↔
      ∃ step, read state token = some step ∧ Accepts read step rest result := by
  rw [Accepts]
  cases read state token <;> simp

theorem accepts_more_iff :
    Accepts read (.more state) tokens result ↔ ∃ token rest step, tokens = token :: rest ∧
      read state token = some step ∧ Accepts read step rest result := by
  cases tokens with
  | nil => simp
  | cons token rest =>
    rw [accepts_cons_iff]
    constructor
    · rintro ⟨step, hstep, haccepts⟩
      exact ⟨token, rest, step, rfl, hstep, haccepts⟩
    · rintro ⟨_, _, step, ⟨⟩, hstep, haccepts⟩
      exact ⟨step, hstep, haccepts⟩

/-- Tokens are accepted with one result only. -/
theorem Accepts.unique {step : Step σ α} {result' : α} (h : Accepts read step tokens result)
    (h' : Accepts read step tokens result') : result = result' := by
  induction tokens generalizing step with
  | nil =>
    cases step with
    | more state => exact absurd h not_accepts_nil
    | done found => exact h.2.symm.trans h'.2
  | cons token rest ih =>
    cases step with
    | more state =>
      obtain ⟨step, hstep, haccepts⟩ := accepts_cons_iff.1 h
      obtain ⟨step', hstep', haccepts'⟩ := accepts_cons_iff.1 h'
      obtain rfl : step = step' := Option.some.inj (hstep.symm.trans hstep')
      exact ih haccepts haccepts'
    | done found => cases h.1

/-- A state that goes on with tokens of one form only. -/
theorem accepts_iff_of_token {ι : Type} {tokenOf : ι → Token} {stepOf : ι → Step σ α}
    (h : ∀ token step, read state token = some step ↔
      ∃ i, token = tokenOf i ∧ stepOf i = step) :
    Accepts read (.more state) tokens result ↔
      ∃ i rest, tokens = tokenOf i :: rest ∧ Accepts read (stepOf i) rest result := by
  rw [accepts_more_iff]
  constructor
  · rintro ⟨token, rest, step, rfl, hread, haccepts⟩
    obtain ⟨i, rfl, rfl⟩ := (h token step).1 hread
    exact ⟨i, rest, rfl, haccepts⟩
  · rintro ⟨i, rest, rfl, haccepts⟩
    exact ⟨_, rest, _, rfl, (h _ _).2 ⟨i, rfl, rfl⟩, haccepts⟩

/-- A state that reads all that another one reads, and further tokens. -/
theorem accepts_iff_of_or {next : σ} {Further : Token → Step σ α → Prop}
    (h : ∀ token step, read state token = some step ↔
      Further token step ∨ read next token = some step) :
    Accepts read (.more state) tokens result ↔
      (∃ token rest step, tokens = token :: rest ∧ Further token step ∧
        Accepts read step rest result) ∨
      Accepts read (.more next) tokens result := by
  rw [accepts_more_iff, accepts_more_iff]
  simp only [h]
  constructor
  · rintro ⟨token, rest, step, rfl, hfurther | hnext, haccepts⟩
    · exact .inl ⟨token, rest, step, rfl, hfurther, haccepts⟩
    · exact .inr ⟨token, rest, step, rfl, hnext, haccepts⟩
  · rintro (⟨token, rest, step, rfl, hfurther, haccepts⟩ | ⟨token, rest, step, rfl, hnext, haccepts⟩)
    · exact ⟨token, rest, step, rfl, .inl hfurther, haccepts⟩
    · exact ⟨token, rest, step, rfl, .inr hnext, haccepts⟩

/-- A state that goes on with an optional token. -/
theorem accepts_iff_of_option {ι : Type} {tokenOf : ι → Token} (next : Option ι → σ)
    (h : ∀ token step, read state token = some step ↔
      (∃ i, token = tokenOf i ∧ .more (next (some i)) = step) ∨
        read (next none) token = some step) :
    Accepts read (.more state) tokens result ↔ ∃ (part : Option ι) (rest : List Token),
      tokens = optionTokens (fun i => [tokenOf i]) part ++ rest ∧
        Accepts read (.more (next part)) rest result := by
  rw [accepts_iff_of_or h]
  constructor
  · rintro (⟨_, rest, _, rfl, ⟨i, rfl, rfl⟩, haccepts⟩ | haccepts)
    · exact ⟨some i, rest, rfl, haccepts⟩
    · exact ⟨none, tokens, rfl, haccepts⟩
  · rintro ⟨_ | i, rest, rfl, haccepts⟩
    · exact .inr haccepts
    · exact .inl ⟨tokenOf i, rest, _, rfl, ⟨i, rfl, rfl⟩, haccepts⟩

/-- A state that goes on with one symbol only. -/
theorem accepts_iff_of_symbol {s : Symbol} {next : Step σ α}
    (h : ∀ token step, read state token = some step ↔ token = .symbol s ∧ next = step) :
    Accepts read (.more state) tokens result ↔
      ∃ rest, tokens = .symbol s :: rest ∧ Accepts read next rest result := by
  have hunit : ∀ token step, read state token = some step ↔
      ∃ _ : Unit, token = .symbol s ∧ next = step := by
    simpa using h
  simpa using accepts_iff_of_token hunit

end

/-- Where a reader runs inside another one, it reads a first part of the tokens, and the
outer reader goes on with its result. -/
theorem accepts_embed_iff {inner : σ → Token → Option (Step σ α)}
    {outer : τ → Token → Option (Step τ β)} (wrap : σ → τ) (next : α → Step τ β)
    (h : ∀ state token, outer (wrap state) token = (inner state token).map (.inside wrap next))
    {state : σ} {tokens : List Token} {result : β} :
    Accepts outer (.more (wrap state)) tokens result ↔ ∃ first rest found, tokens = first ++ rest ∧
      Accepts inner (.more state) first found ∧ Accepts outer (next found) rest result := by
  induction tokens generalizing state with
  | nil => simp [accepts_more_iff]
  | cons token tokens ih =>
    rw [accepts_cons_iff, h]
    constructor
    · rintro ⟨step, hstep, haccepts⟩
      obtain ⟨step, hinner, rfl⟩ := Option.map_eq_some_iff.1 hstep
      cases step with
      | more state =>
        obtain ⟨first, rest, found, rfl, hfirst, hrest⟩ := ih.1 haccepts
        exact ⟨token :: first, rest, found, rfl, accepts_cons_iff.2 ⟨_, hinner, hfirst⟩, hrest⟩
      | done found =>
        have hdone : Accepts inner (.done found) [] found := accepts_done_iff.2 ⟨rfl, rfl⟩
        exact ⟨[token], tokens, found, rfl, accepts_cons_iff.2 ⟨_, hinner, hdone⟩, haccepts⟩
    · rintro ⟨first, rest, found, happend, hfirst, hrest⟩
      obtain ⟨first', rest', step, rfl, hinner, haccepts⟩ := accepts_more_iff.1 hfirst
      simp only [List.cons_append, List.cons.injEq] at happend
      obtain ⟨rfl, rfl⟩ := happend
      refine ⟨_, by rw [hinner]; rfl, ?_⟩
      cases step with
      | more state => exact ih.2 ⟨rest', rest, found, rfl, haccepts, hrest⟩
      | done found' =>
        obtain ⟨rfl, rfl⟩ := accepts_done_iff.1 haccepts
        exact hrest

/-- A sequence of entries: if what is accepted behind some entries is an end, or one more
entry and what is accepted behind it, then it is a list of entries and an end. -/
theorem accepts_list_iff {γ ι : Type} {read : σ → Token → Option (Step σ α)} {result : α}
    (stateOf : γ → σ) {End : γ → List Token → Prop} {tokensOf : ι → List Token}
    {add : γ → ι → Option γ} (hne : ∀ entry, tokensOf entry ≠ [])
    (h : ∀ value tokens, Accepts read (.more (stateOf value)) tokens result ↔
      End value tokens ∨ ∃ entry rest value', tokens = tokensOf entry ++ rest ∧
        add value entry = some value' ∧ Accepts read (.more (stateOf value')) rest result)
    {value : γ} {tokens : List Token} :
    Accepts read (.more (stateOf value)) tokens result ↔
      ∃ (entries : List ι) (rest : List Token) (value' : γ),
        tokens = entries.flatMap tokensOf ++ rest ∧ entries.foldlM add value = some value' ∧
          End value' rest := by
  constructor
  · intro haccepts
    -- Every entry takes a token, so the entries are found by induction on the tokens.
    induction hn : tokens.length using Nat.strongRecOn generalizing value tokens with
    | _ n ih =>
      rcases (h value tokens).1 haccepts with hend | ⟨entry, rest, value', rfl, hadd, hrest⟩
      · exact ⟨[], tokens, value, rfl, rfl, hend⟩
      · have hpos := List.length_pos_iff.2 (hne entry)
        obtain ⟨entries, rest, value'', rfl, hfold, hend⟩ :=
          ih rest.length (by rw [← hn, List.length_append]; omega) hrest rfl
        refine ⟨entry :: entries, rest, value'', ?_, ?_, hend⟩
        · rw [List.flatMap_cons, List.append_assoc]
        · rw [List.foldlM_cons, hadd]
          exact hfold
  · rintro ⟨entries, rest, value', rfl, hfold, hend⟩
    induction entries generalizing value with
    | nil =>
      obtain rfl : value = value' := by simpa using hfold
      exact (h value rest).2 (.inl hend)
    | cons entry entries ih =>
      rw [List.foldlM_cons] at hfold
      obtain ⟨next, hadd, hfold⟩ := Option.bind_eq_some_iff.1 hfold
      refine (h value _).2 (.inr ⟨entry, _, next, ?_, hadd, ih hfold⟩)
      rw [List.flatMap_cons, List.append_assoc]

end ServiceIdl
