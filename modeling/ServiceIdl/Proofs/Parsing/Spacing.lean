import Mathlib.Data.List.Chain
import ServiceIdl.Proofs.Lexing.Concatenation
import ServiceIdl.Proofs.Parsing.Writing

/-!
# Tokens with spacing between them

Between two tokens there may be trivia and doc comments, or nothing at all where the one does not go
on with the text of the other. Whatever is chosen, the tokens are those of the text.
-/

namespace ServiceIdl

/-- Closed trivia and documentation comments in any order. -/
inductive IsSpacing : List Char → Prop where
  | trivia {gap : List Char} (hgap : IsClosedTrivia gap) : IsSpacing gap
  | docComment {gap comment behind : List Char} (hgap : IsClosedTrivia gap)
      (hcomment : IsDocComment comment) (hbehind : IsSpacing behind) :
      IsSpacing (gap ++ (comment ++ behind))

/-- The text of a token may stand right behind another one, which it does not continue. -/
def Token.MayTouch (first second : Token) : Prop := first.EndsBefore second.text.toList

/-- A token with what is written behind it is not read together with the next one: there is
something between the two, or they may touch. -/
def KeptApart (first second : Token × List Char) : Prop :=
  first.2 = [] → first.1.MayTouch second.1

/-- Wherever a text stands, it is split into the given tokens and doc comments without a fault. -/
def SplitsInto (strict : Bool) (text : List Char) (tokens : List Token) : Prop :=
  ∀ p, ∃ read span, Tiling strict p text ⟨read, .endOfInput span⟩ ∧ sentence read = tokens

theorem IsSpacing.head {gap : List Char} (h : IsSpacing gap) {c : Char} (hc : gap.head? = some c) :
    isBlank c = true ∨ c = '#' ∨ c = '/' := by
  cases h with
  | trivia hgap => exact hgap.head hc
  | @docComment gap comment behind hgap hcomment =>
    cases gap with
    | nil =>
      obtain ⟨tail, rfl⟩ := hcomment.opening
      exact .inr (.inr (Option.some.inj hc).symm)
    | cons d gap => exact hgap.head hc

namespace Token.EndsBefore

variable {token : Token} {text gap rest : List Char}

theorem nil : token.EndsBefore [] := by
  simp [EndsBefore]

theorem append (h : token.EndsBefore text) (hne : text ≠ []) (rest : List Char) :
    token.EndsBefore (text ++ rest) := by
  intro c hc
  rw [List.head?_append_of_ne_nil _ hne] at hc
  exact h c hc

theorem spacing (hgap : IsSpacing gap) (hne : gap ≠ []) (rest : List Char) :
    token.EndsBefore (gap ++ rest) := by
  intro c hc
  rw [List.head?_append_of_ne_nil _ hne] at hc
  exact token.goesOnWith_eq_false (hgap.head hc)

end Token.EndsBefore

namespace SplitsInto

variable {strict : Bool} {text gap rest : List Char} {tokens : List Token}

theorem nil : SplitsInto strict [] [] :=
  fun _ => ⟨[], _, Tiling.endOfInput .nil, rfl⟩

theorem spacing (hgap : IsSpacing gap) (h : SplitsInto strict rest tokens) :
    SplitsInto strict (gap ++ rest) tokens := by
  induction hgap with
  | trivia hgap =>
    intro p
    obtain ⟨read, span, htiling, hread⟩ := h (p.after _)
    exact ⟨read, span, htiling.append_trivia (hgap.isTrivia rest), hread⟩
  | @docComment gap comment behind hgap hcomment _ ih =>
    rw [List.append_assoc, List.append_assoc]
    intro p
    obtain ⟨read, span, htiling, hread⟩ := ih ((p.after gap).after comment)
    have htext : (Token.docComment (String.ofList comment)).text.toList = comment := by
      simp [Token.text]
    rw [← htext] at htiling hcomment ⊢
    have hlexeme : (Token.docComment (String.ofList comment)).IsLexeme strict := hcomment
    have hends : (Token.docComment (String.ofList comment)).EndsBefore (behind ++ rest) :=
      fun c _ => rfl
    refine ⟨_, span, .token (hgap.isTrivia _) hlexeme hends htiling, ?_⟩
    simpa [sentence, Token.isDocComment] using hread

theorem token {token : Token} (hlexeme : token.IsLexeme strict)
    (hdoc : token.isDocComment = false) (hends : token.EndsBefore rest)
    (h : SplitsInto strict rest tokens) :
    SplitsInto strict (token.text.toList ++ rest) (token :: tokens) := by
  intro p
  obtain ⟨read, span, htiling, rfl⟩ := h (p.after token.text.toList)
  refine ⟨_, span, htiling.cons_token hlexeme hends, ?_⟩
  simp [sentence, hdoc]

/-- A text is split into tokens in one way only. -/
theorem unique {tokens' : List Token} (h : SplitsInto strict text tokens)
    (h' : SplitsInto strict text tokens') : tokens = tokens' := by
  obtain ⟨read, span, htiling, rfl⟩ := h .start
  obtain ⟨read', span', htiling', rfl⟩ := h' .start
  rw [TokenStream.tiling_iff] at htiling htiling'
  rw [(TokenStream.mk.inj (htiling.symm.trans htiling')).1]

/-- The stream of a text that starts with a token. -/
theorem exists_ofSource_cons (options : ParseOptions) {token : Token}
    (hlexeme : token.IsLexeme options.strictNumbers) (hends : token.EndsBefore rest)
    (h : SplitsInto options.strictNumbers rest tokens) :
    ∃ span read span', TokenStream.ofSource options (String.ofList (token.text.toList ++ rest)) =
        ⟨⟨token, span⟩ :: read, .endOfInput span'⟩ ∧ sentence read = tokens := by
  obtain ⟨read, span, htiling, hread⟩ := h (Position.start.after token.text.toList)
  refine ⟨.between .start (Position.start.after token.text.toList), read, span, ?_, hread⟩
  rw [TokenStream.ofSource, Cursor.start, String.toList_ofList]
  exact TokenStream.tiling_iff.1 (htiling.cons_token hlexeme hends)

end SplitsInto

/-- Written tokens that are kept apart are read back, whatever spacing stands behind each. -/
theorem splitsInto_renderTokens {strict : Bool} {entries : List (Token × List Char)}
    (hwritable : IsWritable strict (entries.map (·.1)))
    (hspacing : ∀ entry ∈ entries, IsSpacing entry.2) (hapart : entries.IsChain KeptApart) :
    SplitsInto strict (renderTokens entries) (entries.map (·.1)) := by
  induction entries with
  | nil => exact .nil
  | cons entry entries ih =>
    obtain ⟨token, gap⟩ := entry
    obtain ⟨⟨hlexeme, hdoc⟩, htokens⟩ := isWritable_cons.1 hwritable
    obtain ⟨hgap, hgaps⟩ := List.forall_mem_cons.1 hspacing
    have hends : token.EndsBefore (gap ++ renderTokens entries) := by
      by_cases hnil : gap = []
      · subst hnil
        cases entries with
        | nil => exact .nil
        | cons next entries =>
          have hnext : token.EndsBefore _ := (List.isChain_cons_cons.1 hapart).1 rfl
          have hne := (isWritable_cons.1 htokens).1.1.text_ne_nil
          rw [renderTokens, List.flatMap_cons, List.nil_append, List.append_assoc]
          exact hnext.append hne _
      · exact .spacing hgap hnil _
    rw [renderTokens, List.flatMap_cons, List.append_assoc]
    exact .token hlexeme hdoc hends (.spacing hgap (ih htokens hgaps hapart.of_cons))

end ServiceIdl
