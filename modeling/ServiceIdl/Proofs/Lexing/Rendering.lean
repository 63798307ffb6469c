import ServiceIdl.Proofs.Lexing.Tiling

/-!
# Reading back written tokens

Tokens are written one behind the other with closed trivia around them. However the
trivia are chosen, reading gives the tokens back, as long as there are some between any
two tokens.
-/

namespace ServiceIdl

/-- The text of tokens, each with what is written behind it. -/
def renderTokens (entries : List (Token × List Char)) : List Char :=
  entries.flatMap fun entry => entry.1.text.toList ++ entry.2

/-- No token goes on with a character that trivia start with. -/
theorem Token.goesOnWith_eq_false {c : Char} (h : isBlank c = true ∨ c = '#' ∨ c = '/')
    (token : Token) : token.GoesOnWith c = false := by
  have hparts : isNamePart c = false ∧ isNumberPart c = false := by
    simp only [isBlank, Bool.or_eq_true, decide_eq_true_eq] at h
    rcases h with (((rfl | rfl) | rfl) | rfl) | rfl | rfl <;> exact ⟨rfl, rfl⟩
  cases token with
  | keyword | identifier => exact hparts.1
  | number => exact hparts.2
  | _ => rfl

theorem IsClosedTrivia.head {gap : List Char} (h : IsClosedTrivia gap) {c : Char}
    (hc : gap.head? = some c) : isBlank c = true ∨ c = '#' ∨ c = '/' := by
  cases h with
  | nil => simp at hc
  | blank hblank =>
    obtain rfl := Option.some.inj hc
    exact .inl hblank
  | lineComment hcomment =>
    obtain ⟨tail, rfl⟩ | ⟨tail, rfl⟩ := hcomment.1
    · exact .inr (.inl (Option.some.inj hc).symm)
    · exact .inr (.inr (Option.some.inj hc).symm)
  | blockComment hcomment =>
    obtain ⟨tail, rfl⟩ := hcomment.opening
    exact .inr (.inr (Option.some.inj hc).symm)

private theorem endsBefore_append {gap rest : List Char} (h : IsClosedTrivia gap)
    (hrest : gap = [] → rest = []) (token : Token) : token.EndsBefore (gap ++ rest) := by
  intro c hc
  cases gap with
  | nil =>
    rw [hrest rfl] at hc
    simp at hc
  | cons d gap => exact Token.goesOnWith_eq_false (h.head (by simpa using hc)) token

/-- What is written is tiled by tokens that are those written. -/
theorem exists_tiling_renderTokens {strict : Bool} {entries : List (Token × List Char)}
    (hentries : ∀ entry ∈ entries, entry.1.IsLexeme strict ∧ IsClosedTrivia entry.2)
    (hapart : ∀ entry ∈ entries.dropLast, entry.2 ≠ []) {gap : List Char}
    (hgap : IsClosedTrivia gap) (p : Position) :
    ∃ tokens span, Tiling strict p (gap ++ renderTokens entries) ⟨tokens, .endOfInput span⟩ ∧
      tokens.map (·.token) = entries.map (·.1) := by
  induction entries generalizing gap p with
  | nil =>
    refine ⟨[], .between (p.after gap) (p.after gap), ?_, rfl⟩
    rw [renderTokens, List.flatMap_nil, List.append_nil]
    exact .endOfInput (hgap.isTrivia [])
  | cons entry entries ih =>
    obtain ⟨token, behind⟩ := entry
    obtain ⟨⟨hlexeme, hbehind⟩, hothers⟩ := List.forall_mem_cons.1 hentries
    -- what is written behind the token is empty only if nothing follows it
    have hends : token.EndsBefore (behind ++ renderTokens entries) := by
      refine endsBefore_append hbehind ?_ token
      intro hnil
      cases entries with
      | nil => rfl
      | cons next entries => exact absurd hnil (hapart _ List.mem_cons_self)
    have hapart' : ∀ entry ∈ entries.dropLast, entry.2 ≠ [] := by
      intro entry hentry
      cases entries with
      | nil => simp at hentry
      | cons next entries => exact hapart entry (List.mem_cons_of_mem _ hentry)
    obtain ⟨tokens, span, htiling, htokens⟩ :=
      ih hothers hapart' hbehind ((p.after gap).after token.text.toList)
    have hwhole := Tiling.token (hgap.isTrivia _) hlexeme hends htiling
    rw [renderTokens, List.flatMap_cons, List.append_assoc]
    exact ⟨_, span, hwhole, congrArg (token :: ·) htokens⟩

/-- Tokens that are written with closed trivia around them, some of it between any two, are
read back. -/
theorem tokenize_renderTokens (options : ParseOptions) (first : List Char)
    (entries : List (Token × List Char)) (hfirst : IsClosedTrivia first)
    (hentries : ∀ entry ∈ entries,
      entry.1.IsLexeme options.strictNumbers ∧ IsClosedTrivia entry.2)
    (hapart : ∀ entry ∈ entries.dropLast, entry.2 ≠ []) :
    (tokenize options (String.ofList (first ++ renderTokens entries))).map
        (·.map (·.token)) =
      .ok (entries.map (·.1) ++ [.endOfInput]) := by
  obtain ⟨tokens, span, htiling, htokens⟩ :=
    exists_tiling_renderTokens hentries hapart hfirst .start
  have hstream : TokenStream.ofSource options (String.ofList (first ++ renderTokens entries)) =
      ⟨tokens, .endOfInput span⟩ := by
    rw [TokenStream.ofSource, Cursor.start, String.toList_ofList]
    exact TokenStream.tiling_iff.1 htiling
  rw [tokenize, hstream]
  simp only [Except.map, List.map_append, List.map_cons, List.map_nil, htokens]

/-- A short documentation comment and a string that holds the other quote, where a comment
with a quote and the opening of another comment stands between the two. -/
theorem tokenize_renderTokens_comment_string :
    IsDocComment "/***/".toList ∧ IsClosedTrivia "#\"/*\n".toList ∧ IsQuoted "'\"'".toList ∧
      (tokenize ⟨true, 0⟩ "/***/#\"/*\n'\"'").map (·.map (·.token)) =
        .ok [.docComment "/***/", .string "'\"'", .endOfInput] := by
  have hbody : IsCommentBody ['*'] := by
    have hsplit : Piece.splitCommentEnd? ['*', '*', '/'] = some (['*'], []) := rfl
    exact (Piece.splitCommentEnd?_eq_some_iff.1 hsplit).2
  have hdoc : IsDocComment "/***/".toList := (isDocComment_iff hbody).2 rfl
  have hgap : IsClosedTrivia "#\"/*\n".toList := by
    have hcomment : IsLineComment ['#', '"', '/', '*'] := ⟨.inl ⟨_, rfl⟩, by simp [isLineEnd]⟩
    exact .lineComment hcomment (by decide : isLineEnd '\n' = true) .nil
  have hquoted : IsQuoted "'\"'".toList := ⟨'\'', ['"'], rfl, rfl, by decide⟩
  refine ⟨hdoc, hgap, hquoted, ?_⟩
  refine tokenize_renderTokens ⟨true, 0⟩ []
    [(.docComment "/***/", "#\"/*\n".toList), (.string "'\"'", [])] .nil ?_ ?_
  · intro entry hentry
    simp only [List.mem_cons, List.not_mem_nil, or_false] at hentry
    rcases hentry with rfl | rfl
    · exact ⟨hdoc, hgap⟩
    · exact ⟨hquoted, .nil⟩
  · decide

end ServiceIdl
