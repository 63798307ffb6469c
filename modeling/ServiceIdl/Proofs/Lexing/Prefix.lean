import ServiceIdl.Proofs.Lexing.Tiling

/-!
# The text in front of a token

A text may be cut off in front of any of its tokens, or where it ends. What is left has the
tokens that stand there, and no fault: what follows a token or a comment can only keep it from
going on, and the end of the text does so as well.
-/

namespace ServiceIdl

theorem EndsLine.of_append {first second : List Char} (h : EndsLine (first ++ second)) :
    EndsLine first := by
  intro c hc
  exact h c (by rw [List.head?_append, hc, Option.some_or])

theorem Token.EndsBefore.of_append {token : Token} {first second : List Char}
    (h : token.EndsBefore (first ++ second)) : token.EndsBefore first := by
  intro c hc
  exact h c (by rw [List.head?_append, hc, Option.some_or])

theorem IsTriviaPiece.of_append {piece first second : List Char}
    (h : IsTriviaPiece piece (first ++ second)) : IsTriviaPiece piece first := by
  cases h with
  | blank hblank => exact .blank hblank
  | lineComment hcomment hends => exact .lineComment hcomment hends.of_append
  | blockComment hcomment hdoc => exact .blockComment hcomment hdoc

/-- Trivia stay trivia if the text behind them is cut off somewhere. -/
theorem IsTrivia.of_append {gap first second : List Char} (h : IsTrivia gap (first ++ second)) :
    IsTrivia gap first := by
  generalize hrest : first ++ second = rest at h
  induction h with
  | nil => exact .nil
  | cons hpiece _ ih =>
    refine .cons ?_ (ih hrest)
    rw [← hrest, ← List.append_assoc] at hpiece
    exact hpiece.of_append

/-- A text is cut off in front of a token, which may be the end of the input. -/
theorem Tiling.truncate {strict : Bool} {p : Position} {text : List Char} {stream : TokenStream}
    (h : Tiling strict p text stream) {tokens : List SpannedToken} {t : SpannedToken}
    {behind : List Item} (hitems : stream.items = tokens.map .ok ++ .ok t :: behind) :
    ∃ before rest span, text = before ++ rest ∧ t.span.start = p.after before ∧
      Tiling strict p before ⟨tokens, .endOfInput span⟩ := by
  induction h generalizing tokens with
  | @endOfInput p gap hgap =>
    -- The only element of the stream is the end of the input.
    cases tokens with
    | nil =>
      simp only [TokenStream.items, Ending.item, List.map_nil, List.nil_append, List.cons.injEq,
        Except.ok.injEq] at hitems
      obtain ⟨rfl, _⟩ := hitems
      exact ⟨gap, [], _, (List.append_nil gap).symm, rfl, .endOfInput hgap⟩
    | cons other tokens => simp [TokenStream.items] at hitems
  | fault => cases tokens <;> simp [TokenStream.items, Ending.item] at hitems
  | @token p gap rest token stream hgap hlexeme hends hrest ih =>
    have hcons : (stream.cons
        ⟨token, .between (p.after gap) ((p.after gap).after token.text.toList)⟩).items =
          .ok ⟨token, .between (p.after gap) ((p.after gap).after token.text.toList)⟩ ::
            stream.items := rfl
    rw [hcons] at hitems
    cases tokens with
    | nil =>
      obtain ⟨ht, _⟩ := List.cons.inj hitems
      obtain rfl := Except.ok.inj ht
      have hgap' : IsTrivia gap ([] ++ (token.text.toList ++ rest)) := hgap
      exact ⟨gap, _, _, rfl, rfl, .endOfInput hgap'.of_append⟩
    | cons other tokens =>
      obtain ⟨hother, htail⟩ := List.cons.inj hitems
      obtain rfl := Except.ok.inj hother
      obtain ⟨before, rest, span, rfl, hstart, htiling⟩ := ih htail
      rw [← List.append_assoc] at hgap
      refine ⟨gap ++ (token.text.toList ++ before), rest, span, ?_, ?_, ?_⟩
      · simp only [List.append_assoc]
      · rw [hstart, Position.after_append, Position.after_append]
      · exact .token hgap.of_append hlexeme hends.of_append htiling

/-- The text of a source in front of a token has the tokens before it. -/
theorem TokenStream.exists_ofSource_truncated {options : ParseOptions} {source : String}
    {tokens : List SpannedToken} {t : SpannedToken} {behind : List Item}
    (hitems : (ofSource options source).items = tokens.map .ok ++ .ok t :: behind) :
    ∃ before rest span,
      splitBytes? t.span.start.offset source.toList = some (before, rest) ∧
        ofSource options (String.ofList before) = ⟨tokens, .endOfInput span⟩ := by
  have htiling : Tiling options.strictNumbers _ _ (ofSource options source) :=
    tiling_fromCursor (.start source)
  obtain ⟨before, rest, span, htext, hstart, htruncated⟩ := htiling.truncate hitems
  have hsource : source.toList = before ++ rest := htext
  refine ⟨before, rest, span, ?_, ?_⟩
  · refine splitBytes?_eq_some_iff.2 ⟨hsource, ?_⟩
    rw [hstart, Position.offset_after]
    exact (Nat.zero_add _).symm
  · rw [ofSource, Cursor.start, String.toList_ofList]
    exact tiling_iff.1 htruncated

end ServiceIdl
