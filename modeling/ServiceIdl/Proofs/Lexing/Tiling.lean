import ServiceIdl.Proofs.Lexing.Piece
import ServiceIdl.Text.Slice
import ServiceIdl.Token.Stream

/-!
# The token stream tiles its source

A text is trivia and tokens in turn, up to its end or up to a fault. `Tiling` says so
without the scanner, and the stream of a text is the only one that tiles it. From this
follows where the tokens stand in terms of byte offsets.
-/

namespace ServiceIdl

/-- The text behind a position is trivia and the tokens of a stream in turn. -/
inductive Tiling (strict : Bool) : Position → List Char → TokenStream → Prop where
  | endOfInput {p : Position} {gap : List Char} (hgap : IsTrivia gap []) :
      Tiling strict p gap ⟨[], .endOfInput (.between (p.after gap) (p.after gap))⟩
  | fault {p : Position} {gap stretch rest : List Char} {fault : LexFault}
      (hgap : IsTrivia gap (stretch ++ rest)) (hfault : fault.StandsAt strict stretch rest) :
      Tiling strict p (gap ++ (stretch ++ rest))
        ⟨[], .fault ⟨fault, .between (p.after gap) ((p.after gap).after stretch)⟩⟩
  | token {p : Position} {gap rest : List Char} {token : Token} {stream : TokenStream}
      (hgap : IsTrivia gap (token.text.toList ++ rest)) (hlexeme : token.IsLexeme strict)
      (hends : token.EndsBefore rest)
      (hrest : Tiling strict ((p.after gap).after token.text.toList) rest stream) :
      Tiling strict p (gap ++ (token.text.toList ++ rest))
        (stream.cons
          ⟨token, .between (p.after gap) ((p.after gap).after token.text.toList)⟩)

namespace Tiling

variable {strict : Bool}

theorem cons_trivia {p : Position} {piece rest : List Char} {stream : TokenStream}
    (hpiece : IsTriviaPiece piece rest) (h : Tiling strict (p.after piece) rest stream) :
    Tiling strict p (piece ++ rest) stream := by
  cases h with
  | endOfInput hgap =>
    rw [← Position.after_append]
    exact .endOfInput (.cons (by simpa using hpiece) hgap)
  | fault hgap hfault =>
    rw [← Position.after_append, ← List.append_assoc]
    exact .fault (.cons hpiece hgap) hfault
  | token hgap hlexeme hends hrest =>
    rw [← Position.after_append p] at hrest ⊢
    rw [← List.append_assoc]
    exact .token (.cons hpiece hgap) hlexeme hends hrest

theorem cons_token {p : Position} {token : Token} {rest : List Char} {stream : TokenStream}
    (hlexeme : token.IsLexeme strict) (hends : token.EndsBefore rest)
    (h : Tiling strict (p.after token.text.toList) rest stream) :
    Tiling strict p (token.text.toList ++ rest)
      (stream.cons ⟨token, .between p (p.after token.text.toList)⟩) := by
  have hgap : IsTrivia [] (token.text.toList ++ rest) := .nil
  exact .token hgap hlexeme hends h

theorem of_fault {fault : LexFault} {stretch rest : List Char}
    (h : fault.StandsAt strict stretch rest) (p : Position) :
    Tiling strict p (stretch ++ rest) ⟨[], .fault ⟨fault, .between p (p.after stretch)⟩⟩ := by
  have hgap : IsTrivia [] (stretch ++ rest) := .nil
  exact .fault hgap h

end Tiling

theorem Piece.Fits.text_ne_nil {strict : Bool} {piece : Piece} (h : piece.Fits strict) :
    piece.text ≠ [] := by
  obtain ⟨kind, text, rest⟩ := piece
  cases kind with
  | trivia => exact IsTriviaPiece.ne_nil h
  | token token =>
    obtain ⟨rfl, hlexeme, _⟩ := h
    exact hlexeme.text_ne_nil
  | fault fault =>
    cases fault with
    | unexpectedChar c =>
      obtain ⟨rfl, _⟩ := h
      simp
    | unterminatedString =>
      obtain ⟨_, quote, body, rfl, _⟩ := h
      simp
    | unterminatedComment =>
      obtain ⟨body, rfl, _⟩ := isOpenComment_iff.1 h.2
      simp
    | invalidNumber digits =>
      obtain ⟨_, _, ⟨first, digits, rfl, _⟩, _⟩ := h
      simp

namespace TokenStream

variable {strict : Bool}

theorem tiling_fromCursor (cursor : Cursor) :
    Tiling strict cursor.position cursor.rest (fromCursor strict cursor) := by
  fun_induction fromCursor strict cursor with
  | case1 position => exact .endOfInput .nil
  | case2 position c text piece behind hkind ih =>
    obtain ⟨happend, hfits⟩ := Piece.head_eq_iff.1 (rfl : Piece.head strict c text = piece)
    rw [Piece.Fits, hkind] at hfits
    rw [← happend]
    exact ih.cons_trivia hfits
  | case3 position c text piece behind token hkind ih =>
    obtain ⟨happend, hfits⟩ := Piece.head_eq_iff.1 (rfl : Piece.head strict c text = piece)
    rw [Piece.Fits, hkind] at hfits
    obtain ⟨htext, hlexeme, hends⟩ := hfits
    have hbehind : behind = position.after token.text.toList := by rw [← htext]
    rw [hbehind] at ih ⊢
    rw [← happend, htext]
    exact .cons_token hlexeme hends ih
  | case4 position c text piece behind fault hkind =>
    obtain ⟨happend, hfits⟩ := Piece.head_eq_iff.1 (rfl : Piece.head strict c text = piece)
    rw [Piece.Fits, hkind] at hfits
    rw [← happend]
    exact .of_fault hfits position

private theorem fromCursor_of_fits {piece : Piece} (h : piece.Fits strict) (p : Position) :
    fromCursor strict ⟨p, piece.text ++ piece.rest⟩ =
      match piece.kind with
      | .trivia => fromCursor strict ⟨p.after piece.text, piece.rest⟩
      | .token token =>
        (fromCursor strict ⟨p.after piece.text, piece.rest⟩).cons
          ⟨token, .between p (p.after piece.text)⟩
      | .fault fault => ⟨[], .fault ⟨fault, .between p (p.after piece.text)⟩⟩ := by
  obtain ⟨c, text, htext⟩ := List.exists_cons_of_ne_nil h.text_ne_nil
  have happend : piece.text ++ piece.rest = c :: (text ++ piece.rest) := by
    rw [htext, List.cons_append]
  have hhead := Piece.head_eq_iff.2 ⟨happend, h⟩
  rw [happend, fromCursor]
  cases hkind : piece.kind <;> simp only [hhead, hkind]

theorem fromCursor_of_isTrivia {gap rest : List Char} (h : IsTrivia gap rest) (p : Position) :
    fromCursor strict ⟨p, gap ++ rest⟩ = fromCursor strict ⟨p.after gap, rest⟩ := by
  induction h generalizing p with
  | nil => rfl
  | @cons piece gap rest hpiece _ ih =>
    rw [List.append_assoc, Position.after_append, ← ih]
    have hfits : (⟨.trivia, piece, gap ++ rest⟩ : Piece).Fits strict := hpiece
    exact fromCursor_of_fits hfits p

/-- The stream from a cursor on is the only one that tiles what follows the cursor. -/
theorem tiling_iff {p : Position} {text : List Char} {stream : TokenStream} :
    Tiling strict p text stream ↔ fromCursor strict ⟨p, text⟩ = stream := by
  constructor
  · intro h
    induction h with
    | @endOfInput p gap hgap =>
      have hskip : fromCursor strict ⟨p, gap ++ []⟩ = fromCursor strict ⟨p.after gap, []⟩ :=
        fromCursor_of_isTrivia hgap p
      rw [List.append_nil] at hskip
      rw [hskip, fromCursor]
    | @fault p gap stretch rest fault hgap hfault =>
      rw [fromCursor_of_isTrivia hgap]
      have hfits : (⟨.fault fault, stretch, rest⟩ : Piece).Fits strict := hfault
      exact fromCursor_of_fits hfits (p.after gap)
    | @token p gap rest token stream hgap hlexeme hends _ ih =>
      rw [fromCursor_of_isTrivia hgap, ← ih]
      have hfits : (⟨.token token, token.text.toList, rest⟩ : Piece).Fits strict :=
        ⟨rfl, hlexeme, hends⟩
      exact fromCursor_of_fits hfits (p.after gap)
  · rintro rfl
    exact tiling_fromCursor ⟨p, text⟩

end TokenStream

/-! ### Byte offsets -/

/-- A token stands in a source text where its span says, and it is as long as it can be. -/
structure SpannedToken.StandsIn (strict : Bool) (source : List Char) (t : SpannedToken) :
    Prop where
  isLexeme : t.token.IsLexeme strict
  nonempty : t.span.start.offset < t.span.stop
  inBounds : t.span.stop ≤ utf8Length source
  slice : slice? source t.span.start.offset t.span.stop = some t.token.text.toList
  maximal : ∀ before rest, splitBytes? t.span.stop source = some (before, rest) →
    t.token.EndsBefore rest

/-- The text between two byte offsets of a source text is trivia. -/
def IsTriviaBetween (source : List Char) (first last : Nat) : Prop :=
  ∃ before gap rest, splitBytes? first source = some (before, gap ++ rest) ∧
    first + utf8Length gap = last ∧ IsTrivia gap rest

/-- Where a stream ends. -/
def Ending.span : Ending → Span
  | endOfInput span => span
  | fault error => error.span

namespace TokenStream

/-- The byte offsets around the text before, between and behind the tokens of a stream that
starts at the offset `first`. The text behind the last token ends where the stream ends. -/
def gaps (first : Nat) (stream : TokenStream) : List (Nat × Nat) :=
  (first :: stream.tokens.map (·.span.stop)).zip
    (stream.tokens.map (·.span.start.offset) ++ [stream.ending.span.start.offset])

/-- From the byte offset `first` on, a source text is trivia and the tokens of a stream in
turn, and the end of the input is the end of the source text. -/
structure Tiles (strict : Bool) (source : List Char) (first : Nat) (stream : TokenStream) :
    Prop where
  standsIn : ∀ t ∈ stream.tokens, t.StandsIn strict source
  behind : ∀ t ∈ stream.tokens, first ≤ t.span.start.offset
  ascending : stream.tokens.Pairwise fun t next => t.span.stop ≤ next.span.start.offset
  triviaBetween : ∀ gap ∈ stream.gaps first, IsTriviaBetween source gap.1 gap.2
  atEnd : ∀ span, stream.ending = .endOfInput span →
    span.start.offset = utf8Length source ∧ span.stop = utf8Length source

end TokenStream

private theorem isTriviaBetween_append {gap rest : List Char} (h : IsTrivia gap rest)
    (before : List Char) :
    IsTriviaBetween (before ++ (gap ++ rest)) (utf8Length before)
      (utf8Length before + utf8Length gap) :=
  ⟨before, gap, rest, splitBytes?_eq_some_iff.2 ⟨rfl, rfl⟩, rfl, h⟩

private theorem standsIn_append {strict : Bool} {before rest : List Char} {token : Token}
    {p : Position} (hp : p.offset = utf8Length before) (hlexeme : token.IsLexeme strict)
    (hends : token.EndsBefore rest) :
    SpannedToken.StandsIn strict (before ++ (token.text.toList ++ rest))
      ⟨token, .between p (p.after token.text.toList)⟩ := by
  have hstop : (p.after token.text.toList).offset =
      utf8Length before + utf8Length token.text.toList := by
    rw [Position.offset_after, hp]
  refine ⟨hlexeme, ?_, ?_, ?_, ?_⟩
  · have hne : utf8Length token.text.toList ≠ 0 :=
      mt utf8Length_eq_zero_iff.1 hlexeme.text_ne_nil
    simp only [Span.between, hstop, hp]
    omega
  · simp only [Span.between, hstop, utf8Length_append]
    omega
  · refine slice?_eq_some_iff.2 ⟨before, rest, ?_, hp.symm, ?_⟩
    · rw [List.append_assoc]
    · simp only [Span.between, hstop]
  · intro first behind hsplit
    have hcut : splitBytes? (p.after token.text.toList).offset
        (before ++ (token.text.toList ++ rest)) = some (before ++ token.text.toList, rest) := by
      refine splitBytes?_eq_some_iff.2 ⟨(List.append_assoc ..).symm, ?_⟩
      rw [utf8Length_append, hstop]
    simp only [Span.between, hcut, Option.some.injEq, Prod.mk.injEq] at hsplit
    rw [← hsplit.2]
    exact hends

/-- A tiling by characters is one by byte offsets, whatever stands before it. -/
theorem Tiling.tiles {strict : Bool} {p : Position} {text : List Char} {stream : TokenStream}
    (h : Tiling strict p text stream) (before : List Char) (hp : p.offset = utf8Length before) :
    stream.Tiles strict (before ++ text) p.offset := by
  induction h generalizing before with
  | @endOfInput p gap hgap =>
    have hend : (p.after gap).offset = utf8Length (before ++ gap) := by
      rw [Position.offset_after, hp, utf8Length_append]
    refine ⟨by simp, by simp, .nil, ?_, ?_⟩
    · intro pair hpair
      obtain rfl : pair = (p.offset, (p.after gap).offset) := by
        simpa [TokenStream.gaps, Ending.span, Span.between] using hpair
      have hbetween := isTriviaBetween_append hgap before
      rw [List.append_nil, ← utf8Length_append, ← hend, ← hp] at hbetween
      exact hbetween
    · rintro span ⟨⟩
      exact ⟨hend, hend⟩
  | @fault p gap stretch rest fault hgap hfault =>
    refine ⟨by simp, by simp, .nil, ?_, by simp⟩
    intro pair hpair
    obtain rfl : pair = (p.offset, (p.after gap).offset) := by
      simpa [TokenStream.gaps, Ending.span, Span.between] using hpair
    have hbetween := isTriviaBetween_append hgap before
    rw [← hp, ← Position.offset_after] at hbetween
    exact hbetween
  | @token p gap rest token stream hgap hlexeme hends _ ih =>
    have hgapEnd : (p.after gap).offset = utf8Length (before ++ gap) := by
      rw [Position.offset_after, hp, utf8Length_append]
    have hstop : ((p.after gap).after token.text.toList).offset =
        utf8Length (before ++ gap ++ token.text.toList) := by
      rw [Position.offset_after, hgapEnd, utf8Length_append _ token.text.toList]
    have hsource : before ++ (gap ++ (token.text.toList ++ rest)) =
        before ++ gap ++ token.text.toList ++ rest := by
      simp only [List.append_assoc]
    have htiles := ih _ hstop
    have hstands := standsIn_append hgapEnd hlexeme hends
    rw [← hsource] at htiles
    rw [List.append_assoc] at hstands
    refine ⟨?_, ?_, ?_, ?_, htiles.atEnd⟩
    · exact List.forall_mem_cons.2 ⟨hstands, htiles.standsIn⟩
    · have hfirst : p.offset ≤ (p.after gap).offset := by
        rw [Position.offset_after]
        exact Nat.le_add_right ..
      have hbehind : (p.after gap).offset ≤ ((p.after gap).after token.text.toList).offset := by
        rw [Position.offset_after _ token.text.toList]
        exact Nat.le_add_right ..
      refine List.forall_mem_cons.2 ⟨hfirst, fun t ht => ?_⟩
      exact hfirst.trans (hbehind.trans (htiles.behind t ht))
    · exact List.pairwise_cons.2 ⟨htiles.behind, htiles.ascending⟩
    · refine List.forall_mem_cons.2 ⟨?_, htiles.triviaBetween⟩
      have hbetween := isTriviaBetween_append hgap before
      rw [← hp, ← Position.offset_after] at hbetween
      exact hbetween

namespace TokenStream

/-- The tokens of a source text are lexemes. -/
theorem isLexeme_of_mem_ofSource {options : ParseOptions} {source : String} {t : SpannedToken}
    (ht : t ∈ (ofSource options source).tokens) : t.token.IsLexeme options.strictNumbers := by
  have hstands := ((tiling_fromCursor (.start source)).tiles [] rfl).standsIn t ht
  exact hstands.isLexeme

/-- The token stream of a source text tiles it. -/
theorem tiles_ofSource (options : ParseOptions) (source : String) :
    (ofSource options source).Tiles options.strictNumbers source.toList 0 :=
  (tiling_fromCursor (.start source)).tiles [] rfl

end TokenStream

end ServiceIdl
