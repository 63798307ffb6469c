import ServiceIdl.Proofs.Lexing.Positions
import ServiceIdl.Proofs.Lexing.Requests

/-!
# Where a lexer fails

Behind the tokens that a lexer has handed out stands a run of trivia, which may be empty. The lexer
fails at the next request exactly if a fault stands behind the whole run, and it names this fault
and the stretch of text that it takes.
-/

namespace ServiceIdl

/-! ### Whole runs of trivia -/

/-- Trivia in front of a text that does not start with a further piece of trivia. -/
structure IsWholeTrivia (gap rest : List Char) : Prop where
  isTrivia : IsTrivia gap rest
  whole : ∀ piece behind, rest = piece ++ behind → ¬IsTriviaPiece piece behind

/-- A text whose first piece is no trivia does not start with trivia. -/
theorem isWholeTrivia_nil {strict : Bool} {c : Char} {text : List Char}
    (h : (Piece.head strict c text).kind ≠ .trivia) : IsWholeTrivia [] (c :: text) where
  isTrivia := .nil
  whole piece behind happend hpiece := by
    have hfits : (⟨.trivia, piece, behind⟩ : Piece).Fits strict := hpiece
    rw [Piece.head_eq_iff.2 ⟨happend.symm, hfits⟩] at h
    exact h rfl

/-- The run of trivia at the head of a text, up to the first piece that is no trivia. -/
theorem exists_isWholeTrivia (text : List Char) :
    ∃ gap rest, text = gap ++ rest ∧ IsWholeTrivia gap rest := by
  induction hlength : text.length using Nat.strongRecOn generalizing text with
  | _ length ih =>
    cases text with
    | nil =>
      refine ⟨[], [], rfl, .nil, fun piece behind happend hpiece => hpiece.ne_nil ?_⟩
      exact (List.append_eq_nil_iff.1 happend.symm).1
    | cons c text =>
      by_cases hkind : (Piece.head false c text).kind = .trivia
      · obtain ⟨happend, hfits⟩ := Piece.head_eq_iff.1 (rfl : Piece.head false c text = _)
        rw [Piece.Fits, hkind] at hfits
        have hless := Piece.length_rest_head_lt false c text
        rw [hlength] at hless
        obtain ⟨gap, rest, hrest, htrivia, hwhole⟩ := ih _ hless _ rfl
        rw [hrest] at hfits happend
        refine ⟨(Piece.head false c text).text ++ gap, rest, ?_, .cons hfits htrivia, hwhole⟩
        rw [List.append_assoc, happend]
      · exact ⟨[], c :: text, rfl, isWholeTrivia_nil hkind⟩

/-! ### One scan -/

namespace Cursor

variable {strict : Bool} {p : Position} {gap rest : List Char}

theorem scan_nil : scan strict ⟨p, []⟩ = .ending (.endOfInput (.between p p)) := by
  rw [scan]

/-- A scan does with the piece at its head what the kind of the piece says. -/
theorem scan_of_fits {piece : Piece} (h : piece.Fits strict) :
    scan strict ⟨p, piece.text ++ piece.rest⟩ =
      match piece.kind with
      | .trivia => scan strict ⟨p.after piece.text, piece.rest⟩
      | .token token =>
        .token ⟨token, .between p (p.after piece.text)⟩ ⟨p.after piece.text, piece.rest⟩
      | .fault fault => .ending (.fault ⟨fault, .between p (p.after piece.text)⟩) := by
  obtain ⟨c, text, htext⟩ := List.exists_cons_of_ne_nil h.text_ne_nil
  have happend : piece.text ++ piece.rest = c :: (text ++ piece.rest) := by
    rw [htext, List.cons_append]
  have hhead := Piece.head_eq_iff.2 ⟨happend, h⟩
  rw [happend, scan]
  cases hkind : piece.kind <;> simp only [hhead, hkind]

/-- A scan passes over trivia. -/
theorem scan_of_isTrivia (h : IsTrivia gap rest) :
    scan strict ⟨p, gap ++ rest⟩ = scan strict ⟨p.after gap, rest⟩ := by
  induction h generalizing p with
  | nil => rfl
  | @cons piece gap rest hpiece _ ih =>
    have hfits : (⟨.trivia, piece, gap ++ rest⟩ : Piece).Fits strict := hpiece
    rw [List.append_assoc, Position.after_append, ← ih]
    exact scan_of_fits hfits

/-- Where no trivia stand, a scan fails exactly if a fault stands there. -/
theorem scan_eq_fault_iff
    (hwhole : ∀ piece behind, rest = piece ++ behind → ¬IsTriviaPiece piece behind)
    {fault : LexFault} {span : Span} :
    scan strict ⟨p, rest⟩ = .ending (.fault ⟨fault, span⟩) ↔ ∃ stretch behind,
      rest = stretch ++ behind ∧ fault.StandsAt strict stretch behind ∧
        span = .between p (p.after stretch) := by
  constructor
  · intro h
    cases rest with
    | nil =>
      rw [scan_nil] at h
      cases h
    | cons c text =>
      obtain ⟨happend, hfits⟩ := Piece.head_eq_iff.1 (rfl : Piece.head strict c text = _)
      rw [← happend, scan_of_fits hfits] at h
      generalize Piece.head strict c text = piece at h happend hfits
      obtain ⟨kind, stretch, behind⟩ := piece
      cases kind with
      | trivia => exact absurd hfits (hwhole _ _ happend.symm)
      | token token => cases h
      | fault found =>
        cases h
        exact ⟨stretch, behind, happend.symm, hfits, rfl⟩
  · rintro ⟨stretch, behind, rfl, hfault, rfl⟩
    have hfits : (⟨.fault fault, stretch, behind⟩ : Piece).Fits strict := hfault
    exact scan_of_fits hfits

/-- A scan that finds a token leaves what stands behind that token. -/
theorem of_scan_eq_token {cursor next : Cursor} {t : SpannedToken}
    (h : scan strict cursor = .token t next) :
    ∃ passed, cursor.rest = passed ++ next.rest ∧
      next.position = cursor.position.after passed ∧ t.span.stop = next.position.offset := by
  fun_induction scan strict cursor with
  | case1 => cases h
  | case2 position c text piece behind hkind ih =>
    obtain ⟨passed, hrest, hposition, hstop⟩ := ih h
    have hpiece : piece.text ++ piece.rest = c :: text := Piece.text_append_rest_head strict c text
    refine ⟨piece.text ++ passed, ?_, ?_, hstop⟩
    · rw [← hpiece, List.append_assoc, ← hrest]
    · rw [hposition, Position.after_append]
  | case3 position c text piece behind found hkind =>
    cases h
    exact ⟨piece.text, (Piece.text_append_rest_head strict c text).symm, rfl, rfl⟩
  | case4 => cases h

/-- A scan that finds no token and no fault ends behind the whole text. -/
theorem stop_of_scan_eq_endOfInput {cursor : Cursor} {span : Span}
    (h : scan strict cursor = .ending (.endOfInput span)) :
    span.stop = cursor.position.offset + utf8Length cursor.rest := by
  fun_induction scan strict cursor with
  | case1 position =>
    cases h
    rfl
  | case2 position c text piece behind hkind ih =>
    have hpiece : piece.text ++ piece.rest = c :: text := Piece.text_append_rest_head strict c text
    rw [ih h, ← hpiece, utf8Length_append, Position.offset_after, Nat.add_assoc]
  | case3 => cases h
  | case4 => cases h

end Cursor

/-! ### Lexers -/

namespace Lexer

/-- A lexer that is asked in one way or the other hands out tokens, and then it is another one. -/
inductive HandsOut (lexer : Lexer) : List SpannedToken → Lexer → Prop where
  | nothing : HandsOut lexer [] lexer
  | further {tokens : List SpannedToken} {between next : Lexer} {request : Request}
      {t : SpannedToken} (h : HandsOut lexer tokens between)
      (hanswer : between.answer request = (some (.ok t), next)) :
      HandsOut lexer (tokens ++ [t]) next

/-- A lexer has handed out the tokens in the first part of a source text. -/
def StandsBehind (strict : Bool) (source before : List Char) : Lexer → Prop
  | reading strict' cursor =>
    strict' = strict ∧ cursor.position = Position.start.after before ∧
      source = before ++ cursor.rest
  | ended (.endOfInput span) => before = source ∧ span.stop = utf8Length source
  | ended (.fault _) => False

variable {strict : Bool} {source before : List Char} {lexer next : Lexer} {t : SpannedToken}

/-- A lexer that hands out a token stands behind that token. -/
theorem StandsBehind.answer {request : Request} (h : lexer.StandsBehind strict source before)
    (hanswer : lexer.answer request = (some (.ok t), next)) :
    ∃ passed, next.StandsBehind strict source passed ∧ utf8Length passed = t.span.stop := by
  cases lexer with
  | ended ending =>
    cases ending with
    | fault error => exact absurd h id
    | endOfInput span =>
      cases request with
      | next => cases hanswer
      | nextToken =>
        cases hanswer
        exact ⟨source, ⟨rfl, h.2⟩, h.2.symm⟩
  | reading strict' cursor =>
    obtain ⟨rfl, hposition, rfl⟩ := h
    -- Both kinds of request scan once, with the same outcome.
    have hread : (reading strict' cursor).nextToken = (.ok t, next) := by
      cases request <;>
      · obtain ⟨hitem, hnext⟩ := Prod.mk.inj hanswer
        exact Prod.ext (Option.some.inj hitem) hnext
    rw [nextToken] at hread
    split at hread
    · next found cursor' hscan =>
      cases hread
      obtain ⟨passed, hrest, hposition', hstop⟩ := Cursor.of_scan_eq_token hscan
      rw [hposition, ← Position.after_append] at hposition'
      refine ⟨before ++ passed, ⟨rfl, hposition', ?_⟩, ?_⟩
      · rw [hrest, List.append_assoc]
      · rw [hstop, hposition', Position.offset_start_after]
    · next ending hscan =>
      cases ending with
      | fault error => cases hread
      | endOfInput span =>
        cases hread
        have hstop := Cursor.stop_of_scan_eq_endOfInput hscan
        rw [hposition, Position.offset_start_after, ← utf8Length_append] at hstop
        exact ⟨_, ⟨rfl, hstop⟩, hstop.symm⟩

/-- A lexer that has handed out tokens of a source text stands behind the last of them. -/
theorem HandsOut.exists_standsBehind {options : ParseOptions} {source : String}
    {tokens : List SpannedToken} (h : (ofSource options source).HandsOut tokens lexer) :
    ∃ before, lexer.StandsBehind options.strictNumbers source.toList before ∧
      utf8Length before = tokens.getLast?.elim 0 (·.span.stop) := by
  induction h with
  | nothing => exact ⟨[], ⟨rfl, rfl, rfl⟩, rfl⟩
  | further _ hanswer ih =>
    obtain ⟨before, hbehind, _⟩ := ih
    obtain ⟨passed, hpassed, hlength⟩ := hbehind.answer hanswer
    refine ⟨passed, hpassed, ?_⟩
    rw [hlength, List.getLast?_concat]
    rfl

end Lexer

/-- Of a source text, `gap` is the whole run of trivia behind the given tokens, of which the last
one ends behind `before`. -/
structure TriviaBehind (source : List Char) (tokens : List SpannedToken)
    (before gap rest : List Char) : Prop where
  source_eq : source = before ++ (gap ++ rest)
  before_length : utf8Length before = tokens.getLast?.elim 0 (·.span.stop)
  isWholeTrivia : IsWholeTrivia gap rest

namespace Lexer

variable {options : ParseOptions} {source : String} {tokens : List SpannedToken} {lexer : Lexer}
  {before gap rest : List Char}

theorem StandsBehind.exists_eq_append {strict : Bool} {source : List Char}
    (h : lexer.StandsBehind strict source before) : ∃ rest, source = before ++ rest := by
  cases lexer with
  | reading strict' cursor => exact ⟨cursor.rest, h.2.2⟩
  | ended ending =>
    cases ending with
    | endOfInput span => exact ⟨[], by rw [List.append_nil, h.1]⟩
    | fault error => exact absurd h id

theorem HandsOut.exists_triviaBehind (h : (ofSource options source).HandsOut tokens lexer) :
    ∃ before gap rest, TriviaBehind source.toList tokens before gap rest := by
  obtain ⟨before, hbehind, hlength⟩ := h.exists_standsBehind
  obtain ⟨rest, hsource⟩ := hbehind.exists_eq_append
  obtain ⟨gap, rest, rfl, hwhole⟩ := exists_isWholeTrivia rest
  exact ⟨before, gap, rest, hsource, hlength, hwhole⟩

/-- What stands behind the last token that was handed out has not been read. -/
theorem HandsOut.standsBehind (h : (ofSource options source).HandsOut tokens lexer)
    (htrivia : TriviaBehind source.toList tokens before gap rest) :
    lexer.StandsBehind options.strictNumbers source.toList before := by
  obtain ⟨passed, hbehind, hlength⟩ := h.exists_standsBehind
  obtain ⟨unread, hunread⟩ := hbehind.exists_eq_append
  have hpassed := splitBytes?_eq_some_iff.2 ⟨hunread, hlength⟩
  rw [splitBytes?_eq_some_iff.2 ⟨htrivia.source_eq, htrivia.before_length⟩] at hpassed
  obtain ⟨rfl, _⟩ := Prod.mk.inj (Option.some.inj hpassed)
  exact hbehind

theorem nextToken_reading_eq_error_iff {strict : Bool} {cursor : Cursor} {error : LexError} :
    (reading strict cursor).nextToken.1 = .error error ↔
      cursor.scan strict = .ending (.fault error) := by
  rw [nextToken]
  cases cursor.scan strict with
  | token t next => simp
  | ending ending => cases ending <;> simp [Ending.item]

/-- A lexer that stands before trivia fails exactly at a fault behind all of them. -/
theorem StandsBehind.nextToken_eq_error_iff {strict : Bool} {source : List Char}
    (h : lexer.StandsBehind strict source before) (hsource : source = before ++ (gap ++ rest))
    (hwhole : IsWholeTrivia gap rest) {fault : LexFault} {span : Span} :
    lexer.nextToken.1 = .error ⟨fault, span⟩ ↔ ∃ stretch behind, rest = stretch ++ behind ∧
      fault.StandsAt strict stretch behind ∧
        span.Covers source (before ++ gap) stretch behind := by
  cases lexer with
  | reading strict' cursor =>
    obtain ⟨position, text⟩ := cursor
    obtain ⟨rfl, rfl, htext⟩ := h
    obtain rfl : text = gap ++ rest := List.append_cancel_left (htext.symm.trans hsource)
    rw [nextToken_reading_eq_error_iff, Cursor.scan_of_isTrivia hwhole.isTrivia,
      Cursor.scan_eq_fault_iff hwhole.whole, ← Position.after_append]
    constructor
    · rintro ⟨stretch, behind, rfl, hfault, hspan⟩
      refine ⟨stretch, behind, rfl, hfault, ?_, hspan⟩
      rw [hsource, List.append_assoc]
    · rintro ⟨stretch, behind, hrest, hfault, hcovers⟩
      exact ⟨stretch, behind, hrest, hfault, hcovers.span_eq⟩
  | ended ending =>
    cases ending with
    | fault error => exact absurd h id
    | endOfInput span' =>
      -- The whole source text has been handed out, and no fault is empty.
      refine iff_of_false (fun hitem => by cases hitem) ?_
      rintro ⟨stretch, behind, rfl, hfault, _⟩
      rw [h.1, List.self_eq_append_right] at hsource
      have hfits : (⟨.fault fault, stretch, behind⟩ : Piece).Fits strict := hfault
      exact hfits.text_ne_nil (List.append_eq_nil_iff.1 (List.append_eq_nil_iff.1 hsource).2).1

/-- Whatever tokens a lexer has handed out of a source text, it fails with the next one exactly if a
fault stands behind the whole run of trivia that follows them. The error is that fault, and its span
is that of the faulty stretch. -/
theorem fails_exactly_at_faults (h : (ofSource options source).HandsOut tokens lexer) :
    (∃ before gap rest, TriviaBehind source.toList tokens before gap rest) ∧
    ∀ before gap rest, TriviaBehind source.toList tokens before gap rest → ∀ fault span,
      (lexer.nextToken.1 = .error ⟨fault, span⟩ ↔ ∃ stretch behind, rest = stretch ++ behind ∧
        fault.StandsAt options.strictNumbers stretch behind ∧
          span.Covers source.toList (before ++ gap) stretch behind) := by
  refine ⟨h.exists_triviaBehind, fun before gap rest htrivia fault span => ?_⟩
  have hbehind := h.standsBehind htrivia
  exact hbehind.nextToken_eq_error_iff htrivia.source_eq htrivia.isWholeTrivia

/-- A comment that is not closed by the star that opens it, behind a quote in a comment. -/
theorem fails_exactly_at_faults_open_comment :
    ∃ lexer, (ofSource ⟨true, 64⟩ "a#'\r/*/").HandsOut
        [⟨.identifier "a", ⟨⟨1, 1, 0⟩, 1⟩⟩] lexer ∧
      TriviaBehind "a#'\r/*/".toList [⟨.identifier "a", ⟨⟨1, 1, 0⟩, 1⟩⟩]
        ['a'] ['#', '\'', '\r'] ['/', '*', '/'] ∧
      lexer.nextToken.1 = .error ⟨.unterminatedComment, ⟨⟨1, 5, 4⟩, 7⟩⟩ := by
  have hanswer : (ofSource ⟨true, 64⟩ "a#'\r/*/").answer .next =
      (some (.ok ⟨.identifier "a", ⟨⟨1, 1, 0⟩, 1⟩⟩),
        .reading true ⟨⟨1, 2, 1⟩, ['#', '\'', '\r', '/', '*', '/']⟩) := by decide +kernel
  have hhandsOut := HandsOut.further .nothing hanswer
  have hcomment : IsLineComment ['#', '\''] := by simp [IsLineComment, isLineEnd]
  have hgap : IsClosedTrivia (['#', '\''] ++ '\r' :: []) := .lineComment hcomment rfl .nil
  have hkind : (Piece.head true '/' ['*', '/']).kind ≠ .trivia := by decide
  have htrivia : TriviaBehind "a#'\r/*/".toList [⟨.identifier "a", ⟨⟨1, 1, 0⟩, 1⟩⟩]
      ['a'] ['#', '\'', '\r'] ['/', '*', '/'] :=
    ⟨by decide, rfl, hgap.isTrivia _, (isWholeTrivia_nil hkind).whole⟩
  have hopen : LexFault.unterminatedComment.StandsAt true ['/', '*', '/'] [] := by
    refine ⟨rfl, isOpenComment_iff.2 ⟨['/'], rfl, fun before behind happend => ?_⟩⟩
    have hlength := congrArg List.length happend
    simp at hlength
    omega
  refine ⟨_, hhandsOut, htrivia, ((fails_exactly_at_faults hhandsOut).2 _ _ _ htrivia _ _).2 ?_⟩
  exact ⟨_, [], rfl, hopen, by decide, rfl⟩

end Lexer

end ServiceIdl
