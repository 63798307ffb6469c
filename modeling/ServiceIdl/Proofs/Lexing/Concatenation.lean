import ServiceIdl.Proofs.Lexing.Tiling

/-!
# Token streams of texts one behind the other

A text behind a complete line has the tokens it has alone, only further down. So the
stream of two texts with a line feed between them is the one stream behind the other.
-/

namespace ServiceIdl

namespace Position

/-- The same place with a number of further lines and bytes before it. -/
def shift (lines bytes : Nat) (p : Position) : Position :=
  ⟨p.line + lines, p.col, p.offset + bytes⟩

theorem advance_shift (lines bytes : Nat) (p : Position) (c : Char) :
    (p.shift lines bytes).advance c = (p.advance c).shift lines bytes := by
  by_cases hc : c = '\n' <;>
    simp only [advance, shift, hc, if_true, if_false, Nat.add_right_comm]

theorem after_shift (lines bytes : Nat) (p : Position) (text : List Char) :
    (p.shift lines bytes).after text = (p.after text).shift lines bytes := by
  induction text generalizing p with
  | nil => rfl
  | cons c text ih => rw [after_cons, after_cons, advance_shift, ih]

theorem line_after (p : Position) (text : List Char) :
    (p.after text).line = p.line + text.count '\n' := by
  induction text generalizing p with
  | nil => rfl
  | cons c text ih =>
    rw [after_cons, ih, List.count_cons]
    by_cases hc : c = '\n'
    · simp only [advance, hc, if_true, beq_self_eq_true]
      omega
    · simp [advance, hc]

/-- Behind a text and a line feed, lines and bytes are counted from there on. -/
theorem advance_newline_after (p : Position) (text : List Char) :
    (p.after text).advance '\n' =
      ⟨p.line + (text.count '\n' + 1), 1, p.offset + (utf8Length text + 1)⟩ := by
  have hsize : Char.utf8Size '\n' = 1 := rfl
  simp only [advance, if_true, line_after, offset_after, hsize, Nat.add_assoc]

end Position

def Span.shift (lines bytes : Nat) (span : Span) : Span :=
  ⟨span.start.shift lines bytes, span.stop + bytes⟩

theorem Span.between_shift (lines bytes : Nat) (first last : Position) :
    Span.between (first.shift lines bytes) (last.shift lines bytes) =
      (Span.between first last).shift lines bytes := rfl

def SpannedToken.shift (lines bytes : Nat) (t : SpannedToken) : SpannedToken :=
  ⟨t.token, t.span.shift lines bytes⟩

def Ending.shift (lines bytes : Nat) : Ending → Ending
  | endOfInput span => endOfInput (span.shift lines bytes)
  | fault error => fault ⟨error.fault, error.span.shift lines bytes⟩

/-- What stands behind a token may be put in front of a further line. -/
theorem Token.EndsBefore.append_newline {token : Token} {rest : List Char}
    (h : token.EndsBefore rest) (more : List Char) :
    token.EndsBefore (rest ++ '\n' :: more) := by
  intro c hc
  cases rest with
  | cons d rest => exact h c hc
  | nil =>
    obtain rfl : '\n' = c := by simpa using hc
    cases token <;> rfl

namespace TokenStream

/-- The stream of the same text with further lines and bytes before it. -/
def shift (lines bytes : Nat) (stream : TokenStream) : TokenStream :=
  ⟨stream.tokens.map (·.shift lines bytes), stream.ending.shift lines bytes⟩

/-- A stream behind the tokens of another one, whose ending is dropped. -/
def append (first second : TokenStream) : TokenStream :=
  ⟨first.tokens ++ second.tokens, second.ending⟩

end TokenStream

namespace Tiling

variable {strict : Bool}

theorem append_trivia {p : Position} {gap rest : List Char} {stream : TokenStream}
    (hgap : IsTrivia gap rest) (h : Tiling strict (p.after gap) rest stream) :
    Tiling strict p (gap ++ rest) stream := by
  induction hgap generalizing p with
  | nil => exact h
  | cons hpiece _ ih =>
    rw [Position.after_append] at h
    rw [List.append_assoc]
    exact (ih h).cons_trivia hpiece

/-- A text in tokens stays one if there is further text before it. -/
theorem shift {p : Position} {text : List Char} {stream : TokenStream}
    (h : Tiling strict p text stream) (lines bytes : Nat) :
    Tiling strict (p.shift lines bytes) text (stream.shift lines bytes) := by
  induction h with
  | @endOfInput p gap hgap =>
    have htiling : Tiling strict (p.shift lines bytes) gap _ := .endOfInput hgap
    rwa [Position.after_shift, Span.between_shift] at htiling
  | @fault p gap stretch rest fault hgap hfault =>
    have htiling := Tiling.fault (p := p.shift lines bytes) hgap hfault
    rwa [Position.after_shift, Position.after_shift, Span.between_shift] at htiling
  | @token p gap rest token stream hgap hlexeme hends _ ih =>
    rw [← Position.after_shift, ← Position.after_shift] at ih
    have htiling := Tiling.token hgap hlexeme hends ih
    rwa [Position.after_shift, Position.after_shift, Span.between_shift] at htiling

/-- A text without a fault may be followed by a line feed and a further text. -/
theorem append_newline {p : Position} {first second : List Char} {stream stream' : TokenStream}
    (hfirst : Tiling strict p first stream) {span : Span} (hend : stream.ending = .endOfInput span)
    (hsecond : Tiling strict ((p.after first).advance '\n') second stream') :
    Tiling strict p (first ++ '\n' :: second) (stream.append stream') := by
  induction hfirst with
  | @endOfInput p gap hgap =>
    -- The line feed joins the trivia at the end of the first text.
    have hnewline : IsTriviaPiece ['\n'] second := .blank rfl
    exact (hsecond.cons_trivia hnewline).append_trivia (hgap.append_newline second)
  | fault => cases hend
  | @token p gap rest token stream hgap hlexeme hends _ ih =>
    rw [Position.after_append, Position.after_append] at hsecond
    have hgap' := hgap.append_newline second
    rw [List.append_assoc] at hgap'
    rw [List.append_assoc, List.append_assoc]
    exact .token hgap' hlexeme (hends.append_newline second) (ih hend hsecond)

end Tiling

namespace TokenStream

variable {strict : Bool}

/-- The stream of two texts with a line feed between them, if there is no fault in the first. -/
theorem ofSource_append_newline {options : ParseOptions} {first second : String} {span : Span}
    (hend : (ofSource options first).ending = .endOfInput span) :
    ofSource options (first ++ "\n" ++ second) =
      (ofSource options first).append ((ofSource options second).shift
        (first.toList.count '\n' + 1) (utf8Length first.toList + 1)) := by
  have hstream : Tiling options.strictNumbers _ _ (ofSource options second) :=
    tiling_fromCursor (.start second)
  have hsecond := hstream.shift (first.toList.count '\n' + 1) (utf8Length first.toList + 1)
  have hseam : (Cursor.start second).position.shift (first.toList.count '\n' + 1)
      (utf8Length first.toList + 1) = (Position.start.after first.toList).advance '\n' := by
    rw [Position.advance_newline_after]
    rfl
  rw [hseam] at hsecond
  have htiling := (tiling_fromCursor (.start first)).append_newline hend hsecond
  have htext : (first ++ "\n" ++ second).toList = first.toList ++ '\n' :: second.toList := by
    simp
  rw [ofSource, Cursor.start, htext]
  exact tiling_iff.1 htiling

end TokenStream

end ServiceIdl
