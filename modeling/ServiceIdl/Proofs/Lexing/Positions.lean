import Mathlib.Data.List.DropRight
import ServiceIdl.Proofs.Lexing.Concatenation

/-!
# Where the elements of a stream stand

Positions are counted while a text is scanned. Counted anew from the beginning of the source text,
the line of a position is one more than the number of line feeds before it, and its column one
more than the number of characters behind the last of them. So every element of a token stream
stands where its span says, and the stream ends behind all its tokens.

## Main definitions

- `Span.LocatedIn`: a span says rightly where a part of a source text stands
- `Span.Covers`: the span of a part of a source text
- `Item.span`, `Item.Reads`: where an element of a stream stands, and what it is read from
-/

namespace ServiceIdl

/-! ### Lines and columns -/

/-- From the beginning of a text an offset is the number of bytes before it. -/
theorem Position.offset_start_after (text : List Char) :
    (Position.start.after text).offset = utf8Length text := by
  rw [offset_after]
  exact Nat.zero_add _

/-- The column behind a text is one more than the number of characters in its last line. -/
theorem Position.col_after (text : List Char) :
    (Position.start.after text).col = 1 + (text.rtakeWhile (· ≠ '\n')).length := by
  induction text using List.reverseRecOn with
  | nil => rfl
  | append_singleton text c ih =>
    rw [after_append, after_cons, after_nil]
    by_cases hc : c = '\n'
    · rw [List.rtakeWhile_concat_neg _ _ _ (by simp [hc])]
      simp [advance, hc]
    · rw [List.rtakeWhile_concat_pos _ _ _ (by simp [hc]), List.length_append, ← Nat.add_assoc,
        ← ih]
      simp [advance, hc]

namespace Span

/-- A span says rightly where a part of a source text stands. It starts and ends between two
characters of the text, and its line and column are those of its start. -/
structure LocatedIn (source : List Char) (span : Span) : Prop where
  ordered : span.start.offset ≤ span.stop
  inBounds : span.stop ≤ utf8Length source
  start : ∃ before rest, splitBytes? span.start.offset source = some (before, rest) ∧
    span.start.line = 1 + before.count '\n' ∧
    span.start.col = 1 + (before.rtakeWhile (· ≠ '\n')).length
  stop : ∃ before rest, splitBytes? span.stop source = some (before, rest)

/-- The span of the part `text` of the source text `before ++ (text ++ rest)`. -/
structure Covers (span : Span) (source before text rest : List Char) : Prop where
  source_eq : source = before ++ (text ++ rest)
  span_eq : span = between (Position.start.after before) ((Position.start.after before).after text)

namespace Covers

variable {span : Span} {source before text rest : List Char}

theorem offset_eq (h : span.Covers source before text rest) :
    span.start.offset = utf8Length before := by
  rw [h.span_eq]
  exact Position.offset_start_after before

theorem stop_eq (h : span.Covers source before text rest) :
    span.stop = utf8Length before + utf8Length text := by
  rw [h.span_eq, between, Position.offset_after, Position.offset_start_after]

theorem line_eq (h : span.Covers source before text rest) :
    span.start.line = 1 + before.count '\n' := by
  rw [h.span_eq]
  exact Position.line_after .start before

theorem col_eq (h : span.Covers source before text rest) :
    span.start.col = 1 + (before.rtakeWhile (· ≠ '\n')).length := by
  rw [h.span_eq]
  exact Position.col_after before

theorem slice_eq (h : span.Covers source before text rest) :
    slice? source span.start.offset span.stop = some text := by
  refine slice?_eq_some_iff.2 ⟨before, rest, ?_, h.offset_eq.symm, h.stop_eq.symm⟩
  rw [h.source_eq, List.append_assoc]

theorem locatedIn (h : span.Covers source before text rest) : span.LocatedIn source where
  ordered := by
    rw [h.offset_eq, h.stop_eq]
    exact Nat.le_add_right ..
  inBounds := by
    rw [h.stop_eq, h.source_eq, utf8Length_append, utf8Length_append]
    omega
  start := by
    refine ⟨before, text ++ rest, ?_, h.line_eq, h.col_eq⟩
    exact splitBytes?_eq_some_iff.2 ⟨h.source_eq, h.offset_eq.symm⟩
  stop := by
    refine ⟨before ++ text, rest, splitBytes?_eq_some_iff.2 ⟨?_, ?_⟩⟩
    · rw [h.source_eq, List.append_assoc]
    · rw [utf8Length_append, h.stop_eq]

end Covers

end Span

/-! ### Elements of a stream -/

/-- Where an element of a stream stands. -/
def Item.span : Item → Span
  | .ok t => t.span
  | .error error => error.span

/-- An element of a stream is what the text `text` in front of `rest` is read as. -/
def Item.Reads (strict : Bool) (text rest : List Char) : Item → Prop
  | .ok t =>
    t.token.IsLexeme strict ∧ text = t.token.text.toList ∨
      t.token = .endOfInput ∧ text = [] ∧ rest = []
  | .error error => error.fault.StandsAt strict text rest

namespace Tiling

variable {strict : Bool} {p : Position} {text : List Char} {stream : TokenStream}

/-- Each element of a stream has the span of the part of the text that is read as it, whatever
stands before the text. -/
theorem exists_covers (h : Tiling strict p text stream) (before : List Char)
    (hp : p = Position.start.after before) {item : Item} (hitem : item ∈ stream.items) :
    ∃ first part rest, item.span.Covers (before ++ text) first part rest ∧
      item.Reads strict part rest := by
  induction h generalizing before with
  | @endOfInput p gap hgap =>
    obtain rfl : item = _ := List.mem_singleton.1 hitem
    refine ⟨before ++ gap, [], [], ⟨by simp, ?_⟩, .inr ⟨rfl, rfl, rfl⟩⟩
    rw [Position.after_append, ← hp]
    rfl
  | @fault p gap stretch rest fault hgap hfault =>
    obtain rfl : item = _ := List.mem_singleton.1 hitem
    refine ⟨before ++ gap, stretch, rest, ⟨by simp, ?_⟩, hfault⟩
    rw [Position.after_append, ← hp]
    rfl
  | @token p gap rest token stream hgap hlexeme hends _ ih =>
    rcases List.mem_cons.1 hitem with rfl | hitem
    · refine ⟨before ++ gap, token.text.toList, rest, ⟨by simp, ?_⟩, .inl ⟨hlexeme, rfl⟩⟩
      rw [Position.after_append, ← hp]
      rfl
    · have hbehind : (p.after gap).after token.text.toList =
          Position.start.after (before ++ gap ++ token.text.toList) := by
        rw [Position.after_append, Position.after_append, ← hp]
      obtain ⟨first, part, rest', hcovers, hreads⟩ := ih _ hbehind hitem
      refine ⟨first, part, rest', ?_, hreads⟩
      simpa only [List.append_assoc] using hcovers

/-- The tokens of a stream stand before its ending. -/
theorem lt_start_ending (h : Tiling strict p text stream) :
    p.offset ≤ stream.ending.span.start.offset ∧
      ∀ t ∈ stream.tokens, t.span.start.offset < stream.ending.span.start.offset := by
  induction h with
  | @endOfInput p gap hgap =>
    refine ⟨?_, by simp⟩
    simp only [Ending.span, Span.between, Position.offset_after]
    omega
  | @fault p gap stretch rest fault hgap hfault =>
    refine ⟨?_, by simp⟩
    simp only [Ending.span, Span.between, Position.offset_after]
    omega
  | @token p gap rest token stream hgap hlexeme hends _ ih =>
    obtain ⟨hbehind, htokens⟩ := ih
    rw [Position.offset_after, Position.offset_after] at hbehind
    have hne : utf8Length token.text.toList ≠ 0 :=
      mt utf8Length_eq_zero_iff.1 hlexeme.text_ne_nil
    refine ⟨by simp only [TokenStream.cons]; omega, List.forall_mem_cons.2 ⟨?_, htokens⟩⟩
    simp only [Span.between, Position.offset_after, TokenStream.cons]
    omega

end Tiling

namespace TokenStream

variable {options : ParseOptions} {source : String}

theorem exists_covers_of_mem_items {item : Item} (h : item ∈ (ofSource options source).items) :
    ∃ first part rest, item.span.Covers source.toList first part rest ∧
      item.Reads options.strictNumbers part rest :=
  (tiling_fromCursor (.start source)).exists_covers [] rfl h

theorem locatedIn_of_mem_items {item : Item} (h : item ∈ (ofSource options source).items) :
    item.span.LocatedIn source.toList := by
  obtain ⟨first, part, rest, hcovers, _⟩ := exists_covers_of_mem_items h
  exact hcovers.locatedIn

theorem lt_start_ending {t : SpannedToken} (ht : t ∈ (ofSource options source).tokens) :
    t.span.start.offset < (ofSource options source).ending.span.start.offset :=
  (tiling_fromCursor (.start source)).lt_start_ending.2 t ht

end TokenStream

end ServiceIdl
