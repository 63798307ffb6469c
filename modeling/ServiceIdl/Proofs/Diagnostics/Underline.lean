import ServiceIdl.Proofs.Diagnostics.Snippet

/-!
# The underline of an error

The row below the source line of an error marks the faulty text. Both rows have the same margin, and
in front of the carets the lower one is as long as the upper one in front of the faulty text, with a
tab where the upper one has a tab. A faulty text that goes on over several lines is marked up to the
end of its first line, where a carriage return before a line feed is in neither row.
-/

namespace ServiceIdl

/-! ### The first line of a text -/

theorem dropReturn_isPrefix (line : List Char) : dropReturn line <+: line := by
  unfold dropReturn
  split
  · exact List.dropLast_prefix line
  · exact List.prefix_rfl

/-- A carriage return at the end of a part of a line is at the end of the line. -/
theorem dropReturn_append (first : List Char) {line : List Char} (hne : line ≠ []) :
    dropReturn (first ++ line) = first ++ dropReturn line := by
  unfold dropReturn
  rw [List.getLast?_append_of_ne_nil first hne, List.dropLast_append_of_ne_nil hne]
  split <;> rfl

theorem firstLine_append_newline {line : List Char} (hline : '\n' ∉ line) (rest : List Char) :
    firstLine (line ++ '\n' :: rest) = dropReturn line := by
  rw [firstLine, lines_append_newline hline, List.headD_cons]

theorem firstLine_of_notMem {text : List Char} (htext : '\n' ∉ text) : firstLine text = text := by
  cases text with
  | nil => rfl
  | cons c text => rw [firstLine, lines_of_notMem htext (List.cons_ne_nil c text), List.headD_cons]

/-- A text starts with its first line. -/
theorem firstLine_isPrefix (text : List Char) : firstLine text <+: text := by
  by_cases hmem : '\n' ∈ text
  · obtain ⟨line, more, rfl, hline⟩ := List.eq_append_cons_of_mem hmem
    rw [firstLine_append_newline hline]
    exact (dropReturn_isPrefix line).trans (List.prefix_append ..)
  · exact ⟨[], by rw [firstLine_of_notMem hmem, List.append_nil]⟩

/-- A line of a text is found by the line feeds in front of a place only if it is around it. -/
theorem eq_lineAround_of_getElem?_lines {before rest line : List Char}
    (h : (lines (before ++ rest))[before.count '\n']? = some line) :
    line = lineAround before rest := by
  by_cases hnil : before.rtakeWhile (· ≠ '\n') ++ rest = []
  · obtain ⟨hlast, rfl⟩ := List.append_eq_nil_iff.1 hnil
    rw [List.append_nil, getElem?_lines_count_eq_none hlast] at h
    cases h
  · rw [getElem?_lines_count hnil] at h
    exact (Option.some.inj h).symm

/-! ### Texts that can be marked -/

/-- A text in front of `rest` that a source line has in full, up to its line end. The text starts
with a character that is not blank, and a carriage return at its end does not belong to a line
end. -/
structure IsMarkable (text rest : List Char) : Prop where
  head : ∃ c more, text = c :: more ∧ isBlank c = false
  last : text.getLast? = some '\r' → rest = []

namespace IsMarkable

variable {text rest : List Char}

theorem ne_nil (h : IsMarkable text rest) : text ≠ [] := by
  obtain ⟨c, more, rfl, _⟩ := h.head
  exact List.cons_ne_nil c more

theorem firstLine_ne_nil (h : IsMarkable text rest) : firstLine text ≠ [] := by
  obtain ⟨c, more, rfl, hc⟩ := h.head
  have hfeed : c ≠ '\n' := by
    rintro rfl
    cases hc
  have hreturn : c ≠ '\r' := by
    rintro rfl
    cases hc
  rw [firstLine, lines_cons hfeed (absurd · hreturn)]
  split <;> simp

/-- The line around the start of a markable text goes on there with the first line of the text. -/
theorem lineAround_eq (h : IsMarkable text rest) (before : List Char) :
    ∃ behind, lineAround before (text ++ rest) =
      before.rtakeWhile (· ≠ '\n') ++ (firstLine text ++ behind) := by
  unfold lineAround
  generalize before.rtakeWhile (· ≠ '\n') = last
  by_cases hmem : '\n' ∈ text
  · -- The text itself ends the line, and what is in front of its line feed is not empty.
    obtain ⟨line, more, rfl, hline⟩ := List.eq_append_cons_of_mem hmem
    have hne : line ≠ [] := by
      rintro rfl
      obtain ⟨c, _, heq, hc⟩ := h.head
      obtain rfl := (List.cons.inj heq).1
      cases hc
    refine ⟨[], ?_⟩
    rw [List.append_assoc, List.cons_append,
      takeWhile_append_of_head (ne_newline_of_notMem hline) (by simp), if_pos (by simp),
      dropReturn_append last hne, firstLine_append_newline hline, List.append_nil]
  · have htake : (text ++ rest).takeWhile (· ≠ '\n') = text ++ rest.takeWhile (· ≠ '\n') :=
      List.takeWhile_append_of_pos (ne_newline_of_notMem hmem)
    rw [firstLine_of_notMem hmem, htake]
    by_cases hrest : '\n' ∈ rest
    · rw [if_pos (List.mem_append_right text hrest)]
      by_cases hnil : rest.takeWhile (· ≠ '\n') = []
      · -- The line ends right behind the text, which has no carriage return at its end.
        have hreturn : text.getLast? ≠ some '\r' := by
          intro hlast
          rw [h.last hlast] at hrest
          cases hrest
        refine ⟨[], ?_⟩
        rw [hnil, dropReturn_append last (by simpa using h.ne_nil), List.append_nil, dropReturn,
          if_neg hreturn]
      · refine ⟨dropReturn (rest.takeWhile (· ≠ '\n')), ?_⟩
        rw [dropReturn_append last (List.append_ne_nil_of_right_ne_nil text hnil),
          dropReturn_append text hnil]
    · rw [if_neg (by simp [hmem, hrest])]
      exact ⟨_, rfl⟩

/-- A text of characters of a class behind one that is not blank. -/
theorem of_class {p : Char → Bool} (hp : p '\r' = false) {first : Char} {more : List Char}
    (hfirst : isBlank first = false) (hmore : ∀ c ∈ more, p c = true) (rest : List Char) :
    IsMarkable (first :: more) rest := by
  refine ⟨⟨first, more, rfl, hfirst⟩, fun hlast => ?_⟩
  rcases List.mem_cons.1 (List.mem_of_getLast? hlast) with rfl | hmem
  · cases hfirst
  · rw [hmore _ hmem] at hp
    cases hp

theorem of_isName (h : IsName text) (rest : List Char) : IsMarkable text rest := by
  obtain ⟨first, more, rfl, hfirst, hmore⟩ := h
  exact of_class rfl (isNameStart_apart hfirst).1 hmore rest

theorem of_isNumber (h : IsNumber text) (rest : List Char) : IsMarkable text rest := by
  obtain ⟨first, more, rfl, hfirst, hmore⟩ := h
  exact of_class rfl (isNumberStart_apart hfirst).1 hmore rest

end IsMarkable

private theorem isBlank_of_isQuote {c : Char} (h : isQuote c = true) : isBlank c = false := by
  rcases isQuote_cases h with rfl | rfl <;> rfl

/-- A lexeme can be marked, unless it is a doc comment. -/
theorem Token.IsLexeme.isMarkable {strict : Bool} {token : Token} (h : token.IsLexeme strict)
    (hdoc : token.isDocComment = false) (rest : List Char) :
    IsMarkable token.text.toList rest := by
  cases token with
  | keyword word => exact .of_isName word.isName_text rest
  | symbol s => cases s <;> exact .of_class (p := fun _ => false) rfl rfl (by simp) rest
  | identifier text => exact .of_isName h.1 rest
  | number text => exact .of_isNumber h.1 rest
  | string text =>
    obtain ⟨quote, body, htext, hquote, _⟩ := h
    rw [Token.text, htext]
    refine ⟨⟨quote, _, rfl, isBlank_of_isQuote hquote⟩, fun hlast => ?_⟩
    rw [← List.cons_append, List.getLast?_concat] at hlast
    obtain rfl := Option.some.inj hlast
    cases hquote
  | docComment text => cases hdoc
  | endOfInput => exact absurd h id

theorem LexFault.StandsAt.isMarkable {strict : Bool} {fault : LexFault} {text rest : List Char}
    (h : fault.StandsAt strict text rest) : IsMarkable text rest := by
  cases fault with
  | unexpectedChar c =>
    obtain ⟨rfl, hc⟩ := h
    have hblank : isBlank c = false := by
      rcases hc with hc | ⟨rfl, _⟩
      · exact hc.notBlank
      · rfl
    exact .of_class (p := fun _ => false) rfl hblank (by simp) rest
  | unterminatedString =>
    obtain ⟨hrest, quote, body, rfl, hquote, _⟩ := h
    exact ⟨⟨quote, body, rfl, isBlank_of_isQuote hquote⟩, fun _ => hrest⟩
  | unterminatedComment =>
    obtain ⟨body, rfl, _⟩ := isOpenComment_iff.1 h.2
    exact ⟨⟨'/', _, rfl, rfl⟩, fun _ => h.1⟩
  | invalidNumber digits => exact .of_isNumber h.2.2.1 rest

/-- An error is about the end of the input or about a markable text. -/
theorem exists_isMarkable_of_parse_eq_error {options : ParseOptions} {source : String}
    {e : ParseError} (h : parse options source = .error e) :
    ∃ before text rest, e.span.Covers source.toList before text rest ∧
      (text = [] ∧ rest = [] ∨ IsMarkable text rest) := by
  rcases origin_of_parse_eq_error h with ⟨error, hending, rfl⟩ | ⟨_, t, hmem, hdoc, hspan⟩
  · obtain ⟨before, text, rest, hcovers, hreads⟩ :=
      TokenStream.exists_covers_of_mem_items (TokenStream.error_mem_items_iff.2 hending)
    exact ⟨before, text, rest, hcovers, .inr (LexFault.StandsAt.isMarkable hreads)⟩
  · obtain ⟨before, text, rest, hcovers, hreads⟩ := TokenStream.exists_covers_of_mem_items hmem
    refine ⟨before, text, rest, hspan ▸ hcovers, ?_⟩
    rcases hreads with ⟨hlexeme, rfl⟩ | ⟨_, htext, hrest⟩
    · exact .inr (hlexeme.isMarkable hdoc rest)
    · exact .inl ⟨htext, hrest⟩

/-! ### The rows -/

namespace Diagnostic

/-- The underline of a diagnostic marks the faulty text `text` in the source line `echoed`. -/
structure Underlines (d : Diagnostic) (echoed text padding : List Char)
    (indent margin carets : Nat) : Prop where
  /-- The marked text is what the span of the error says. -/
  text_eq : slice? d.source.toList d.error.span.start.offset d.error.span.stop = some text
  /-- The number of the line is written at the right end of the margin. -/
  margin_eq : indent + (toString d.error.span.start.line).length = margin
  length_padding : padding.length = d.error.span.start.col - 1
  padding_eq : ∀ i < padding.length,
    padding[i]? = some (if echoed[i]? = some '\t' then '\t' else ' ')
  carets_eq : carets = if text = [] then 1 else (firstLine text).length
  /-- Each caret stands below a character of the marked text. -/
  below : text ≠ [] → padding.length + carets ≤ echoed.length ∧
    ∀ i < carets, ∃ c, text[i]? = some c ∧ echoed[padding.length + i]? = some c

variable {d : Diagnostic} {before text rest echoed : List Char}

theorem length_toString_le_gutterWidth (d : Diagnostic) :
    (toString d.error.span.start.line).length ≤ d.gutterWidth := by
  refine le_trans ?_ (Nat.le_max_right ..)
  -- A number has no more digits than its successor.
  have hpos : 0 < (Nat.repr (d.error.span.start.line + 1)).length := Nat.length_repr_pos
  have hless := (Nat.length_repr_le_iff hpos).1 le_rfl
  exact (Nat.length_repr_le_iff hpos).2 (by omega)

/-- What stands in front of the carets is as long as what stands in the source line in front of the
place, and it has tabs where the source line has them. -/
theorem padding_of_append {last behind : List Char}
    (hcol : d.error.span.start.col = 1 + last.length) (hechoed : echoed = last ++ behind) :
    (d.padding echoed).length = last.length ∧ ∀ i < (d.padding echoed).length,
      (d.padding echoed)[i]? = some (if echoed[i]? = some '\t' then '\t' else ' ') := by
  have hpadding : d.padding echoed = last.map fun c => if c = '\t' then '\t' else ' ' := by
    rw [padding, hechoed, hcol, Nat.add_sub_cancel_left, List.take_left]
  rw [hpadding, List.length_map]
  refine ⟨rfl, fun i hi => ?_⟩
  rw [hechoed, List.getElem?_append_left hi, List.getElem?_map, List.getElem?_eq_getElem hi]
  simp only [Option.map_some, Option.some.injEq]

/-- The first line of a text that goes on behind `last` is found there, character by character. -/
theorem below_of_append {last behind : List Char}
    (hechoed : echoed = last ++ (firstLine text ++ behind)) :
    last.length + (firstLine text).length ≤ echoed.length ∧
      ∀ i < (firstLine text).length,
        ∃ c, text[i]? = some c ∧ echoed[last.length + i]? = some c := by
  refine ⟨?_, fun i hi => ⟨(firstLine text)[i], ?_, ?_⟩⟩
  · rw [hechoed, List.length_append, List.length_append]
    omega
  · have hbound := hi.trans_le (firstLine_isPrefix text).length_le
    rw [(firstLine_isPrefix text).getElem hi, List.getElem?_eq_getElem hbound]
  · rw [hechoed, List.getElem?_append_right (Nat.le_add_right ..), Nat.add_sub_cancel_left,
      List.getElem?_append_left hi, List.getElem?_eq_getElem hi]

/-- The rows of a diagnostic mark a text that is markable or empty at the end of the source. -/
theorem underlines_of_covers (h : d.error.span.Covers d.source.toList before text rest)
    (htext : text = [] ∧ rest = [] ∨ IsMarkable text rest)
    (hechoed : d.sourceLine? = some echoed) :
    d.Underlines echoed text (d.padding echoed)
      (d.gutterWidth - (toString d.error.span.start.line).length + 1) (d.gutterWidth + 1)
      d.caretCount := by
  obtain ⟨behind, hbehind⟩ : ∃ behind,
      echoed = before.rtakeWhile (· ≠ '\n') ++ (firstLine text ++ behind) := by
    rw [sourceLine?_of_covers h, h.source_eq] at hechoed
    rw [eq_lineAround_of_getElem?_lines hechoed]
    rcases htext with ⟨rfl, rfl⟩ | htext
    · exact ⟨[], by simp [lineAround, firstLine, lines]⟩
    · exact htext.lineAround_eq before
  obtain ⟨hlength, hpadding⟩ := padding_of_append h.col_eq hbehind
  have hcarets : d.caretCount = if text = [] then 1 else (firstLine text).length := by
    rw [caretCount, h.slice_eq]
    rcases htext with ⟨rfl, _⟩ | htext
    · rfl
    · have hpos := List.length_pos_of_ne_nil htext.firstLine_ne_nil
      rw [if_neg htext.ne_nil]
      exact Nat.max_eq_right hpos
  refine ⟨h.slice_eq, ?_, ?_, hpadding, hcarets, fun hne => ?_⟩
  · have hdigits := d.length_toString_le_gutterWidth
    omega
  · rw [hlength, h.col_eq, Nat.add_sub_cancel_left]
  · rw [hlength, hcarets, if_neg hne]
    exact below_of_append hbehind

/-- An error whose line is one of the lines of the source is shown with this line, and the row below
it marks the faulty text. -/
theorem underline_marks_fault {options : ParseOptions} {source : String} {e : ParseError}
    (h : parse options source = .error e) {echoed : List Char}
    (hechoed : (lines source.toList)[e.span.start.line - 1]? = some echoed) :
    ∃ (text padding : List Char) (indent margin carets : Nat),
      (Diagnostic.mk source e).Underlines echoed text padding indent margin carets ∧
        (Diagnostic.mk source e).render false = "error: " ++ e.fault.message ++ "\n  --> line " ++
          toString e.span.start.line ++ ":" ++ toString e.span.start.col ++ "\n   |" ++
          "\n" ++ (Diagnostic.mk source e).underlined echoed indent margin padding carets ++
          "\n" ++ "   |" := by
  obtain ⟨before, text, rest, hcovers, htext⟩ := exists_isMarkable_of_parse_eq_error h
  have hsource : (Diagnostic.mk source e).sourceLine? = some echoed := by
    rw [hcovers.line_eq, Nat.add_sub_cancel_left] at hechoed
    rw [sourceLine?_of_covers hcovers, hechoed]
  exact ⟨text, _, _, _, _, underlines_of_covers hcovers htext hsource,
    render_of_sourceLine?_eq_some hsource⟩

/-- A string literal that goes on behind its line, in a line with tabs, a letter of two bytes and a
carriage return before the line feed. -/
theorem underline_marks_fault_open_string :
    ∃ (e : ParseError) (echoed : List Char),
      parse ⟨false, 64⟩ "const T\r\n\té =\t\"x\r\ny" = .error e ∧
        (lines "const T\r\n\té =\t\"x\r\ny".toList)[e.span.start.line - 1]? = some echoed ∧
        ∃ (text padding : List Char) (indent margin carets : Nat),
          (Diagnostic.mk "const T\r\n\té =\t\"x\r\ny" e).Underlines
            echoed text padding indent margin carets ∧
          (Diagnostic.mk "const T\r\n\té =\t\"x\r\ny" e).render false =
            "error: " ++ e.fault.message ++ "\n  --> line " ++ toString e.span.start.line ++ ":" ++
              toString e.span.start.col ++ "\n   |" ++ "\n" ++
              (Diagnostic.mk "const T\r\n\té =\t\"x\r\ny" e).underlined
                echoed indent margin padding carets ++ "\n" ++ "   |" := by
  have hparse : parse ⟨false, 64⟩ "const T\r\n\té =\t\"x\r\ny" =
      .error ⟨.lexical .unterminatedString, ⟨⟨2, 6, 15⟩, 20⟩⟩ := by decide +kernel
  have hechoed : (lines "const T\r\n\té =\t\"x\r\ny".toList)[1]? =
      some "\té =\t\"x".toList := by decide +kernel
  exact ⟨_, _, hparse, hechoed, underline_marks_fault hparse hechoed⟩

example : (Diagnostic.mk "const T\r\n\té =\t\"x\r\ny"
    ⟨.lexical .unterminatedString, ⟨⟨2, 6, 15⟩, 20⟩⟩).render false =
      "error: unterminated string literal\n  --> line 2:6\n   |\n" ++
        "  2 | \té =\t\"x\n    | \t   \t^^ lexical error\n   |" := by
  decide +kernel

end Diagnostic

end ServiceIdl
