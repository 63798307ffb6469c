import ServiceIdl.Diagnostic.Basic
import ServiceIdl.Proofs.Diagnostics.Lines
import ServiceIdl.Proofs.Parsing.Positions

/-!
# The source line of an error

A diagnostic of an error of a text shows the line on which the faulty text starts, and marks it in
the row below. There is one exception. Behind a line feed at the end of a text stands its end, on a
line that does not count among the lines of the text, so an error about the end of the input is
shown there without a source line.
-/

namespace ServiceIdl

/-- Without colours a piece of text is written as it is. -/
@[simp] theorem Styled.paint_false (piece : Styled) : piece.paint false = piece.text := by
  unfold Styled.paint
  split <;> rfl

namespace Diagnostic

/-- A source line behind the number of the line, and in the row below a caret or more and then what
the fault is called. -/
def underlined (d : Diagnostic) (line : List Char) (indent margin : Nat) (padding : List Char)
    (carets : Nat) : String :=
  String.ofList (List.replicate indent ' ') ++ toString d.error.span.start.line ++ " | " ++
      String.ofList line ++ "\n" ++
    String.ofList (List.replicate margin ' ') ++ " | " ++ String.ofList padding ++
      String.ofList (List.replicate carets '^') ++ " " ++ d.label

/-- A diagnostic without colours shows its error: among its rows is the source line on which the
faulty text starts, and this line is underlined. -/
def ShowsFault (d : Diagnostic) : Prop :=
  ∃ (before rest padding : List Char) (above below : String) (indent margin carets : Nat),
    splitBytes? d.error.span.start.offset d.source.toList = some (before, rest) ∧
      (∀ c ∈ padding, c = ' ' ∨ c = '\t') ∧ 0 < carets ∧
      d.render false = above ++ "\n" ++
        d.underlined (lineAround before rest) indent margin padding carets ++ "\n" ++ below

/-- The error stands at the end of a text that ends with a line feed. -/
def IsBehindLines (d : Diagnostic) : Prop :=
  d.error.span.start.offset = utf8Length d.source.toList ∧ d.source.toList.getLast? = some '\n'

instance (d : Diagnostic) : Decidable d.IsBehindLines :=
  inferInstanceAs (Decidable (_ ∧ _))

variable {d : Diagnostic} {line before part rest : List Char}

theorem render_of_sourceLine?_eq_none (h : d.sourceLine? = none) :
    d.render false = "error: " ++ d.message ++ "\n  --> line " ++
      toString d.error.span.start.line ++ ":" ++ toString d.error.span.start.col ++
      "\n   |\n   |" := by
  rw [render, rows, snippet, h]
  apply String.ext
  simp [paintRows, paintRow, titleRow, placeRow, frameRow]

theorem one_le_caretCount (d : Diagnostic) : 1 ≤ d.caretCount := by
  unfold caretCount
  split
  · exact Nat.le_max_left ..
  · exact Nat.le_refl 1

theorem blank_of_mem_padding (d : Diagnostic) {line : List Char} {c : Char}
    (hc : c ∈ d.padding line) : c = ' ' ∨ c = '\t' := by
  obtain ⟨other, _, rfl⟩ := List.mem_map.1 hc
  split
  · exact .inr rfl
  · exact .inl rfl

/-- The rows of a diagnostic with a source line. -/
theorem render_of_sourceLine?_eq_some (h : d.sourceLine? = some line) :
    d.render false = "error: " ++ d.message ++ "\n  --> line " ++
      toString d.error.span.start.line ++ ":" ++ toString d.error.span.start.col ++ "\n   |" ++
      "\n" ++ d.underlined line (d.gutterWidth - (toString d.error.span.start.line).length + 1)
        (d.gutterWidth + 1) (d.padding line) d.caretCount ++ "\n" ++ "   |" := by
  rw [render, rows, snippet, h]
  apply String.ext
  simp [paintRows, paintRow, titleRow, placeRow, frameRow, echoRow, caretRow, gutter, underlined,
    List.replicate_succ]

/-- The source line is looked up by the number of line feeds before the faulty text. -/
theorem sourceLine?_of_covers (h : d.error.span.Covers d.source.toList before part rest) :
    d.sourceLine? = (lines d.source.toList)[before.count '\n']? := by
  rw [sourceLine?, h.line_eq, Nat.add_comm]

/-- The line around the faulty text is shown, if there is one. -/
theorem showsFault_of_covers (h : d.error.span.Covers d.source.toList before part rest)
    (hline : before.rtakeWhile (· ≠ '\n') ++ (part ++ rest) ≠ []) : d.ShowsFault := by
  have hsource : d.sourceLine? = some (lineAround before (part ++ rest)) := by
    rw [sourceLine?_of_covers h, h.source_eq, getElem?_lines_count hline]
  exact ⟨before, part ++ rest, d.padding _, _, _, _, _, d.caretCount,
    splitBytes?_eq_some_iff.2 ⟨h.source_eq, h.offset_eq.symm⟩, fun _ => d.blank_of_mem_padding,
    d.one_le_caretCount, render_of_sourceLine?_eq_some hsource⟩

theorem isBehindLines_iff (h : d.error.span.Covers d.source.toList before part rest) :
    d.IsBehindLines ↔ part ++ rest = [] ∧ before.getLast? = some '\n' := by
  have hlength : utf8Length before = utf8Length (before ++ (part ++ rest)) ↔ part ++ rest = [] := by
    rw [utf8Length_append, ← utf8Length_eq_zero_iff]
    omega
  rw [IsBehindLines, h.offset_eq, h.source_eq, hlength]
  refine and_congr_right fun hrest => ?_
  rw [hrest, List.append_nil]

theorem IsBehindLines.sourceLine?_eq_none (hbehind : d.IsBehindLines)
    (h : d.error.span.Covers d.source.toList before part rest) : d.sourceLine? = none := by
  obtain ⟨hrest, hlast⟩ := (isBehindLines_iff h).1 hbehind
  have hline : before.rtakeWhile (· ≠ '\n') = [] := by
    rw [List.rtakeWhile_eq_nil_iff]
    intro hne
    have heq : before.getLast hne = '\n' := by
      rw [List.getLast?_eq_some_getLast hne] at hlast
      exact Option.some.inj hlast
    simp [heq]
  rw [sourceLine?_of_covers h, h.source_eq, hrest, List.append_nil]
  exact getElem?_lines_count_eq_none hline

end Diagnostic

/-- The empty text has the empty document. -/
theorem parse_empty (options : ParseOptions) : parse options "" = .ok .empty := by
  have hstream : TokenStream.ofSource options "" = ⟨[], .endOfInput (.between .start .start)⟩ := by
    rw [TokenStream.ofSource, Cursor.start, String.toList_empty, TokenStream.fromCursor]
  rw [parse_eq_map_readItems, hstream]
  rfl

namespace Diagnostic

/-- An error of a text is shown with the source line on which the faulty text starts, unless it
stands behind a line feed at the end of the text. Then only the message and the place are shown. -/
theorem source_line_shown_unless_behind_lines {options : ParseOptions} {source : String}
    {e : ParseError} (h : parse options source = .error e) :
    (¬(Diagnostic.mk source e).IsBehindLines → (Diagnostic.mk source e).ShowsFault) ∧
    ((Diagnostic.mk source e).IsBehindLines →
      (Diagnostic.mk source e).render false = "error: " ++ e.fault.message ++ "\n  --> line " ++
        toString e.span.start.line ++ ":" ++ toString e.span.start.col ++ "\n   |\n   |") := by
  obtain ⟨before, part, rest, hcovers⟩ := exists_covers_of_parse_eq_error h
  constructor
  · intro hbehind
    refine showsFault_of_covers hcovers fun hnil => hbehind ?_
    obtain ⟨hlast, hrest⟩ := List.append_eq_nil_iff.1 hnil
    -- The text is not empty, for the empty text has a document.
    have hne : before ≠ [] := by
      rintro rfl
      have hsource := hcovers.source_eq
      rw [hrest, List.append_nil, String.toList_eq_nil_iff] at hsource
      rw [hsource, parse_empty] at h
      cases h
    have hline := List.rtakeWhile_eq_nil_iff.1 hlast hne
    refine (isBehindLines_iff hcovers).2 ⟨hrest, ?_⟩
    rw [List.getLast?_eq_some_getLast hne]
    simpa using hline
  · intro hbehind
    exact render_of_sourceLine?_eq_none (hbehind.sourceLine?_eq_none hcovers)

/-- A typedef without a name, with the end of the input behind a line and on a line of its own. -/
theorem source_line_shown_unless_behind_lines_missing_name :
    (∃ e, parse ⟨false, 64⟩ "typedef T\n\t\r" = .error e ∧
      (Diagnostic.mk "typedef T\n\t\r" e).ShowsFault) ∧
    ∃ e, parse ⟨false, 64⟩ "typedef T\n" = .error e ∧
      (Diagnostic.mk "typedef T\n" e).render false =
        "error: expected identifier, found end of input" ++ "\n  --> line 2:1\n   |\n   |" := by
  have hshown : parse ⟨false, 64⟩ "typedef T\n\t\r" =
      .error ⟨.unexpectedToken "identifier" "end of input", ⟨⟨2, 3, 12⟩, 12⟩⟩ := by decide +kernel
  have hhidden : parse ⟨false, 64⟩ "typedef T\n" =
      .error ⟨.unexpectedToken "identifier" "end of input", ⟨⟨2, 1, 10⟩, 10⟩⟩ := by decide +kernel
  exact ⟨⟨_, hshown, (source_line_shown_unless_behind_lines hshown).1 (by decide +kernel)⟩,
    _, hhidden, (source_line_shown_unless_behind_lines hhidden).2 (by decide +kernel)⟩

/-- No row with a caret is written for a missing name at the end of a text whose last line is
complete. -/
theorem no_source_line_behind_last_line_feed :
    ∃ e, parse ⟨false, 64⟩ "typedef T\n" = .error e ∧
      ¬(Diagnostic.mk "typedef T\n" e).ShowsFault := by
  have hparse : parse ⟨false, 64⟩ "typedef T\n" =
      .error ⟨.unexpectedToken "identifier" "end of input", ⟨⟨2, 1, 10⟩, 10⟩⟩ := by decide +kernel
  refine ⟨_, hparse, ?_⟩
  rintro ⟨before, rest, padding, above, below, indent, margin, carets, _, _, hcarets, hrender⟩
  have hcaret : '^' ∈ ((Diagnostic.mk "typedef T\n"
      ⟨.unexpectedToken "identifier" "end of input", ⟨⟨2, 1, 10⟩, 10⟩⟩).render false).toList := by
    rw [hrender, underlined]
    simp [hcarets.ne']
  revert hcaret
  decide +kernel

end Diagnostic

end ServiceIdl
