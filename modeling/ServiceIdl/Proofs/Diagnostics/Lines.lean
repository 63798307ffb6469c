import Mathlib.Data.List.DropRight
import ServiceIdl.Proofs.Lexing.Lexeme
import ServiceIdl.Text.Lines

/-!
# The line around a place

A place between two parts of a text stands in the line that reaches from the last line feed before
it to the next one behind it. Counted by line feeds, this line is found among the lines of the
text; only behind a line feed at the end of the text, or in an empty text, there is no line.
-/

namespace ServiceIdl

/-- A line that is ended by a line feed, without the carriage return before that. -/
def dropReturn (line : List Char) : List Char :=
  if line.getLast? = some '\r' then line.dropLast else line

/-- The line around the place between two parts of a text. -/
def lineAround (before rest : List Char) : List Char :=
  let line := before.rtakeWhile (· ≠ '\n') ++ rest.takeWhile (· ≠ '\n')
  if '\n' ∈ rest then dropReturn line else line

theorem dropReturn_cons_cons (c d : Char) (line : List Char) :
    dropReturn (c :: d :: line) = c :: dropReturn (d :: line) := by
  unfold dropReturn
  rw [List.getLast?_cons_cons, List.dropLast_cons_of_ne_nil (List.cons_ne_nil d line)]
  split <;> rfl

/-- A character that neither ends its line nor belongs to the end of it. -/
theorem lines_cons {c : Char} {text : List Char} (hc : c ≠ '\n')
    (hreturn : c = '\r' → text.head? ≠ some '\n') :
    lines (c :: text) =
      match lines text with
      | [] => [[c]]
      | line :: others => (c :: line) :: others := by
  have hbreak : ∀ rest, c = '\r' → text = '\n' :: rest → False := by
    rintro rest rfl rfl
    exact hreturn rfl rfl
  exact lines.eq_4 c text hc hbreak

/-- A line feed ends the first line. -/
theorem lines_append_newline {line : List Char} (hline : '\n' ∉ line) (rest : List Char) :
    lines (line ++ '\n' :: rest) = dropReturn line :: lines rest := by
  induction line with
  | nil => rw [List.nil_append, lines]; rfl
  | cons c line ih =>
    obtain ⟨hc, hline⟩ := not_or.1 (mt List.mem_cons.2 hline)
    have ih := ih hline
    cases line with
    | nil =>
      by_cases hreturn : c = '\r'
      · subst hreturn
        rfl
      · rw [List.cons_append, lines_cons (Ne.symm hc) (absurd · hreturn), ih]
        simp [dropReturn, hreturn]
    | cons d line =>
      have hd : '\n' ≠ d := fun h => hline (h ▸ List.mem_cons_self)
      rw [List.cons_append, lines_cons (Ne.symm hc) (by simpa using fun _ => Ne.symm hd), ih,
        dropReturn_cons_cons]

/-- A text without a line feed is one line. -/
theorem lines_of_notMem {line : List Char} (hline : '\n' ∉ line) (hne : line ≠ []) :
    lines line = [line] := by
  induction line with
  | nil => exact absurd rfl hne
  | cons c line ih =>
    obtain ⟨hc, hline⟩ := not_or.1 (mt List.mem_cons.2 hline)
    have hreturn : line.head? ≠ some '\n' := fun h => hline (List.mem_of_head? h)
    rw [lines_cons (Ne.symm hc) fun _ => hreturn]
    cases line with
    | nil => rfl
    | cons d line => rw [ih hline (List.cons_ne_nil d line)]

theorem ne_newline_of_notMem {line : List Char} (hline : '\n' ∉ line) :
    ∀ c ∈ line, decide (c ≠ '\n') = true := by
  intro c hc
  have hne : c ≠ '\n' := fun h => hline (h ▸ hc)
  simpa using hne

/-- What stands before a line feed does not belong to the last line. -/
theorem rtakeWhile_append_newline (line text : List Char) :
    (line ++ '\n' :: text).rtakeWhile (· ≠ '\n') = text.rtakeWhile (· ≠ '\n') := by
  induction text using List.reverseRecOn with
  | nil =>
    rw [List.rtakeWhile_concat_neg _ _ _ (by simp)]
    rfl
  | append_singleton text c ih =>
    rw [← List.cons_append, ← List.append_assoc]
    by_cases hc : c = '\n'
    · rw [List.rtakeWhile_concat_neg _ _ _ (by simp [hc]),
        List.rtakeWhile_concat_neg _ _ _ (by simp [hc])]
    · rw [List.rtakeWhile_concat_pos _ _ _ (by simp [hc]),
        List.rtakeWhile_concat_pos _ _ _ (by simp [hc]), ih]

/-- Counted by line feeds, the line around a place is the first one of what goes on from its
beginning. -/
theorem getElem?_lines_count_eq_head? (before rest : List Char) :
    (lines (before ++ rest))[before.count '\n']? =
      (lines (before.rtakeWhile (· ≠ '\n') ++ rest)).head? := by
  induction hlength : before.length using Nat.strongRecOn generalizing before with
  | _ length ih =>
    by_cases hmem : '\n' ∈ before
    · -- The first line of the text ends before the place, and it is not around it.
      obtain ⟨line, more, rfl, hline⟩ := List.eq_append_cons_of_mem hmem
      have hcount : (line ++ '\n' :: more).count '\n' = more.count '\n' + 1 := by
        rw [List.count_append, List.count_eq_zero.2 hline, List.count_cons_self, Nat.zero_add]
      have hless : more.length < length := by
        rw [← hlength, List.length_append, List.length_cons]
        omega
      rw [List.append_assoc, List.cons_append, lines_append_newline hline, hcount,
        List.getElem?_cons_succ, rtakeWhile_append_newline]
      exact ih more.length hless more rfl
    · have hlast : before.rtakeWhile (· ≠ '\n') = before :=
        List.rtakeWhile_eq_self_iff.2 (ne_newline_of_notMem hmem)
      rw [hlast, List.count_eq_zero.2 hmem, List.head?_eq_getElem?]

theorem notMem_rtakeWhile (before : List Char) : '\n' ∉ before.rtakeWhile (· ≠ '\n') := by
  intro hmem
  simpa using List.mem_rtakeWhile_imp hmem

/-- Counted by line feeds, the line around a place is found among the lines of the text. -/
theorem getElem?_lines_count {before rest : List Char}
    (h : before.rtakeWhile (· ≠ '\n') ++ rest ≠ []) :
    (lines (before ++ rest))[before.count '\n']? = some (lineAround before rest) := by
  rw [getElem?_lines_count_eq_head?, lineAround]
  have hlast := notMem_rtakeWhile before
  generalize before.rtakeWhile (· ≠ '\n') = last at h hlast ⊢
  by_cases hmem : '\n' ∈ rest
  · obtain ⟨line, more, rfl, hline⟩ := List.eq_append_cons_of_mem hmem
    have hrest : (line ++ '\n' :: more).takeWhile (· ≠ '\n') = line :=
      takeWhile_append_of_head (ne_newline_of_notMem hline) (by simp)
    have hnotMem : '\n' ∉ last ++ line := by simp [hlast, hline]
    rw [if_pos hmem, hrest, ← List.append_assoc, lines_append_newline hnotMem, List.head?_cons]
  · have hrest : rest.takeWhile (· ≠ '\n') = rest :=
      List.takeWhile_eq_self_iff.2 (ne_newline_of_notMem hmem)
    rw [if_neg hmem, hrest, lines_of_notMem (by simp [hlast, hmem]) h, List.head?_cons]

/-- Behind the line feed at the end of a text there is no line. -/
theorem getElem?_lines_count_eq_none {before : List Char}
    (h : before.rtakeWhile (· ≠ '\n') = []) : (lines before)[before.count '\n']? = none := by
  have hhead := getElem?_lines_count_eq_head? before []
  rw [List.append_nil, h, List.append_nil] at hhead
  exact hhead

end ServiceIdl
