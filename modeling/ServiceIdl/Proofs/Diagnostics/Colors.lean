import ServiceIdl.Proofs.Diagnostics.Snippet

/-!
# The colours of a diagnostic

Colours add escape sequences to a diagnostic and change nothing else: without the sequences, what
is left is the plain text. This holds of every error, also of one that does not fit the source text
that it is shown with, as long as neither the source line nor a text that the error quotes brings
escape characters along. A single character that the error quotes may be any, for messages show it
escaped.
-/

namespace ServiceIdl

/-! ### Texts without sequences -/

/-- A text without the given sequences, which are found from its start on. -/
def deleteAll (sequences : List (List Char)) : List Char → List Char
  | [] => []
  | c :: text =>
    match sequences.find? (·.isPrefixOf (c :: text)) with
    | some sequence => deleteAll sequences (text.drop (sequence.length - 1))
    | none => c :: deleteAll sequences text
termination_by text => text.length
decreasing_by
  · rw [List.length_drop, List.length_cons]
    omega
  · exact Nat.lt_succ_self _

/-- The character with which every escape sequence starts. -/
def escape : Char := '\x1b'

/-- The escape sequences of bold red and of bold blue, and the one that ends both. -/
def colorSequences : List (List Char) :=
  ["\x1b[1;31m".toList, "\x1b[1;34m".toList, "\x1b[0m".toList]

/-- A text without the escape sequences of colours. -/
def withoutColors (text : String) : String :=
  String.ofList (deleteAll colorSequences text.toList)

/-- Without colours, `painted` is `plain`, whatever stands behind it. -/
def Uncolors (painted plain : List Char) : Prop :=
  ∀ rest, deleteAll colorSequences (painted ++ rest) = plain ++ deleteAll colorSequences rest

theorem deleteAll_cons_of_ne {c : Char} (h : c ≠ escape) (text : List Char) :
    deleteAll colorSequences (c :: text) = c :: deleteAll colorSequences text := by
  have hstart : ∀ sequence ∈ colorSequences, sequence.head? = some escape := by decide
  have hnone : colorSequences.find? (·.isPrefixOf (c :: text)) = none := by
    refine List.find?_eq_none.2 fun sequence hsequence hprefix => h ?_
    obtain ⟨more, hmore⟩ := List.isPrefixOf_iff_prefix.1 hprefix
    have hhead := congrArg List.head? hmore
    rw [List.head?_append, hstart sequence hsequence] at hhead
    exact (Option.some.inj hhead).symm
  rw [deleteAll, hnone]

namespace Uncolors

variable {painted plain painted' plain' text : List Char}

theorem nil : Uncolors [] [] :=
  fun _ => rfl

theorem append (h : Uncolors painted plain) (h' : Uncolors painted' plain') :
    Uncolors (painted ++ painted') (plain ++ plain') := by
  intro rest
  rw [List.append_assoc, h, h', List.append_assoc]

theorem of_notMem (h : escape ∉ text) : Uncolors text text := by
  intro rest
  induction text with
  | nil => rfl
  | cons c text ih =>
    obtain ⟨hne, htext⟩ := not_or.1 (mt List.mem_cons.2 h)
    rw [List.cons_append, deleteAll_cons_of_ne (Ne.symm hne), ih htext, List.cons_append]

theorem sequence (h : text ∈ colorSequences) : Uncolors text [] := by
  intro rest
  simp only [colorSequences, List.mem_cons, List.not_mem_nil, or_false] at h
  rcases h with rfl | rfl | rfl
  · simp [deleteAll, colorSequences, List.isPrefixOf]
  · simp [deleteAll, colorSequences, List.isPrefixOf]
  · simp [deleteAll, colorSequences, List.isPrefixOf]

theorem flatMap {α : Type} {f g : α → List Char} {entries : List α}
    (h : ∀ entry ∈ entries, Uncolors (f entry) (g entry)) :
    Uncolors (entries.flatMap f) (entries.flatMap g) := by
  induction entries with
  | nil => exact nil
  | cons entry entries ih =>
    obtain ⟨hentry, hentries⟩ := List.forall_mem_cons.1 h
    exact hentry.append (ih hentries)

/-- A separator without an escape character stays where it is. -/
theorem intercalate {α : Type} {f g : α → List Char} {separator : List Char}
    (hseparator : escape ∉ separator) {entries : List α}
    (h : ∀ entry ∈ entries, Uncolors (f entry) (g entry)) :
    Uncolors (separator.intercalate (entries.map f)) (separator.intercalate (entries.map g)) := by
  induction entries with
  | nil => exact nil
  | cons entry entries ih =>
    obtain ⟨hentry, hentries⟩ := List.forall_mem_cons.1 h
    -- Behind the last entry there is no separator.
    cases entries with
    | nil => simpa using hentry
    | cons next entries =>
      simp only [List.map_cons, List.intercalate_cons_cons] at ih ⊢
      exact (hentry.append (of_notMem hseparator)).append (ih hentries)

theorem withoutColors_eq {painted plain : String} (h : Uncolors painted.toList plain.toList) :
    withoutColors painted = plain := by
  have hall := h []
  rw [List.append_nil, deleteAll, List.append_nil] at hall
  rw [withoutColors, hall, String.ofList_toList]

/-- The sequences around a painted piece go away. -/
theorem paint {piece : Styled} (h : escape ∉ piece.text.toList) :
    Uncolors (piece.paint true).toList piece.text.toList := by
  obtain ⟨style, text⟩ := piece
  have hclosing : Uncolors Style.closing.toList [] := sequence (by decide)
  have hpainted {opening : String} (hopening : opening.toList ∈ colorSequences) :
      Uncolors (opening ++ text ++ Style.closing).toList text.toList := by
    simpa using ((sequence hopening).append (of_notMem h)).append hclosing
  cases style with
  | plain => exact of_notMem h
  | fault => exact hpainted (by decide)
  | frame => exact hpainted (by decide)

/-- Painted rows without colours are plain rows. -/
theorem paintRows {rows : List (List Styled)}
    (h : ∀ row ∈ rows, ∀ piece ∈ row, escape ∉ piece.text.toList) :
    Uncolors (paintRows true rows).toList (plainRows rows).toList := by
  have hrow (row : List Styled) (hrow : row ∈ rows) :
      Uncolors (paintRow true row).toList (String.join (row.map Styled.text)).toList := by
    simp only [paintRow, String.toList_join, List.flatMap_map]
    exact flatMap fun piece hpiece => paint (h row hrow piece hpiece)
  simp only [ServiceIdl.paintRows, plainRows, String.toList_intercalate, List.map_map]
  exact intercalate (by decide) hrow

end Uncolors

/-- Rows that are painted without colours are plain rows. -/
theorem paintRows_false (rows : List (List Styled)) : paintRows false rows = plainRows rows := by
  have hpaint : Styled.paint false = Styled.text := funext Styled.paint_false
  unfold paintRows plainRows paintRow
  rw [hpaint]

/-! ### Texts without escape characters -/

/-- No escape sequence starts in a text. -/
def LacksEscape (text : String) : Prop :=
  escape ∉ text.toList

instance (text : String) : Decidable (LacksEscape text) :=
  inferInstanceAs (Decidable (¬_))

theorem LacksEscape.append {first second : String} (h : LacksEscape first)
    (h' : LacksEscape second) : LacksEscape (first ++ second) := by
  rw [LacksEscape, String.toList_append]
  exact List.not_mem_append h h'

theorem LacksEscape.ofList {text : List Char} (h : escape ∉ text) :
    LacksEscape (String.ofList text) := by
  rwa [LacksEscape, String.toList_ofList]

theorem lacksEscape_replicate (count : Nat) {c : Char} (h : escape ≠ c) :
    LacksEscape (String.ofList (List.replicate count c)) :=
  .ofList fun hmem => h (List.eq_of_mem_replicate hmem)

theorem exists_digitChar_of_mem_toDigits {base n : Nat} (hbase : 1 < base) {c : Char}
    (h : c ∈ Nat.toDigits base n) : ∃ digit, c = Nat.digitChar digit := by
  induction n using Nat.strongRecOn with
  | _ n ih =>
    rw [Nat.toDigits_eq_if hbase] at h
    split at h
    · exact ⟨n, List.mem_singleton.1 h⟩
    · next hle =>
      rcases List.mem_append.1 h with h | h
      · exact ih _ (Nat.div_lt_self (by omega) hbase) h
      · exact ⟨n % base, List.mem_singleton.1 h⟩

theorem escape_notMem_toDigits {base : Nat} (hbase : 1 < base) (n : Nat) :
    escape ∉ Nat.toDigits base n := by
  intro h
  obtain ⟨digit, hdigit⟩ := exists_digitChar_of_mem_toDigits hbase h
  exact Nat.digitChar_ne escape (by decide) hdigit.symm

theorem lacksEscape_nat (n : Nat) : LacksEscape (toString n) := by
  simpa [LacksEscape] using escape_notMem_toDigits (show 1 < 10 by decide) n

theorem lacksEscape_int (n : Int) : LacksEscape (toString n) := by
  cases n with
  | ofNat n => exact lacksEscape_nat n
  | negSucc n =>
    rw [Int.toString_eq_repr, Int.repr]
    exact .append (by decide) (lacksEscape_nat (n + 1))

/-- Messages show no character as it is that could start an escape sequence. -/
theorem lacksEscape_escapeChar (c : Char) : LacksEscape (escapeChar c) := by
  unfold escapeChar
  split
  case h_8 =>
    split
    · next halone =>
      -- The escape character is a control, so it is not printable.
      intro h
      obtain rfl := List.mem_singleton.1 (by simpa using h)
      cases halone
    · have hdigits := escape_notMem_toDigits (show 1 < 16 by decide) c.toNat
      exact .append (.append (by decide) (.ofList hdigits)) (by decide)
  all_goals decide

/-! ### Messages -/

/-- The texts that a lexical fault quotes as they are. -/
def LexFault.payload : LexFault → List String
  | .invalidNumber text => [text]
  | .unexpectedChar _ | .unterminatedString | .unterminatedComment => []

/-- The texts that a fault quotes as they are. -/
def ParseFault.payload : ParseFault → List String
  | .unexpectedToken expected found => [expected, found]
  | .invalidInteger text => [text]
  | .lexical fault => fault.payload
  | .indexOutOfOrder _ _ _ | .typeTooDeep _ => []

theorem LexFault.lacksEscape_message {fault : LexFault}
    (h : ∀ text ∈ fault.payload, LacksEscape text) : LacksEscape fault.message := by
  cases fault with
  | unexpectedChar c => exact .append (.append (by decide) (lacksEscape_escapeChar c)) (by decide)
  | unterminatedString => decide
  | unterminatedComment => decide
  | invalidNumber text =>
    exact .append (.append (by decide) (h text List.mem_cons_self)) (by decide)

theorem ParseFault.lacksEscape_message {fault : ParseFault}
    (h : ∀ text ∈ fault.payload, LacksEscape text) : LacksEscape fault.message := by
  cases fault with
  | unexpectedToken expected found =>
    have hexpected : LacksEscape expected := h expected (by simp [payload])
    have hfound : LacksEscape found := h found (by simp [payload])
    exact .append (.append (.append (by decide) hexpected) (by decide)) hfound
  | indexOutOfOrder kind value expected =>
    have hkind : LacksEscape kind.name := by cases kind <;> decide
    have hspace : LacksEscape " " := by decide
    have hvalue := (hkind.append hspace).append (lacksEscape_int value.toInt)
    exact .append (.append hvalue (by decide)) (lacksEscape_int expected)
  | invalidInteger text =>
    exact .append (.append (by decide) (h text (by simp [payload]))) (by decide)
  | typeTooDeep limit => exact .append (by decide) (lacksEscape_nat limit)
  | lexical fault => exact LexFault.lacksEscape_message h

/-! ### Diagnostics -/

namespace Diagnostic

variable {d : Diagnostic}

theorem lacksEscape_gutter {text : String} (h : LacksEscape text) :
    ∀ piece ∈ d.gutter text, LacksEscape piece.text := by
  have hspace : LacksEscape " " := by decide
  have hindent := hspace.append
    (lacksEscape_replicate (d.gutterWidth - text.length) (show escape ≠ ' ' by decide))
  simp only [gutter, List.forall_mem_cons]
  exact ⟨(hindent.append h).append hspace, by decide, by simp⟩

theorem lacksEscape_titleRow (h : LacksEscape d.message) :
    ∀ piece ∈ d.titleRow, LacksEscape piece.text := by
  simp only [titleRow, List.forall_mem_cons]
  exact ⟨by decide, .append (by decide) h, by simp⟩

theorem lacksEscape_placeRow : ∀ piece ∈ d.placeRow, LacksEscape piece.text := by
  simp only [placeRow, List.forall_mem_cons]
  refine ⟨by decide, by decide, ?_, by simp⟩
  exact .append (.append (.append (by decide) (lacksEscape_nat _)) (by decide)) (lacksEscape_nat _)

theorem lacksEscape_echoRow {line : List Char} (h : escape ∉ line) :
    ∀ piece ∈ d.echoRow line, LacksEscape piece.text := by
  rw [echoRow, List.forall_mem_append, List.forall_mem_singleton]
  exact ⟨lacksEscape_gutter (lacksEscape_nat _), .append (by decide) (.ofList h)⟩

/-- What is written below the source line does not come from it. -/
theorem lacksEscape_caretRow (line : List Char) :
    ∀ piece ∈ d.caretRow line, LacksEscape piece.text := by
  have hpadding : escape ∉ d.padding line := by
    intro hmem
    rcases d.blank_of_mem_padding hmem with h | h <;> cases h
  have hlabel : LacksEscape d.label := by
    unfold label
    split <;> decide
  simp only [caretRow, List.forall_mem_append, List.forall_mem_cons]
  exact ⟨lacksEscape_gutter (by decide), .append (by decide) (.ofList hpadding),
    lacksEscape_replicate _ (by decide), .append (by decide) hlabel, by simp⟩

/-- Only the message and the source line can bring escape sequences into a diagnostic. -/
theorem lacksEscape_rows (hmessage : LacksEscape d.message)
    (hline : ∀ line, d.sourceLine? = some line → escape ∉ line) :
    ∀ row ∈ d.rows, ∀ piece ∈ row, LacksEscape piece.text := by
  have hframe : ∀ piece ∈ frameRow, LacksEscape piece.text := by decide
  have hsnippet : ∀ row ∈ d.snippet, ∀ piece ∈ row, LacksEscape piece.text := by
    unfold snippet
    split
    · next line hsource =>
      simp only [List.forall_mem_cons]
      exact ⟨lacksEscape_echoRow (hline line hsource), lacksEscape_caretRow line, by simp⟩
    · simp
  simp only [rows, List.forall_mem_append, List.forall_mem_cons]
  exact ⟨⟨⟨lacksEscape_titleRow hmessage, lacksEscape_placeRow, hframe, by simp⟩, hsnippet⟩,
    hframe, by simp⟩

/-- A diagnostic starts with its message and its place. -/
theorem exists_render_eq (color : Bool) (d : Diagnostic) :
    ∃ below, d.render color =
      paintRow color d.titleRow ++ "\n" ++ (paintRow color d.placeRow ++ "\n" ++ below) := by
  refine ⟨paintRows color (frameRow :: (d.snippet ++ [frameRow])), ?_⟩
  have hrows : d.rows = d.titleRow :: d.placeRow :: frameRow :: (d.snippet ++ [frameRow]) := rfl
  simp only [render, paintRows, hrows, List.map_cons, String.intercalate_cons_cons]

/-- An error as it writes itself is the message of its diagnostic and then its place. -/
theorem error_message_eq (d : Diagnostic) :
    d.error.message = d.message ++ " at line " ++ toString d.error.span.start.line ++
      ", column " ++ toString d.error.span.start.col := by
  apply String.ext
  simp [ParseError.message, message, Span.place]

theorem plainText_eq_render (d : Diagnostic) : d.plainText = d.render false :=
  (paintRows_false d.rows).symm

/-- Colours add nothing but escape sequences to a diagnostic, unless the source line or a text that
the error quotes holds an escape character. Where there are no colours, or no styles at all, the
text is the same. It starts with the message, as the text of the error itself does, and tells the
place in another way. -/
theorem colors_only_add_sequences (d : Diagnostic) :
    ((∀ line, d.sourceLine? = some line → escape ∉ line) →
      (∀ text ∈ d.error.fault.payload, escape ∉ text.toList) →
        withoutColors (d.render true) = d.plainText) ∧
    d.render false = d.plainText ∧ toString d = d.plainText ∧
    d.error.message = d.message ++ " at line " ++ toString d.error.span.start.line ++
      ", column " ++ toString d.error.span.start.col ∧
    ∃ below below',
      d.plainText = "error: " ++ d.message ++ "\n  --> line " ++
        toString d.error.span.start.line ++ ":" ++ toString d.error.span.start.col ++ "\n" ++
        below ∧
      d.render true = "\x1b[1;31merror\x1b[0m: " ++ d.message ++ "\n  \x1b[1;34m-->\x1b[0m line " ++
        toString d.error.span.start.line ++ ":" ++ toString d.error.span.start.col ++ "\n" ++
        below' := by
  refine ⟨fun hline hpayload => ?_, d.plainText_eq_render.symm, rfl, d.error_message_eq, ?_⟩
  · have hmessage : LacksEscape d.message := ParseFault.lacksEscape_message hpayload
    exact (Uncolors.paintRows (lacksEscape_rows hmessage hline)).withoutColors_eq
  · obtain ⟨below, hplain⟩ := d.exists_render_eq false
    obtain ⟨below', hpainted⟩ := d.exists_render_eq true
    refine ⟨below, below', ?_, ?_⟩
    · rw [plainText_eq_render, hplain]
      apply String.ext
      simp [paintRow, titleRow, placeRow]
    · rw [hpainted]
      apply String.ext
      simp [paintRow, titleRow, placeRow, Styled.paint, Style.opening?, Style.closing]

/-- An error that quotes what is left of an escape sequence, with a span that ends before it starts,
in a line with a tab. -/
theorem colors_only_add_sequences_reversed_span :
    let d := Diagnostic.mk "a\n\tb[0m\r\n" ⟨.invalidInteger "[1;31m", ⟨⟨2, 9, 7⟩, 3⟩⟩
    (∀ line, d.sourceLine? = some line → escape ∉ line) ∧
      (∀ text ∈ d.error.fault.payload, escape ∉ text.toList) ∧
        withoutColors (d.render true) = d.plainText := by
  intro d
  have hsource : d.sourceLine? = some "\tb[0m".toList := by decide +kernel
  have hline : ∀ line, d.sourceLine? = some line → escape ∉ line := by
    rintro line hline
    rw [hsource] at hline
    obtain rfl := Option.some.inj hline
    decide
  have hpayload : ∀ text ∈ d.error.fault.payload, escape ∉ text.toList := by decide
  exact ⟨hline, hpayload, (colors_only_add_sequences d).1 hline hpayload⟩

example : (Diagnostic.mk "a\n\tb[0m\r\n" ⟨.invalidInteger "[1;31m", ⟨⟨2, 9, 7⟩, 3⟩⟩).render true =
    "\x1b[1;31merror\x1b[0m: invalid integer '[1;31m'\n  \x1b[1;34m-->\x1b[0m line 2:9\n" ++
      "   \x1b[1;34m|\x1b[0m\n  2 \x1b[1;34m|\x1b[0m \tb[0m\n" ++
      "    \x1b[1;34m|\x1b[0m \t    \x1b[1;31m^\x1b[0m parse error\n   \x1b[1;34m|\x1b[0m" := by
  decide +kernel

end Diagnostic

end ServiceIdl
