/-!
# Positions in source text

A position stands between two characters of a source text. Lines and columns
are counted from one in characters, where only a line feed starts a new line;
the offset is counted from zero in bytes of the UTF-8 encoding. A span starts
at a position and ends at a byte offset.
-/

namespace ServiceIdl

/-- The number of bytes that a list of characters takes in UTF-8. -/
def utf8Length : List Char → Nat
  | [] => 0
  | c :: text => c.utf8Size + utf8Length text

@[simp] theorem utf8Length_nil : utf8Length [] = 0 := rfl

@[simp] theorem utf8Length_cons (c : Char) (text : List Char) :
    utf8Length (c :: text) = c.utf8Size + utf8Length text := rfl

@[simp] theorem utf8Length_append (first second : List Char) :
    utf8Length (first ++ second) = utf8Length first + utf8Length second := by
  induction first with
  | nil => rw [List.nil_append, utf8Length_nil, Nat.zero_add]
  | cons c first ih => rw [List.cons_append, utf8Length_cons, utf8Length_cons, ih, Nat.add_assoc]

/-- Every character takes at least one byte. -/
theorem utf8Length_eq_zero_iff {text : List Char} : utf8Length text = 0 ↔ text = [] := by
  cases text with
  | nil => simp
  | cons c text =>
    have hpos := c.utf8Size_pos
    rw [utf8Length_cons]
    simp only [List.cons_ne_nil, iff_false]
    omega

/-- A place in a source text. -/
structure Position where
  /-- The line, counted from one. -/
  line : Nat
  /-- The column, counted from one in characters. -/
  col : Nat
  /-- The number of bytes before this place. -/
  offset : Nat
  deriving DecidableEq

namespace Position

/-- The beginning of every source text. -/
def start : Position := ⟨1, 1, 0⟩

/-- The position behind a character. A line feed starts a new line; every other
character, a tab included, takes one column. -/
def advance (p : Position) (c : Char) : Position :=
  if c = '\n' then ⟨p.line + 1, 1, p.offset + c.utf8Size⟩
  else ⟨p.line, p.col + 1, p.offset + c.utf8Size⟩

/-- The position behind a stretch of text. -/
def after (p : Position) (text : List Char) : Position :=
  text.foldl advance p

@[simp] theorem after_nil (p : Position) : p.after [] = p := rfl

@[simp] theorem after_cons (p : Position) (c : Char) (text : List Char) :
    p.after (c :: text) = (p.advance c).after text := rfl

theorem after_append (p : Position) (first second : List Char) :
    p.after (first ++ second) = (p.after first).after second := by
  simp only [after, List.foldl_append]

theorem offset_advance (p : Position) (c : Char) :
    (p.advance c).offset = p.offset + c.utf8Size := by
  unfold advance
  split <;> rfl

/-- The offset grows by the number of bytes of the text. -/
theorem offset_after (p : Position) (text : List Char) :
    (p.after text).offset = p.offset + utf8Length text := by
  induction text generalizing p with
  | nil => rfl
  | cons c text ih =>
    rw [after_cons, ih, offset_advance, utf8Length_cons, Nat.add_assoc]

end Position

/-- A stretch of a source text, from a position up to, but without, a byte offset. -/
structure Span where
  /-- Where the stretch starts. -/
  start : Position
  /-- The byte offset behind its last character. -/
  stop : Nat
  deriving DecidableEq

namespace Span

/-- The stretch between two positions. -/
def between (first last : Position) : Span := ⟨first, last.offset⟩

/-- The place of a span as messages name it. -/
def place (s : Span) : String :=
  "line " ++ toString s.start.line ++ ", column " ++ toString s.start.col

end Span

end ServiceIdl
