import ServiceIdl.Proofs.Lexing.Lexeme
import ServiceIdl.Token.Stream

/-!
# The strict form of numbers

A scanner that demands the strict form of numbers cuts a text into the same pieces as one that
does not; only a number without that form is a fault there. So it finds the same tokens up to
the first such number, which ends its stream.
-/

namespace ServiceIdl

/-! ### Tokens -/

namespace Token

/-- A number has the strict form; every other token may be anything. -/
def HasStrictForm (token : Token) : Prop :=
  ∀ text, token = .number text → IsStrictNumber text.toList

/-- What is wrong with a token where numbers must have the strict form. -/
def strictFault? : Token → Option LexFault
  | number text => if ServiceIdl.hasStrictForm text.toList then none else some (.invalidNumber text)
  | _ => none

theorem strictFault?_eq_none_iff {token : Token} :
    token.strictFault? = none ↔ token.HasStrictForm := by
  cases token with
  | number text => simp [strictFault?, HasStrictForm, hasStrictForm_iff]
  | _ => simp [strictFault?, HasStrictForm]

theorem strictFault?_eq_some_iff {token : Token} {fault : LexFault} :
    token.strictFault? = some fault ↔
      ∃ text, token = .number text ∧ ¬IsStrictNumber text.toList ∧ .invalidNumber text = fault := by
  cases token with
  | number text => simp [strictFault?, ← hasStrictForm_iff]
  | _ => simp [strictFault?]

end Token

/-! ### Pieces -/

/-- What a stretch is where numbers must have the strict form. -/
def PieceKind.demandStrict : PieceKind → PieceKind
  | .token found =>
    match found.strictFault? with
    | none => .token found
    | some wrong => .fault wrong
  | kind => kind

namespace Piece

/-- The same stretch where numbers must have the strict form. -/
def demandStrict (piece : Piece) : Piece :=
  { piece with kind := piece.kind.demandStrict }

theorem demandStrict_blockComment (text : List Char) :
    (blockComment text).demandStrict = blockComment text := by
  unfold blockComment
  split
  · rfl
  · dsimp only
    split <;> rfl

theorem demandStrict_afterSlash (text : List Char) :
    (afterSlash text).demandStrict = afterSlash text := by
  unfold afterSlash
  split
  · rfl
  · exact demandStrict_blockComment _
  · rfl

theorem demandStrict_quoted (quote : Char) (text : List Char) :
    (quoted quote text).demandStrict = quoted quote text := by
  unfold quoted
  split <;> rfl

theorem demandStrict_word (first : Char) (text : List Char) :
    (word first text).demandStrict = word first text := by
  unfold word wordToken
  dsimp only
  split <;> rfl

theorem demandStrict_punctuation (c : Char) (text : List Char) :
    (punctuation c text).demandStrict = punctuation c text := by
  unfold punctuation
  split <;> rfl

theorem number_true (first : Char) (text : List Char) :
    number true first text = (number false first text).demandStrict := by
  unfold number demandStrict PieceKind.demandStrict Token.strictFault?
  simp only [Bool.false_and, Bool.true_and, Bool.false_eq_true, if_false, String.toList_ofList]
  cases hasStrictForm (first :: text.takeWhile isNumberPart) <;> rfl

/-- The demand for the strict form affects numbers only. -/
theorem head_true (c : Char) (text : List Char) :
    head true c text = (head false c text).demandStrict := by
  unfold head
  split
  · rfl
  split
  · rfl
  split
  · exact (demandStrict_afterSlash text).symm
  split
  · exact (demandStrict_quoted c text).symm
  split
  · exact number_true c text
  split
  · exact (demandStrict_word c text).symm
  · exact (demandStrict_punctuation c text).symm

end Piece

/-! ### Streams -/

namespace TokenStream

/-- A stream of given tokens and a given ending, where numbers must have the strict form. -/
def demandStrict (ending : Ending) : List SpannedToken → TokenStream
  | [] => ⟨[], ending⟩
  | t :: tokens =>
    match t.token.strictFault? with
    | none => (demandStrict ending tokens).cons t
    | some fault => ⟨[], .fault ⟨fault, t.span⟩⟩

/-- With the demand for the strict form, a stream ends at the first number without it. -/
theorem fromCursor_true (cursor : Cursor) :
    fromCursor true cursor =
      demandStrict (fromCursor false cursor).ending (fromCursor false cursor).tokens := by
  fun_induction fromCursor false cursor with
  | case1 position =>
    rw [fromCursor]
    rfl
  | case2 position c text piece behind hkind ih =>
    rw [← ih, fromCursor]
    simp only [Piece.head_true, Piece.demandStrict, PieceKind.demandStrict, piece, behind, hkind]
  | case3 position c text piece behind token hkind ih =>
    rw [cons, demandStrict, ← ih, fromCursor]
    simp only [Piece.head_true, Piece.demandStrict, PieceKind.demandStrict, piece, behind, hkind]
    cases token.strictFault? <;> rfl
  | case4 position c text piece behind fault hkind =>
    rw [fromCursor]
    simp only [Piece.head_true, Piece.demandStrict, PieceKind.demandStrict, piece, behind, hkind]
    rfl

variable {ending : Ending} {tokens before : List SpannedToken} {text : String} {span : Span}

theorem demandStrict_append (h : ∀ t ∈ before, t.token.HasStrictForm) :
    demandStrict ending (before ++ tokens) =
      ⟨before ++ (demandStrict ending tokens).tokens, (demandStrict ending tokens).ending⟩ := by
  induction before with
  | nil => rfl
  | cons t before ih =>
    obtain ⟨ht, hbefore⟩ := List.forall_mem_cons.1 h
    rw [List.cons_append, demandStrict, Token.strictFault?_eq_none_iff.2 ht, ih hbefore]
    rfl

theorem demandStrict_eq_self (h : ∀ t ∈ tokens, t.token.HasStrictForm) :
    demandStrict ending tokens = ⟨tokens, ending⟩ := by
  have happend : demandStrict ending (tokens ++ []) = _ := demandStrict_append h
  rwa [List.append_nil, demandStrict, List.append_nil] at happend

/-- Among the tokens the number `text` at `span` is the first one without the strict form, and
stands right behind the tokens `before`. -/
def BreaksAt (tokens before : List SpannedToken) (text : String) (span : Span) : Prop :=
  (∀ t ∈ before, t.token.HasStrictForm) ∧ ¬IsStrictNumber text.toList ∧
    ∃ after, tokens = before ++ ⟨.number text, span⟩ :: after

/-- All numbers have the strict form, or there is a first one without it. -/
theorem forall_hasStrictForm_or_breaksAt (tokens : List SpannedToken) :
    (∀ t ∈ tokens, t.token.HasStrictForm) ∨
      ∃ before text span, BreaksAt tokens before text span := by
  induction tokens with
  | nil => exact .inl (by simp)
  | cons t tokens ih =>
    cases hfault : t.token.strictFault? with
    | none =>
      have ht := Token.strictFault?_eq_none_iff.1 hfault
      rcases ih with hall | ⟨before, text, span, hbefore, htext, after, rfl⟩
      · exact .inl (List.forall_mem_cons.2 ⟨ht, hall⟩)
      · refine .inr ⟨t :: before, text, span, ?_, htext, after, rfl⟩
        exact List.forall_mem_cons.2 ⟨ht, hbefore⟩
    | some fault =>
      obtain ⟨token, span⟩ := t
      obtain ⟨text, rfl, htext, _⟩ := Token.strictFault?_eq_some_iff.1 hfault
      exact .inr ⟨[], text, span, by simp, htext, tokens, rfl⟩

theorem demandStrict_of_breaksAt (h : BreaksAt tokens before text span) :
    demandStrict ending tokens = ⟨before, .fault ⟨.invalidNumber text, span⟩⟩ := by
  obtain ⟨hbefore, htext, after, rfl⟩ := h
  have hfault : (Token.number text).strictFault? = some (.invalidNumber text) :=
    Token.strictFault?_eq_some_iff.2 ⟨text, rfl, htext, rfl⟩
  rw [demandStrict_append hbefore, demandStrict, hfault, List.append_nil]

variable {depth : Nat} {source : String}

/-- Where all numbers have the strict form, the demand for it makes no difference. -/
theorem ofSource_true_of_forall
    (h : ∀ t ∈ (ofSource ⟨false, depth⟩ source).tokens, t.token.HasStrictForm) :
    ofSource ⟨true, depth⟩ source = ofSource ⟨false, depth⟩ source :=
  (fromCursor_true (.start source)).trans (demandStrict_eq_self h)

/-- The first number without the strict form takes the place of all that follows. -/
theorem ofSource_true_of_breaksAt
    (h : BreaksAt (ofSource ⟨false, depth⟩ source).tokens before text span) :
    ofSource ⟨true, depth⟩ source = ⟨before, .fault ⟨.invalidNumber text, span⟩⟩ :=
  (fromCursor_true (.start source)).trans (demandStrict_of_breaksAt h)

end TokenStream

end ServiceIdl
