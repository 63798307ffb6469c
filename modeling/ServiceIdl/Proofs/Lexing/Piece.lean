import ServiceIdl.Proofs.Lexing.Lexeme
import ServiceIdl.Proofs.Lexing.Trivia

/-!
# What the scanner cuts off

The piece at the head of a text is the trivia, the lexeme or the fault that the text
starts with. The three are said without the scanner, and the scanner finds the only one
that fits.
-/

namespace ServiceIdl

/-- No token and no trivia start with a character. -/
structure StartsNothing (c : Char) : Prop where
  notBlank : isBlank c = false
  notHash : c ≠ '#'
  notSlash : c ≠ '/'
  notQuote : isQuote c = false
  notNumber : isNumberStart c = false
  notName : isNameStart c = false
  notSymbol : ∀ s : Symbol, s.char ≠ c

/-- A fault stands at the head of a text: `text` is the faulty stretch and `rest` what
follows it. -/
def LexFault.StandsAt (strict : Bool) : LexFault → List Char → List Char → Prop
  | unexpectedChar c, text, rest =>
    text = [c] ∧ (StartsNothing c ∨ c = '/' ∧ rest.head? ≠ some '/' ∧ rest.head? ≠ some '*')
  | unterminatedString, text, rest =>
    rest = [] ∧ ∃ quote body, text = quote :: body ∧ isQuote quote = true ∧ quote ∉ body
  | unterminatedComment, text, rest => rest = [] ∧ IsOpenComment text
  | invalidNumber number, text, rest =>
    strict = true ∧ text = number.toList ∧ IsNumber text ∧ ¬IsStrictNumber text ∧
      ∀ c, rest.head? = some c → isNumberPart c = false

/-- A piece is what its kind says, in front of the text behind it. -/
def Piece.Fits (strict : Bool) (piece : Piece) : Prop :=
  match piece.kind with
  | .trivia => IsTriviaPiece piece.text piece.rest
  | .token token =>
    piece.text = token.text.toList ∧ token.IsLexeme strict ∧ token.EndsBefore piece.rest
  | .fault fault => fault.StandsAt strict piece.text piece.rest

/-! ### Classes of first characters -/

private theorem isAlpha_eq_false_of_isDigit {c : Char} (h : c.isDigit = true) :
    c.isAlpha = false := by
  have hnine : ('9' : Char).val.toNat < ('A' : Char).val.toNat := by decide
  have hlower : ('A' : Char).val.toNat < ('a' : Char).val.toNat := by decide
  have halpha : c.isAlpha = (decide ('A'.val ≤ c.val ∧ c.val ≤ 'Z'.val)
      || decide ('a'.val ≤ c.val) && decide (c.val ≤ 'z'.val)) := rfl
  simp only [halpha, Char.isDigit, Bool.and_eq_true, Bool.or_eq_false_iff, Bool.and_eq_false_iff,
    decide_eq_true_eq, decide_eq_false_iff_not, UInt32.le_iff_toNat_le] at h ⊢
  omega

/-- No name starts with a digit. -/
theorem isNameStart_eq_false_of_isDigit {c : Char} (h : c.isDigit = true) :
    isNameStart c = false := by
  have hascii : c.toNat < 0x80 := by
    have hnine : ('9' : Char).val.toNat < 0x80 := by decide
    simp only [Char.isDigit, Bool.and_eq_true, decide_eq_true_eq, UInt32.le_iff_toNat_le] at h
    exact Nat.lt_of_le_of_lt h.2 hnine
  have hunderscore : c ≠ '_' := by
    rintro rfl
    simp at h
  simp [isNameStart, isAlphabetic, hascii, isAlpha_eq_false_of_isDigit h, hunderscore]

private theorem ne_of_class {p : Char → Bool} {c : Char} (h : p c = true) (d : Char)
    (hd : p d = false) : c ≠ d := by
  rintro rfl
  rw [h] at hd
  contradiction

/-- The first characters of numbers are apart from those that the scanner asks for before. -/
theorem isNumberStart_apart {c : Char} (h : isNumberStart c = true) :
    isBlank c = false ∧ c ≠ '#' ∧ c ≠ '/' ∧ isQuote c = false := by
  have hne := ne_of_class h
  simp only [isBlank, isQuote, Bool.or_eq_false_iff, decide_eq_false_iff_not]
  exact ⟨⟨⟨⟨hne _ rfl, hne _ rfl⟩, hne _ rfl⟩, hne _ rfl⟩, hne _ rfl, hne _ rfl, hne _ rfl,
    hne _ rfl⟩

/-- The first characters of names are apart from those that the scanner asks for before. -/
theorem isNameStart_apart {c : Char} (h : isNameStart c = true) :
    isBlank c = false ∧ c ≠ '#' ∧ c ≠ '/' ∧ isQuote c = false ∧ isNumberStart c = false := by
  have hne := ne_of_class h
  have hdigit : c.isDigit = false := by
    by_contra hc
    rw [isNameStart_eq_false_of_isDigit (by simpa using hc)] at h
    contradiction
  simp only [isBlank, isQuote, isNumberStart, Bool.or_eq_false_iff, decide_eq_false_iff_not]
  exact ⟨⟨⟨⟨hne _ rfl, hne _ rfl⟩, hne _ rfl⟩, hne _ rfl⟩, hne _ rfl, hne _ rfl,
    ⟨hne _ rfl, hne _ rfl⟩, ⟨hne _ rfl, hne _ rfl⟩, hdigit⟩

theorem isQuote_cases {c : Char} (h : isQuote c = true) : c = '"' ∨ c = '\'' := by
  simpa [isQuote] using h

/-- A reserved word has the form of a name. -/
theorem Keyword.isName_text (k : Keyword) : IsName k.text.toList := by
  cases k <;> exact ⟨_, _, rfl, rfl, List.all_eq_true.1 rfl⟩

namespace Piece

variable {strict : Bool}

/-! ### One specification for each kind of piece -/

private theorem fits_lineComment {text : List Char} (h : ['#'] <+: text ∨ ['/', '/'] <+: text) :
    (lineComment text).Fits strict := by
  -- the opening is kept, since neither of its characters ends a line
  have hkeep : ∀ opening : List Char, (∀ c ∈ opening, (!isLineEnd c) = true) →
      opening <+: text → opening <+: text.takeWhile (!isLineEnd ·) := by
    rintro opening hopening ⟨tail, rfl⟩
    rw [List.takeWhile_append_of_pos hopening]
    exact List.prefix_append _ _
  refine .lineComment ⟨h.imp (hkeep _ (List.all_eq_true.1 rfl)) (hkeep _ (List.all_eq_true.1 rfl)),
    ?_⟩ ?_
  · intro c hc
    simpa using List.mem_takeWhile_imp hc
  · intro c hc
    simpa using eq_false_of_head?_dropWhile hc

private theorem lineComment_append {comment rest : List Char} (h : IsLineComment comment)
    (hends : EndsLine rest) : lineComment (comment ++ rest) = ⟨.trivia, comment, rest⟩ := by
  have hkeep : ∀ c ∈ comment, (!isLineEnd c) = true := by
    intro c hc
    simp [h.2 c hc]
  have hstop : ∀ c, rest.head? = some c → (!isLineEnd c) = false := by
    intro c hc
    simp [hends c hc]
  unfold lineComment
  rw [takeWhile_append_of_head hkeep hstop, dropWhile_append_of_head hkeep hstop]

theorem blockComment_append {body : List Char} (hbody : IsCommentBody body) (rest : List Char) :
    blockComment (body ++ '*' :: '/' :: rest) =
      if body.head? = some '*' then
        ⟨.token (.docComment (String.ofList ('/' :: '*' :: (body ++ ['*', '/'])))),
          '/' :: '*' :: (body ++ ['*', '/']), rest⟩
      else ⟨.trivia, '/' :: '*' :: (body ++ ['*', '/']), rest⟩ := by
  unfold blockComment
  rw [splitCommentEnd?_eq_some_iff.2 ⟨rfl, hbody⟩]

private theorem fits_blockComment (text : List Char) : (blockComment text).Fits strict := by
  cases hsplit : splitCommentEnd? text with
  | none =>
    unfold blockComment
    rw [hsplit]
    exact ⟨rfl, isOpenComment_iff.2 ⟨text, rfl, splitCommentEnd?_eq_none_iff.1 hsplit⟩⟩
  | some parts =>
    obtain ⟨body, rest⟩ := parts
    obtain ⟨rfl, hbody⟩ := splitCommentEnd?_eq_some_iff.1 hsplit
    rw [blockComment_append hbody]
    by_cases hstar : body.head? = some '*'
    · rw [if_pos hstar]
      refine ⟨String.toList_ofList.symm, ?_, by simp [Token.EndsBefore, Token.GoesOnWith]⟩
      rw [Token.IsLexeme, String.toList_ofList]
      exact (isDocComment_iff hbody).2 hstar
    · rw [if_neg hstar]
      exact .blockComment (isBlockComment_iff.2 ⟨body, rfl, hbody⟩)
        (mt (isDocComment_iff hbody).1 hstar)

private theorem fits_afterSlash (text : List Char) : (afterSlash text).Fits strict := by
  unfold afterSlash
  split
  · next tail => exact fits_lineComment (.inr ⟨tail, rfl⟩)
  · next body => exact fits_blockComment body
  · next hslash hstar =>
    refine ⟨rfl, .inr ⟨rfl, ?_, ?_⟩⟩
    · intro hhead
      obtain ⟨tail, rfl⟩ := List.head?_eq_some_iff.1 hhead
      exact hslash tail rfl
    · intro hhead
      obtain ⟨tail, rfl⟩ := List.head?_eq_some_iff.1 hhead
      exact hstar tail rfl

private theorem fits_quoted {quote : Char} (hquote : isQuote quote = true) (text : List Char) :
    (quoted quote text).Fits strict := by
  have hbody : quote ∉ text.takeWhile (· ≠ quote) := by
    intro hmem
    have := List.mem_takeWhile_imp hmem
    simp at this
  have happend := List.takeWhile_append_dropWhile (p := (· ≠ quote)) (l := text)
  unfold quoted
  split
  · next hnil =>
    rw [hnil, List.append_nil] at happend
    exact ⟨rfl, quote, text, rfl, hquote, happend ▸ hbody⟩
  · next close rest hcons =>
    obtain rfl : close = quote := by
      have := eq_false_of_head?_dropWhile (by rw [hcons, List.head?_cons])
      simpa using this
    refine ⟨String.toList_ofList.symm, ?_, by simp [Token.EndsBefore, Token.GoesOnWith]⟩
    rw [Token.IsLexeme, String.toList_ofList]
    exact ⟨close, _, rfl, hquote, hbody⟩

private theorem fits_number {first : Char} (hfirst : isNumberStart first = true)
    (text : List Char) : (number strict first text).Fits strict := by
  have hnumber : IsNumber (first :: text.takeWhile isNumberPart) :=
    ⟨first, _, rfl, hfirst, fun c hc => List.mem_takeWhile_imp hc⟩
  have hends : ∀ c, (text.dropWhile isNumberPart).head? = some c → isNumberPart c = false :=
    fun c hc => eq_false_of_head?_dropWhile hc
  unfold number
  dsimp only
  split
  · next hinvalid =>
    simp only [Bool.and_eq_true, Bool.not_eq_true'] at hinvalid
    refine ⟨hinvalid.1, String.toList_ofList.symm, hnumber, ?_, hends⟩
    rw [← hasStrictForm_iff, hinvalid.2]
    simp
  · next hvalid =>
    refine ⟨String.toList_ofList.symm, ?_, hends⟩
    rw [Token.IsLexeme, String.toList_ofList]
    refine ⟨hnumber, fun hstrict => hasStrictForm_iff.1 ?_⟩
    simpa [hstrict] using hvalid

private theorem wordToken_cases (word : String) :
    (∃ k : Keyword, wordToken word = .keyword k ∧ k.text = word) ∨
      (wordToken word = .identifier word ∧ ∀ k : Keyword, k.text ≠ word) := by
  unfold wordToken
  cases hword : Keyword.ofText? word with
  | some k => exact .inl ⟨k, rfl, Keyword.ofText?_eq_some_iff.1 hword⟩
  | none =>
    refine .inr ⟨rfl, ?_⟩
    intro k hk
    rw [Keyword.ofText?_eq_some_iff.2 hk] at hword
    contradiction

private theorem fits_word {first : Char} (hfirst : isNameStart first = true) (text : List Char) :
    (word first text).Fits strict := by
  have hname : IsName (first :: text.takeWhile isNamePart) :=
    ⟨first, _, rfl, hfirst, fun c hc => List.mem_takeWhile_imp hc⟩
  have hends : ∀ c, (text.dropWhile isNamePart).head? = some c → isNamePart c = false :=
    fun c hc => eq_false_of_head?_dropWhile hc
  unfold word Fits
  dsimp only
  obtain ⟨k, hk, htext⟩ | ⟨hword, hnone⟩ :=
    wordToken_cases (String.ofList (first :: text.takeWhile isNamePart))
  · rw [hk]
    refine ⟨?_, trivial, hends⟩
    rw [Token.text, htext, String.toList_ofList]
  · rw [hword]
    refine ⟨String.toList_ofList.symm, ⟨?_, hnone⟩, hends⟩
    rw [String.toList_ofList]
    exact hname

private theorem fits_punctuation {c : Char} (h : StartsNothing c ∨ ∃ s : Symbol, s.char = c)
    (text : List Char) : (punctuation c text).Fits strict := by
  unfold punctuation
  cases hsymbol : Symbol.ofChar? c with
  | some s =>
    obtain rfl := Symbol.ofChar?_eq_some_iff.1 hsymbol
    exact ⟨by simp [Token.text], trivial, by simp [Token.EndsBefore, Token.GoesOnWith]⟩
  | none =>
    rcases h with h | ⟨s, hs⟩
    · exact ⟨rfl, .inl h⟩
    · rw [Symbol.ofChar?_eq_some_iff.2 hs] at hsymbol
      contradiction

/-- The scanner cuts off a piece that fits. -/
theorem fits_head (strict : Bool) (c : Char) (text : List Char) :
    (head strict c text).Fits strict := by
  unfold head
  split
  · next hblank => exact .blank hblank
  split
  · next hhash =>
    subst hhash
    exact fits_lineComment (.inl ⟨text, rfl⟩)
  split
  · exact fits_afterSlash text
  split
  · next hquote => exact fits_quoted hquote text
  split
  · next hnumber => exact fits_number hnumber text
  split
  · next hname => exact fits_word hname text
  · next hblank hhash hslash hquote hnumber hname =>
    refine fits_punctuation ?_ text
    by_cases hsymbol : ∃ s : Symbol, s.char = c
    · exact .inr hsymbol
    · simp only [Bool.not_eq_true] at hblank hquote hnumber hname
      exact .inl ⟨hblank, hhash, hslash, hquote, hnumber, hname, not_exists.1 hsymbol⟩

/-! ### No other piece fits -/

theorem head_of_isNumberStart {c : Char} (h : isNumberStart c = true) (text : List Char) :
    head strict c text = number strict c text := by
  obtain ⟨hblank, hhash, hslash, hquote⟩ := isNumberStart_apart h
  simp [head, hblank, hhash, hslash, hquote, h]

theorem head_of_isNameStart {c : Char} (h : isNameStart c = true) (text : List Char) :
    head strict c text = word c text := by
  obtain ⟨hblank, hhash, hslash, hquote, hnumber⟩ := isNameStart_apart h
  simp [head, hblank, hhash, hslash, hquote, hnumber, h]

theorem head_of_isQuote {c : Char} (h : isQuote c = true) (text : List Char) :
    head strict c text = quoted c text := by
  rcases isQuote_cases h with rfl | rfl <;> rfl

private theorem head_of_isTriviaPiece {piece rest text : List Char} {c : Char}
    (h : IsTriviaPiece piece rest) (happend : piece ++ rest = c :: text) :
    head strict c text = ⟨.trivia, piece, rest⟩ := by
  cases h with
  | @blank d _ hblank =>
    obtain ⟨rfl, rfl⟩ := List.cons.inj happend
    simp [head, hblank]
  | lineComment hcomment hends =>
    rw [← lineComment_append hcomment hends, happend]
    rcases hcomment.1 with ⟨tail, rfl⟩ | ⟨tail, rfl⟩
    · obtain ⟨rfl, rfl⟩ := List.cons.inj happend
      rfl
    · obtain ⟨rfl, rfl⟩ := List.cons.inj happend
      rfl
  | blockComment hcomment hdoc =>
    obtain ⟨body, rfl, hbody⟩ := isBlockComment_iff.1 hcomment
    obtain ⟨rfl, rfl⟩ := List.cons.inj happend
    have hcut := blockComment_append hbody rest
    rw [if_neg (mt (isDocComment_iff hbody).2 hdoc)] at hcut
    change blockComment (body ++ ['*', '/'] ++ rest) = _
    rw [List.append_assoc]
    exact hcut

private theorem quoted_append {quote : Char} {body : List Char} (hbody : quote ∉ body)
    (rest : List Char) :
    quoted quote (body ++ quote :: rest) =
      ⟨.token (.string (String.ofList (quote :: (body ++ [quote])))),
        quote :: (body ++ [quote]), rest⟩ := by
  have hkeep : ∀ c ∈ body, decide (c ≠ quote) = true := by
    intro c hc
    simpa using ne_of_mem_of_not_mem hc hbody
  have hstop : ∀ c, (quote :: rest).head? = some c → decide (c ≠ quote) = false := by
    intro c hc
    simpa using hc.symm
  unfold quoted
  rw [takeWhile_append_of_head hkeep hstop, dropWhile_append_of_head hkeep hstop]

private theorem wordToken_of_keyword (k : Keyword) : wordToken k.text = .keyword k := by
  unfold wordToken
  rw [Keyword.ofText?_eq_some_iff.2 rfl]

private theorem wordToken_of_ne {word : String} (h : ∀ k : Keyword, k.text ≠ word) :
    wordToken word = .identifier word := by
  obtain ⟨k, _, hk⟩ | ⟨hword, _⟩ := wordToken_cases word
  · exact absurd hk (h k)
  · exact hword

private theorem word_append {first : Char} {name rest : List Char}
    (hname : ∀ c ∈ name, isNamePart c = true)
    (hends : ∀ c, rest.head? = some c → isNamePart c = false) :
    word first (name ++ rest) =
      ⟨.token (wordToken (String.ofList (first :: name))), first :: name, rest⟩ := by
  unfold word
  rw [takeWhile_append_of_head hname hends, dropWhile_append_of_head hname hends]

private theorem head_of_isName {word rest text : List Char} {c : Char} (h : IsName word)
    (hends : ∀ c, rest.head? = some c → isNamePart c = false)
    (happend : word ++ rest = c :: text) :
    head strict c text = ⟨.token (wordToken (String.ofList word)), word, rest⟩ := by
  obtain ⟨first, name, rfl, hfirst, hname⟩ := h
  obtain ⟨rfl, rfl⟩ := List.cons.inj happend
  rw [head_of_isNameStart hfirst]
  exact word_append hname hends

private theorem head_of_isNumber {digits rest text : List Char} {c : Char} (h : IsNumber digits)
    (hends : ∀ c, rest.head? = some c → isNumberPart c = false)
    (happend : digits ++ rest = c :: text) :
    head strict c text =
      if strict && !hasStrictForm digits then
        ⟨.fault (.invalidNumber (String.ofList digits)), digits, rest⟩
      else ⟨.token (.number (String.ofList digits)), digits, rest⟩ := by
  obtain ⟨first, tail, rfl, hfirst, htail⟩ := h
  obtain ⟨rfl, rfl⟩ := List.cons.inj happend
  rw [head_of_isNumberStart hfirst]
  unfold number
  rw [List.append_eq, takeWhile_append_of_head htail hends, dropWhile_append_of_head htail hends]

private theorem head_of_isLexeme {token : Token} {rest text : List Char} {c : Char}
    (h : token.IsLexeme strict) (hends : token.EndsBefore rest)
    (happend : token.text.toList ++ rest = c :: text) :
    head strict c text = ⟨.token token, token.text.toList, rest⟩ := by
  cases token with
  | keyword word =>
    rw [head_of_isName word.isName_text hends happend, String.ofList_toList]
    rw [wordToken_of_keyword]
    rfl
  | symbol s =>
    obtain ⟨rfl, rfl⟩ : s.char = c ∧ rest = text := by simpa [Token.text] using happend
    cases s <;> rfl
  | identifier name =>
    rw [head_of_isName h.1 hends happend, String.ofList_toList, wordToken_of_ne h.2]
    rfl
  | number digits =>
    have hvalid : ¬(strict && !hasStrictForm digits.toList) = true := by
      intro hinvalid
      simp only [Bool.and_eq_true, Bool.not_eq_true'] at hinvalid
      rw [hasStrictForm_iff.2 (h.2 hinvalid.1)] at hinvalid
      simp at hinvalid
    rw [head_of_isNumber h.1 hends happend, if_neg hvalid, String.ofList_toList]
    rfl
  | string literal =>
    obtain ⟨quote, body, htext, hquote, hbody⟩ := h
    simp only [Token.text, htext, List.cons_append, List.append_assoc] at happend ⊢
    obtain ⟨rfl, rfl⟩ := List.cons.inj happend
    rw [head_of_isQuote hquote]
    have hcut := quoted_append hbody rest
    rwa [← htext, String.ofList_toList, htext] at hcut
  | docComment comment =>
    obtain ⟨body, htext, hbody⟩ := isBlockComment_iff.1 h.toIsBlockComment
    simp only [Token.text, htext] at happend ⊢
    obtain ⟨rfl, rfl⟩ := List.cons.inj happend
    have hcut := blockComment_append hbody rest
    rw [if_pos ((isDocComment_iff hbody).1 (htext ▸ h)), ← htext, String.ofList_toList, htext]
      at hcut
    change blockComment (body ++ ['*', '/'] ++ rest) = _
    rw [List.append_assoc]
    exact hcut
  | endOfInput => exact absurd h id

private theorem head_of_standsAt {fault : LexFault} {stretch rest text : List Char} {c : Char}
    (h : fault.StandsAt strict stretch rest) (happend : stretch ++ rest = c :: text) :
    head strict c text = ⟨.fault fault, stretch, rest⟩ := by
  cases fault with
  | unexpectedChar d =>
    obtain ⟨rfl, h⟩ := h
    obtain ⟨rfl, rfl⟩ := List.cons.inj happend
    rcases h with h | ⟨rfl, hslash, hstar⟩
    · obtain ⟨hblank, hhash, hslash, hquote, hnumber, hname, hsymbol⟩ := h
      have hnone : Symbol.ofChar? d = none := by
        rw [Option.eq_none_iff_forall_ne_some]
        intro s hs
        exact hsymbol s (Symbol.ofChar?_eq_some_iff.1 hs)
      simp [head, hblank, hhash, hslash, hquote, hnumber, hname, punctuation, hnone]
    · change afterSlash rest = _
      unfold afterSlash
      split
      · simp at hslash
      · simp at hstar
      · rfl
  | unterminatedString =>
    obtain ⟨rfl, quote, body, rfl, hquote, hbody⟩ := h
    obtain ⟨rfl, rfl⟩ := List.cons.inj happend
    rw [head_of_isQuote hquote]
    have hnil : body.dropWhile (· ≠ quote) = [] := by
      rw [List.dropWhile_eq_nil_iff]
      intro c hc
      simpa using ne_of_mem_of_not_mem hc hbody
    unfold quoted
    rw [List.append_eq, List.append_nil, hnil]
  | unterminatedComment =>
    obtain ⟨rfl, hopen⟩ := h
    obtain ⟨body, rfl, hbody⟩ := isOpenComment_iff.1 hopen
    obtain ⟨rfl, rfl⟩ := List.cons.inj happend
    rw [List.append_eq, List.append_nil]
    change blockComment body = _
    unfold blockComment
    rw [splitCommentEnd?_eq_none_iff.2 hbody]
  | invalidNumber digits =>
    obtain ⟨rfl, rfl, hnumber, hform, hends⟩ := h
    have hinvalid : (true && !hasStrictForm digits.toList) = true := by
      simpa using mt hasStrictForm_iff.1 hform
    rw [head_of_isNumber hnumber hends happend, if_pos hinvalid, String.ofList_toList]

/-- The piece at the head of a text is the only one that fits there. -/
theorem head_eq_iff {c : Char} {text : List Char} {piece : Piece} :
    head strict c text = piece ↔ piece.text ++ piece.rest = c :: text ∧ piece.Fits strict := by
  constructor
  · rintro rfl
    exact ⟨text_append_rest_head strict c text, fits_head strict c text⟩
  · rintro ⟨happend, hfits⟩
    obtain ⟨kind, stretch, rest⟩ := piece
    cases kind with
    | trivia => exact head_of_isTriviaPiece hfits happend
    | token token =>
      obtain ⟨rfl, hlexeme, hends⟩ := hfits
      exact head_of_isLexeme hlexeme hends happend
    | fault fault => exact head_of_standsAt hfits happend

end Piece

end ServiceIdl
