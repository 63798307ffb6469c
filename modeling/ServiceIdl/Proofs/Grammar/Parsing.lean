import ServiceIdl.Parse
import ServiceIdl.Proofs.Grammar.Documents
import ServiceIdl.Proofs.Lexing.Tiling
import ServiceIdl.Proofs.Reading.LayoutInert

/-!
# A source text is parsed if and only if it has a derivation

Doc comments and places of tokens have no influence on what is accepted, so a reading can
be followed without both. What remains is an automaton over tokens, and it accepts the
sentences of the grammar.
-/

namespace ServiceIdl

def Token.isDocComment : Token → Bool
  | .docComment _ => true
  | _ => false

theorem Token.isDocComment_iff {token : Token} :
    token.isDocComment = true ↔ ∃ comment, token = .docComment comment := by
  cases token <;> simp [isDocComment]

theorem readItem_of_docComment {t : SpannedToken} {comment : String}
    (h : t.token = .docComment comment) (limit : Nat) (state : DocumentReader.State) :
    readItem limit state (.ok t) =
      modify (· ++ docBody comment) >>= fun _ => pure state := by
  simp only [readItem, h]

theorem readItem_of_isDocComment_eq_false {t : SpannedToken} (h : t.token.isDocComment = false)
    (limit : Nat) (state : DocumentReader.State) :
    readItem limit state (.ok t) = DocumentReader.read limit state t := by
  obtain ⟨token, span⟩ := t
  cases token with
  | docComment comment => cases h
  | _ => rfl

/-- The tokens of a stream without places and without documentation comments. -/
def sentence (tokens : List SpannedToken) : List Token :=
  (tokens.map (·.token)).filter fun token => !token.isDocComment

/-- A document with no doc text at any node. -/
def Document.withoutDocTexts (document : Document) : Document :=
  document.mapLayout .plain

namespace DocumentReader

/-- Reads one token without layout. -/
def next? (limit : Nat) (state : State) (token : Token) : Option State :=
  (read limit state token.plain).plain?

variable {limit : Nat}

/-- Without layout the state behind a token is what it is with any layout, up to layout. -/
theorem next?_mapLayout (state : State) (t : SpannedToken) (pending : String) :
    next? limit (state.mapLayout .plain) t.token =
      ((read limit state t).run pending).toOption.map (·.1.mapLayout .plain) := by
  have hrelates := relates_read .plain limit t state pending
  have hrun : (read limit (state.mapLayout .plain) t.token.plain).run "" =
      LayoutMap.plain.outcome (fun result => (result.1.mapLayout .plain, ""))
        ((read limit state t).run pending) := hrelates
  rw [next?, Reading.plain?, hrun]
  cases (read limit state t).run pending <;> rfl

/-- Doc comments between the tokens make no difference to the state behind them. -/
theorem foldlM_next?_sentence (tokens : List SpannedToken) (state : State) (pending : String) :
    (sentence tokens).foldlM (next? limit) (state.mapLayout .plain) =
      ((readItems limit state (tokens.map .ok)).run pending).toOption.map
        (·.1.mapLayout .plain) := by
  induction tokens generalizing state pending with
  | nil => rfl
  | cons t tokens ih =>
    rw [List.map_cons, readItems, List.foldlM_cons, StateT.run_bind]
    by_cases hdoc : t.token.isDocComment = true
    · have hsentence : sentence (t :: tokens) = sentence tokens := by simp [sentence, hdoc]
      obtain ⟨comment, hcomment⟩ := Token.isDocComment_iff.1 hdoc
      -- The comment changes the pending doc text only, for which the induction is general.
      rw [hsentence, readItem_of_docComment hcomment]
      exact ih state (pending ++ docBody comment)
    · have hsentence : sentence (t :: tokens) = t.token :: sentence tokens := by
        simp [sentence, hdoc]
      have hitem := readItem_of_isDocComment_eq_false (Bool.eq_false_iff.2 hdoc) limit state
      rw [hsentence, List.foldlM_cons, hitem, next?_mapLayout state t pending]
      cases (read limit state t).run pending with
      | error e => rfl
      | ok result => exact ih result.1 result.2

/-- The document that is complete at the end of the input. -/
theorem accepts_iff_foldlM {tokens : List Token} (hend : Token.endOfInput ∉ tokens) {state : State}
    {result : Document} :
    Accepts (plain? limit) (.more state) (tokens ++ [Token.endOfInput]) result ↔
      ∃ last, (tokens ++ [Token.endOfInput]).foldlM (next? limit) state = some last ∧
        last.document = result := by
  induction tokens generalizing state with
  | nil =>
    rw [List.nil_append, accepts_cons_iff, plain?, List.foldlM_cons]
    change (∃ step, (next? limit state .endOfInput).map _ = some step ∧ _) ↔ _
    cases next? limit state Token.endOfInput <;> simp
  | cons token tokens ih =>
    obtain ⟨hne, hend⟩ := not_or.1 (mt List.mem_cons.2 hend)
    rw [List.cons_append, accepts_cons_iff, plain?, List.foldlM_cons]
    change (∃ step, (next? limit state token).map _ = some step ∧ _) ↔ _
    cases next? limit state token with
    | none => simp
    | some next => simpa [Ne.symm hne] using ih hend

end DocumentReader

theorem endOfInput_notMem_sentence (options : ParseOptions) (source : String) :
    Token.endOfInput ∉ sentence (TokenStream.ofSource options source).tokens := by
  intro h
  simp only [sentence, List.mem_filter, List.mem_map] at h
  obtain ⟨⟨t, ht, htoken⟩, _⟩ := h
  have hfalse := TokenStream.isLexeme_of_mem_ofSource ht
  rw [htoken] at hfalse
  exact hfalse

theorem parse_eq_map_readItems (options : ParseOptions) (source : String) :
    parse options source =
      ((readItems options.maxTypeDepth DocumentReader.start
        (TokenStream.ofSource options source).items).run "").map (·.1.document) := by
  rw [parse]
  cases (readItems options.maxTypeDepth DocumentReader.start
    (TokenStream.ofSource options source).items).run "" <;> rfl

theorem parse_eq_ok_iff {options : ParseOptions} {source : String} {document : Document} :
    parse options source = .ok document ↔
      ∃ last left, (readItems options.maxTypeDepth DocumentReader.start
        (TokenStream.ofSource options source).items).run "" = .ok (last, left) ∧
          last.document = document := by
  rw [parse_eq_map_readItems]
  cases (readItems options.maxTypeDepth DocumentReader.start
    (TokenStream.ofSource options source).items).run "" with
  | error e => simp [Except.map]
  | ok result =>
    obtain ⟨last, left⟩ := result
    simp [Except.map]

theorem parse_eq_error_iff {options : ParseOptions} {source : String} {e : ParseError} :
    parse options source = .error e ↔
      (readItems options.maxTypeDepth DocumentReader.start
        (TokenStream.ofSource options source).items).run "" = .error e := by
  rw [parse_eq_map_readItems]
  cases (readItems options.maxTypeDepth DocumentReader.start
    (TokenStream.ofSource options source).items).run "" <;> simp [Except.map]

theorem exists_parse_eq_ok_iff_foldlM {options : ParseOptions} {source : String}
    {span : Span} {document : Document}
    (hending : (TokenStream.ofSource options source).ending = .endOfInput span) :
    (∃ parsed, parse options source = .ok parsed ∧ parsed.withoutDocTexts = document) ↔
      ∃ last, (sentence (TokenStream.ofSource options source).tokens
        ++ [Token.endOfInput]).foldlM (DocumentReader.next? options.maxTypeDepth)
          DocumentReader.start = some last ∧ last.document = document := by
  rw [parse_eq_map_readItems]
  generalize TokenStream.ofSource options source = stream at hending ⊢
  have hitems : stream.items = (stream.tokens ++ [SpannedToken.mk .endOfInput span]).map .ok := by
    rw [TokenStream.items, hending, List.map_append]
    rfl
  have hsentence : sentence (stream.tokens ++ [SpannedToken.mk .endOfInput span]) =
      sentence stream.tokens ++ [.endOfInput] := by
    simp [sentence, Token.isDocComment]
  have hstart : DocumentReader.start.mapLayout .plain = DocumentReader.start := rfl
  rw [← hsentence, ← hstart, DocumentReader.foldlM_next?_sentence _ _ "", hitems, hstart]
  cases (readItems options.maxTypeDepth DocumentReader.start _).run "" with
  | error e => simp [Except.map]
  | ok result => simp [Except.map, Document.withoutDocTexts, DocumentReader.State.mapLayout]

theorem parse_ne_ok_of_fault {options : ParseOptions} {source : String} {error : LexError}
    (hending : (TokenStream.ofSource options source).ending = .fault error) (parsed : Document) :
    parse options source ≠ .ok parsed := by
  rw [parse_eq_map_readItems, TokenStream.items, hending, readItems_append, StateT.run_bind]
  cases (readItems options.maxTypeDepth DocumentReader.start
    ((TokenStream.ofSource options source).tokens.map .ok)).run "" with
  | error e => simp [Except.map, bind, Except.bind]
  | ok result =>
    change (Except.error _ : Except ParseError Document) ≠ _
    simp

/-- A source text is parsed, and its document is `document` up to doc texts, if and only if it
can be split into tokens, and these are the sentence of a derivation that denotes `document`. -/
theorem exists_parse_eq_ok_iff_derivation (options : ParseOptions) (source : String)
    (document : Document) :
    (∃ parsed, parse options source = .ok parsed ∧ parsed.withoutDocTexts = document) ↔
      (∃ span, (TokenStream.ofSource options source).ending = .endOfInput span) ∧
      ∃ tree : Syntax.Document,
        tree.tokens = sentence (TokenStream.ofSource options source).tokens ∧
          tree.value? options.maxTypeDepth = some document := by
  cases hending : (TokenStream.ofSource options source).ending with
  | fault error =>
    simp [parse_ne_ok_of_fault hending]
  | endOfInput span =>
    rw [exists_parse_eq_ok_iff_foldlM hending, ← DocumentReader.accepts_iff_foldlM
      (endOfInput_notMem_sentence options source), DocumentReader.accepts_iff]
    simp only [List.append_cancel_right_eq]
    constructor
    · rintro ⟨tree, htokens, hvalue⟩
      exact ⟨⟨span, rfl⟩, tree, htokens.symm, hvalue⟩
    · rintro ⟨_, tree, htokens, hvalue⟩
      exact ⟨tree, htokens.symm, hvalue⟩

end ServiceIdl
