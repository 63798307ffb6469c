import ServiceIdl.Proofs.Lexing.Concatenation
import ServiceIdl.Proofs.Lexing.Prefix
import ServiceIdl.Proofs.Parsing.Misplaced

/-!
# The first token that cannot be continued

A token that is reported out of place is the first one that fits no document: what stands in
front of it can be completed to a text with a document, and no text with a document starts with
the tokens up to it.
-/

namespace ServiceIdl

/-! ### States without numbers left open -/

theorem EnumReader.State.isNumbered_mapLayout (m : LayoutMap) (state : EnumReader.State) :
    (state.mapLayout m).isNumbered = state.isNumbered := by
  cases state <;> rfl

theorem FieldListReader.State.isIndexed_mapLayout (m : LayoutMap)
    (state : FieldListReader.State) : (state.mapLayout m).isIndexed = state.isIndexed := by
  obtain ⟨fields, phase⟩ := state
  cases phase <;> rfl

theorem StructReader.State.isIndexed_mapLayout (m : LayoutMap) (state : StructReader.State) :
    (state.mapLayout m).isIndexed = state.isIndexed := by
  cases state with
  | opening name docText => rfl
  | fields name docText reader => exact reader.isIndexed_mapLayout m

theorem ServiceReader.State.isIndexed_mapLayout (m : LayoutMap) (state : ServiceReader.State) :
    (state.mapLayout m).isIndexed = state.isIndexed := by
  obtain ⟨service, phase⟩ := state
  cases phase with
  | arguments function reader => exact reader.isIndexed_mapLayout m
  | throws function reader => exact reader.isIndexed_mapLayout m
  | _ => rfl

theorem DocumentReader.State.isNumbered_mapLayout (m : LayoutMap)
    (state : DocumentReader.State) : (state.mapLayout m).isNumbered = state.isNumbered := by
  obtain ⟨document, phase⟩ := state
  cases phase with
  | enum reader => exact reader.isNumbered_mapLayout m
  | struct reader => exact reader.isIndexed_mapLayout m
  | exception reader => exact reader.isIndexed_mapLayout m
  | service reader => exact reader.isIndexed_mapLayout m
  | _ => rfl

/-! ### Where reading fails -/

/-- Reading that fails has read some tokens and fails at the element behind them. -/
theorem readItems_eq_error_split {limit : Nat} {state : DocumentReader.State} {items : List Item}
    {pending : String} {e : ParseError}
    (h : (readItems limit state items).run pending = .error e) :
    ∃ (tokens : List SpannedToken) (item : Item) (behind : List Item)
        (next : DocumentReader.State) (left : String),
      items = tokens.map .ok ++ item :: behind ∧
        (readItems limit state (tokens.map .ok)).run pending = .ok (next, left) ∧
        (readItem limit next item).run left = .error e := by
  induction items generalizing state pending with
  | nil => cases h
  | cons item items ih =>
    rw [readItems, List.foldlM_cons, StateT.run_bind] at h
    cases hitem : (readItem limit state item).run pending with
    | error e' =>
      rw [hitem] at h
      obtain rfl : e' = e := Except.error.inj h
      exact ⟨[], item, items, state, pending, rfl, rfl, hitem⟩
    | ok between =>
      cases item with
      | error fault => cases hitem
      | ok t =>
        rw [hitem] at h
        obtain ⟨tokens, item, behind, next, left, rfl, hfirst, hfails⟩ := ih h
        refine ⟨t :: tokens, item, behind, next, left, rfl, ?_, hfails⟩
        rw [List.map_cons, readItems, List.foldlM_cons, StateT.run_bind, hitem]
        exact hfirst

/-- Reading fails at a lexical error, or at a token other than a doc comment, which is refused. -/
theorem of_readItem_eq_error {limit : Nat} {state : DocumentReader.State} {item : Item}
    {pending : String} {e : ParseError} (h : (readItem limit state item).run pending = .error e) :
    (∃ error, item = .error error ∧ .ofLex error = e) ∨
      ∃ t, item = .ok t ∧ t.token.isDocComment = false ∧
        (DocumentReader.read limit state t).run pending = .error e := by
  cases item with
  | error error => exact .inl ⟨error, rfl, Except.error.inj h⟩
  | ok t =>
    cases hdoc : t.token.isDocComment with
    | true =>
      obtain ⟨comment, hcomment⟩ := Token.isDocComment_iff.1 hdoc
      rw [readItem_of_docComment hcomment] at h
      cases h
    | false =>
      rw [readItem_of_isDocComment_eq_false hdoc] at h
      exact .inr ⟨t, rfl, hdoc, h⟩

/-- An element of a stream that is found out of place is a token, which the complaint is about,
and no number is left open before it. -/
theorem exists_token_of_isMisplaced {limit : Nat} {state : DocumentReader.State} {item : Item}
    {pending : String} {e : ParseError} (h : (readItem limit state item).run pending = .error e)
    (hmisplaced : e.IsMisplaced) :
    ∃ t, item = .ok t ∧ (∃ expected, e = t.unexpected expected) ∧ state.isNumbered = true := by
  rcases of_readItem_eq_error h with ⟨error, _, rfl⟩ | ⟨t, rfl, _, hfails⟩
  · simp [ParseError.IsMisplaced, ParseError.ofLex] at hmisplaced
  · obtain ⟨hexpected, hnumbered⟩ :=
      DocumentReader.blames_read limit state pending e hfails hmisplaced
    exact ⟨t, rfl, hexpected, hnumbered⟩

/-! ### Tokens in front and behind -/

namespace DocumentReader

/-- Behind tokens that lead to a state comes what is accepted there. -/
theorem accepts_append_iff {limit : Nat} {first rest : List Token} {state next : State}
    {result : Document} (hend : Token.endOfInput ∉ first)
    (h : first.foldlM (next? limit) state = some next) :
    Accepts (plain? limit) (.more state) (first ++ rest) result ↔
      Accepts (plain? limit) (.more next) rest result := by
  induction first generalizing state with
  | nil =>
    obtain rfl : state = next := Option.some.inj h
    rfl
  | cons token first ih =>
    obtain ⟨hne, hend⟩ := not_or.1 (mt List.mem_cons.2 hend)
    rw [List.foldlM_cons] at h
    obtain ⟨between, htoken, hfirst⟩ := Option.bind_eq_some_iff.1 h
    have hread : plain? limit state token = some (.more between) := by
      have hmap : plain? limit state token = (next? limit state token).map fun next =>
        if token = .endOfInput then .done next.document else .more next := rfl
      rw [hmap, htoken, Option.map_some, if_neg (Ne.symm hne)]
    rw [List.cons_append, accepts_cons_iff]
    simp only [hread, Option.some.injEq, exists_eq_left']
    exact ih hend hfirst

end DocumentReader

theorem sentence_append (first second : List SpannedToken) :
    sentence (first ++ second) = sentence first ++ sentence second := by
  simp [sentence]

/-- Writable tokens are read behind a text as they are read alone. -/
theorem exists_ofSource_append_writeLines {options : ParseOptions} {source : String} {span : Span}
    (hending : (TokenStream.ofSource options source).ending = .endOfInput span)
    {tokens : List Token} (h : IsWritable options.strictNumbers tokens) :
    ∃ read span', TokenStream.ofSource options
        (source ++ "\n" ++ String.ofList (writeLines tokens)) = ⟨read, .endOfInput span'⟩ ∧
      sentence read = sentence (TokenStream.ofSource options source).tokens ++ tokens := by
  obtain ⟨read, span', hstream, rfl⟩ := exists_ofSource_writeLines h
  refine ⟨_, _, by rw [TokenStream.ofSource_append_newline hending, hstream]; rfl, ?_⟩
  -- The places of the tokens that are written behind the text make no difference.
  have hshift (lines bytes : Nat) : sentence (read.map (·.shift lines bytes)) = sentence read := by
    rw [sentence, sentence, List.map_map]
    rfl
  rw [TokenStream.shift, sentence_append, hshift, sentence_of_isWritable h]

/-- A stream without a fault, without places and doc comments. -/
theorem TokenStream.substance_of_endOfInput {stream : TokenStream} {span : Span}
    (h : stream.ending = .endOfInput span) :
    stream.substance = (sentence stream.tokens ++ [Token.endOfInput]).map .ok := by
  have hfilter (tokens : List SpannedToken) :
      ((tokens.map Except.ok).filter fun item : Item => !item.isDocComment).map Item.content =
        (sentence tokens).map .ok := by
    rw [List.filter_map, List.map_map, sentence, List.filter_map, List.map_map]
    rfl
  have hitems : stream.items = stream.tokens.map .ok ++ [.ok ⟨.endOfInput, span⟩] := by
    rw [items, h]
    rfl
  rw [substance, hitems, List.filter_append, List.map_append, List.map_append, hfilter]
  rfl

/-- Tokens with which a document can start lead to a state. -/
theorem foldlM_next?_of_prefix {options : ParseOptions} {source : String} {document : Document}
    (hparse : parse options source = .ok document) {tokens : List Token}
    (hstarts : tokens.map .ok <+: (TokenStream.ofSource options source).substance) :
    tokens.foldlM (DocumentReader.next? options.maxTypeDepth) DocumentReader.start ≠ none := by
  cases hending : (TokenStream.ofSource options source).ending with
  | fault error => exact absurd hparse (parse_ne_ok_of_fault hending document)
  | endOfInput span =>
    obtain ⟨last, hfold, _⟩ := (exists_parse_eq_ok_iff_foldlM hending).1 ⟨document, hparse, rfl⟩
    rw [TokenStream.substance_of_endOfInput hending] at hstarts
    obtain ⟨behind, hbehind⟩ := hstarts
    obtain ⟨first, rest, hsplit, hfirst, _⟩ := List.map_eq_append_iff.1 hbehind.symm
    obtain rfl := (List.map_inj_right fun _ _ => Except.ok.inj).1 hfirst
    rw [hsplit, List.foldlM_append] at hfold
    intro hnone
    rw [hnone] at hfold
    cases hfold

/-! ### The law -/

section

variable {options : ParseOptions} {source : String} {tokens : List SpannedToken}
  {t : SpannedToken} {behind : List Item} {next : DocumentReader.State} {left : String}

/-- What stands in front of a token can be completed, unless a number is left open there. -/
theorem exists_parse_completed
    (hitems : (TokenStream.ofSource options source).items = tokens.map .ok ++ .ok t :: behind)
    (hfirst : (readItems options.maxTypeDepth DocumentReader.start (tokens.map .ok)).run "" =
      .ok (next, left)) (hnumbered : next.isNumbered = true) :
    ∃ before rest text document, splitBytes? t.span.start.offset source.toList =
        some (before, rest) ∧
      parse options (String.ofList before ++ "\n" ++ text) = .ok document := by
  obtain ⟨before, rest, span, hsplit, hbefore⟩ := TokenStream.exists_ofSource_truncated hitems
  have hending : (TokenStream.ofSource options (String.ofList before)).ending =
      .endOfInput span := by rw [hbefore]
  -- The tokens in front lead to a state of which the layout makes no difference.
  have hstart : DocumentReader.start.mapLayout .plain = DocumentReader.start := rfl
  have hlead : (sentence tokens).foldlM (DocumentReader.next? options.maxTypeDepth)
      DocumentReader.start = some (next.mapLayout .plain) := by
    rw [← hstart, DocumentReader.foldlM_next?_sentence tokens _ "", hfirst]
    rfl
  have hfinishes : Finishes options.strictNumbers [.endOfInput]
      (DocumentReader.plain? options.maxTypeDepth) (.more (next.mapLayout .plain)) :=
    DocumentReader.finishes (by rw [next.isNumbered_mapLayout, hnumbered])
  obtain ⟨tail, result, htail, haccepts⟩ := hfinishes
  obtain ⟨read, span', hstream, hread⟩ := exists_ofSource_append_writeLines hending htail
  have hending' : (TokenStream.ofSource options (String.ofList before ++ "\n" ++
    String.ofList (writeLines tail))).ending = .endOfInput span' := by rw [hstream]
  have hnotMem := endOfInput_notMem_sentence options (String.ofList before)
  rw [hbefore] at hread hnotMem
  obtain ⟨document, hparse, _⟩ := (exists_parse_eq_ok_iff_accepts hending').2 <| by
    rw [hstream, hread, List.append_assoc]
    exact (DocumentReader.accepts_append_iff hnotMem hlead).2 haccepts
  exact ⟨before, rest, _, document, hsplit, hparse⟩

/-- No text with a document starts with tokens of which the last one cannot be read. -/
theorem parse_ne_ok_of_prefix {e : ParseError} {other : String}
    (hfirst : (readItems options.maxTypeDepth DocumentReader.start (tokens.map .ok)).run "" =
      .ok (next, left))
    (hfails : (readItem options.maxTypeDepth next (.ok t)).run left = .error e)
    (hstarts : (sentence (tokens ++ [t])).map .ok <+:
      (TokenStream.ofSource options other).substance) (document : Document) :
    parse options other ≠ .ok document := by
  have hrun : (readItems options.maxTypeDepth DocumentReader.start
      ((tokens ++ [t]).map .ok)).run "" = .error e := by
    rw [List.map_append, readItems_append, StateT.run_bind, hfirst]
    change (readItems options.maxTypeDepth next [.ok t]).run left = .error e
    rw [readItems, List.foldlM_cons, StateT.run_bind, hfails]
    rfl
  intro hparse
  apply foldlM_next?_of_prefix hparse hstarts
  have hstart : DocumentReader.start.mapLayout .plain = DocumentReader.start := rfl
  rw [← hstart, DocumentReader.foldlM_next?_sentence (tokens ++ [t]) _ "", hrun]
  rfl

end

/-- A token out of place is reported at the first token that cannot be continued. -/
theorem viable_before_misplaced_token {options : ParseOptions} {source expected found : String}
    {span : Span} (h : parse options source = .error ⟨.unexpectedToken expected found, span⟩)
    (hcolon : expected ≠ "':'") (hinteger : expected ≠ "integer") :
    (∃ before rest text document, splitBytes? span.start.offset source.toList =
        some (before, rest) ∧
      parse options (String.ofList before ++ "\n" ++ text) = .ok document) ∧
    ∃ tokens t behind, (TokenStream.ofSource options source).items =
        tokens.map .ok ++ .ok t :: behind ∧ t.span = span ∧ t.token.displayName = found ∧
      ∀ other, (sentence (tokens ++ [t])).map .ok <+:
          (TokenStream.ofSource options other).substance →
        ∀ document, parse options other ≠ .ok document := by
  have hrun : (readItems options.maxTypeDepth DocumentReader.start
      (TokenStream.ofSource options source).items).run "" =
        .error ⟨.unexpectedToken expected found, span⟩ := by
    rw [parse_eq_map_readItems] at h
    cases hrun : (readItems options.maxTypeDepth DocumentReader.start
      (TokenStream.ofSource options source).items).run "" with
    | error e =>
      rw [hrun] at h
      exact congrArg _ (Except.error.inj h)
    | ok result =>
      rw [hrun] at h
      cases h
  obtain ⟨tokens, item, behind, next, left, hitems, hfirst, hfails⟩ :=
    readItems_eq_error_split hrun
  obtain ⟨t, rfl, ⟨expected', hcomplaint⟩, hnumbered⟩ :=
    exists_token_of_isMisplaced hfails ⟨expected, found, rfl, hcolon, hinteger⟩
  obtain ⟨hfault, rfl⟩ := ParseError.mk.inj hcomplaint
  obtain ⟨rfl, rfl⟩ := ParseFault.unexpectedToken.inj hfault
  refine ⟨exists_parse_completed hitems hfirst hnumbered, tokens, t, behind, hitems, rfl, rfl, ?_⟩
  exact fun other hstarts => parse_ne_ok_of_prefix hfirst hfails hstarts

/-- A type that breaks off is completed by some text. -/
theorem viable_before_typedef_name :
    parse ⟨true, 2⟩ "typedef list<T x" =
        .error ⟨.unexpectedToken "'>'" "identifier 'x'", ⟨⟨1, 16, 15⟩, 16⟩⟩ ∧
      ∃ before rest text document,
        splitBytes? 15 "typedef list<T x".toList = some (before, rest) ∧
          parse ⟨true, 2⟩ (String.ofList before ++ "\n" ++ text) = .ok document := by
  have hparse : parse ⟨true, 2⟩ "typedef list<T x" =
      .error ⟨.unexpectedToken "'>'" "identifier 'x'", ⟨⟨1, 16, 15⟩, 16⟩⟩ := by decide +kernel
  exact ⟨hparse, (viable_before_misplaced_token hparse (by decide) (by decide)).1⟩

end ServiceIdl
