import ServiceIdl.Proofs.Lexing.Concatenation
import ServiceIdl.Proofs.Parsing.Layout
import ServiceIdl.Proofs.Parsing.Transitions

/-!
# Parsing texts one behind the other

Behind a definition nothing is left over: no part of a statement has been read, and no doc
text is pending. What follows is therefore read as it is read alone, except that it stands
further down and that its definitions are put behind those that are there already.
-/

namespace ServiceIdl

/-! ### Text further down -/

/-- The same error with a number of further lines and bytes before it. -/
def ParseError.shift (lines bytes : Nat) (e : ParseError) : ParseError :=
  ⟨e.fault, e.span.shift lines bytes⟩

/-- Everything stands a number of lines and bytes further down. -/
def LayoutMap.shift (lines bytes : Nat) : LayoutMap :=
  .moved (·.shift lines bytes)

def Item.shift (lines bytes : Nat) : Item → Item
  | .ok t => .ok (t.shift lines bytes)
  | .error e => .error ⟨e.fault, e.span.shift lines bytes⟩

theorem TokenStream.items_shift (lines bytes : Nat) (stream : TokenStream) :
    (stream.shift lines bytes).items = stream.items.map (Item.shift lines bytes) := by
  have hending : (stream.ending.shift lines bytes).item =
      Item.shift lines bytes stream.ending.item := by
    cases stream.ending <;> rfl
  simp only [items, shift, List.map_append, List.map_map, List.map_singleton, hending]
  rfl

/-- Elements of a stream that stand further down are read in the same way. -/
theorem relates_readItems_shift (limit lines bytes : Nat) (state : DocumentReader.State)
    (items : List Item) :
    (LayoutMap.shift lines bytes).Relates (·.mapLayout (.shift lines bytes))
      (readItems limit state items)
      (readItems limit (state.mapLayout (.shift lines bytes))
        (items.map (Item.shift lines bytes))) := by
  have hshift : Item.shift lines bytes = Item.moved (·.shift lines bytes) := by
    funext item
    cases item <;> rfl
  rw [hshift]
  exact relates_readItems_moved limit (·.shift lines bytes) state items

/-! ### Definitions that are there already -/

namespace DocumentReader

/-- The state with the definitions of a further document before its own. -/
def State.behind (first : Document) (state : State) : State :=
  ⟨first.append state.document, state.phase⟩

variable {limit : Nat} {state : State}

theorem readDefinition_append (first document : Document) (t : SpannedToken) :
    readDefinition (first.append document) t =
      State.behind first <$> readDefinition document t := by
  unfold readDefinition
  split <;> rfl

/-- Past the header the definitions before make no difference. -/
theorem read_behind (hheader : state.phase.inHeader = false) (first : Document)
    (t : SpannedToken) :
    read limit (state.behind first) t = State.behind first <$> read limit state t := by
  obtain ⟨document, phase⟩ := state
  by_cases hbetween : phase = .definitions
  · subst hbetween
    exact readDefinition_append first document t
  · have hdelegates : Delegates limit t phase := delegates_of_inDefinition hheader hbetween
    obtain ⟨wrap, add, inner, hread, _, hadd⟩ := hdelegates
    rw [State.behind, hread, hread, map_bind]
    congr 1
    funext step
    cases step with
    | more state => rfl
    | done result =>
      rw [continueWith, continueWith, hadd]
      rfl

end DocumentReader

open DocumentReader

variable {limit : Nat} {state next : State} {pending pending' : String}

/-- What reading one element of a stream without a failure does. -/
theorem of_readItem_eq_ok {item : Item}
    (h : (readItem limit state item).run pending = .ok (next, pending')) :
    ∃ t, item = .ok t ∧ (next = state ∨
      t.token.isDocComment = false ∧ (read limit state t).run pending = .ok (next, pending')) := by
  cases item with
  | error e => cases h
  | ok t =>
    refine ⟨t, rfl, ?_⟩
    cases hdoc : t.token.isDocComment with
    | true =>
      obtain ⟨comment, hcomment⟩ := Token.isDocComment_iff.1 hdoc
      rw [readItem_of_docComment hcomment] at h
      cases h
      exact .inl rfl
    | false =>
      rw [readItem_of_isDocComment_eq_false hdoc] at h
      exact .inr ⟨rfl, h⟩

theorem readItem_behind (hheader : state.phase.inHeader = false) (first : Document)
    (item : Item) :
    readItem limit (state.behind first) item =
      State.behind first <$> readItem limit state item := by
  cases item with
  | error e => rfl
  | ok t =>
    cases hdoc : t.token.isDocComment with
    | true =>
      obtain ⟨comment, hcomment⟩ := Token.isDocComment_iff.1 hdoc
      rw [readItem_of_docComment hcomment, readItem_of_docComment hcomment]
      rfl
    | false =>
      rw [readItem_of_isDocComment_eq_false hdoc, readItem_of_isDocComment_eq_false hdoc,
        read_behind hheader]

theorem inHeader_of_readItem {item : Item} (hheader : state.phase.inHeader = false)
    (h : (readItem limit state item).run pending = .ok (next, pending')) :
    next.phase.inHeader = false := by
  obtain ⟨t, _, rfl | ⟨_, hread⟩⟩ := of_readItem_eq_ok h
  · exact hheader
  · exact inHeader_of_read hheader hread

/-- Past the header a stream is read in the same way behind further definitions. -/
theorem run_readItems_behind (hheader : state.phase.inHeader = false) (first : Document)
    (items : List Item) :
    (readItems limit (state.behind first) items).run pending =
      (State.behind first <$> readItems limit state items).run pending := by
  induction items generalizing state pending with
  | nil => rfl
  | cons item items ih =>
    simp only [readItems, List.foldlM_cons, readItem_behind hheader, map_bind, bind_map_left,
      StateT.run_bind]
    cases hitem : (readItem limit state item).run pending with
    | error e => rfl
    | ok result => exact ih (inHeader_of_readItem hheader hitem)

/-! ### The seam -/

theorem readHeader_eq_readDefinition {t : SpannedToken}
    (h : t.token ≠ .keyword .namespaceHeader ∧ t.token ≠ .keyword .includeHeader)
    (document : Document) : readHeader document t = readDefinition document t := by
  unfold readHeader
  split
  · exact absurd ‹_› h.1
  · exact absurd ‹_› h.2
  · rfl

/-- A text without a header may be read where only definitions are expected. -/
theorem readItems_header {stream : TokenStream}
    (h : ∀ token ∈ (sentence stream.tokens).head?,
      token ≠ .keyword .namespaceHeader ∧ token ≠ .keyword .includeHeader)
    (document : Document) :
    readItems limit ⟨document, .header⟩ stream.items =
      readItems limit ⟨document, .definitions⟩ stream.items := by
  obtain ⟨tokens, ending⟩ := stream
  induction tokens with
  | nil => cases ending <;> rfl
  | cons t tokens ih =>
    have hitems : (TokenStream.mk (t :: tokens) ending).items =
        .ok t :: (TokenStream.mk tokens ending).items := rfl
    rw [hitems, readItems, readItems, List.foldlM_cons, List.foldlM_cons]
    cases hdoc : t.token.isDocComment with
    | true =>
      have hsentence : sentence (t :: tokens) = sentence tokens := by simp [sentence, hdoc]
      obtain ⟨comment, hcomment⟩ := Token.isDocComment_iff.1 hdoc
      have hrest := ih (by rwa [← hsentence])
      simp only [readItem_of_docComment hcomment, bind_assoc, pure_bind]
      exact congrArg _ (funext fun _ => hrest)
    | false =>
      have hfirst := h t.token (by simp [sentence, hdoc])
      rw [readItem_of_isDocComment_eq_false hdoc, readItem_of_isDocComment_eq_false hdoc]
      have hread : read limit ⟨document, .header⟩ t = read limit ⟨document, .definitions⟩ t :=
        readHeader_eq_readDefinition hfirst document
      rw [hread]

/-- As long as the header is read, there are no definitions. -/
theorem of_inHeader_readItems {items : List Item}
    (h : (readItems limit state items).run pending = .ok (next, pending'))
    (hnext : next.phase.inHeader = true) :
    state.phase.inHeader = true ∧ next.document.isEmpty = state.document.isEmpty := by
  induction items generalizing state pending with
  | nil =>
    cases h
    exact ⟨hnext, rfl⟩
  | cons item items ih =>
    rw [readItems, List.foldlM_cons] at h
    obtain ⟨⟨between, left⟩, hitem, hrest⟩ := Reading.of_run_bind_eq_ok h
    obtain ⟨hbetween, hempty⟩ := ih hrest
    cases hheader : state.phase.inHeader with
    | true =>
      refine ⟨rfl, hempty.trans ?_⟩
      obtain ⟨t, _, rfl | ⟨_, hread⟩⟩ := of_readItem_eq_ok hitem
      · rfl
      · exact (of_read_inHeader hheader hread).1
    | false =>
      have hfalse := inHeader_of_readItem hheader hitem
      rw [hbetween] at hfalse
      cases hfalse

theorem readItems_singleton (limit : Nat) (state : State) (item : Item) :
    readItems limit state [item] = readItem limit state item := by
  rw [readItems, List.foldlM_cons]
  exact bind_pure _

/-- No doc text is pending behind the last token of a definition. -/
theorem pending_of_readItems {tokens : List SpannedToken}
    (h : (readItems limit start (tokens.map .ok)).run "" = .ok (state, pending))
    (hphase : state.phase = .definitions)
    (hlast : ∀ t ∈ tokens.getLast?, t.token.isDocComment = false)
    (hend : ∀ t ∈ tokens, t.token ≠ .endOfInput) : pending = "" := by
  obtain rfl | ⟨tokens, t, rfl⟩ := tokens.eq_nil_or_concat
  · cases h
    cases hphase
  · rw [List.concat_eq_append] at h hlast hend
    rw [List.map_append, readItems_append] at h
    obtain ⟨⟨before, left⟩, _, ht⟩ := Reading.of_run_bind_eq_ok h
    have hdoc : t.token.isDocComment = false := hlast t (by simp)
    have hread : (read limit before t).run left = .ok (state, pending) := by
      rwa [List.map_singleton, readItems_singleton, readItem_of_isDocComment_eq_false hdoc] at ht
    exact pending_of_read hread hphase (hend t (by simp))

/-- A text that is parsed can be split into tokens, and behind the last one the document may
end. -/
theorem exists_run_of_parse_eq_ok {options : ParseOptions} {source : String}
    {document : Document} (hparse : parse options source = .ok document) :
    (∃ span, (TokenStream.ofSource options source).ending = .endOfInput span) ∧
      ∃ phase pending, (readItems options.maxTypeDepth start
        ((TokenStream.ofSource options source).tokens.map .ok)).run "" =
          .ok (⟨document, phase⟩, pending) ∧ phase.mayEnd = true := by
  cases hending : (TokenStream.ofSource options source).ending with
  | fault error => exact absurd hparse (parse_ne_ok_of_fault hending document)
  | endOfInput span =>
    refine ⟨⟨span, rfl⟩, ?_⟩
    obtain ⟨last, left, hread, rfl⟩ := parse_eq_ok_iff.1 hparse
    rw [TokenStream.items, hending, readItems_append] at hread
    obtain ⟨⟨⟨document, phase⟩, pending⟩, htokens, hend⟩ := Reading.of_run_bind_eq_ok hread
    have hend' : (read options.maxTypeDepth ⟨document, phase⟩ ⟨.endOfInput, span⟩).run pending =
        .ok (last, left) := by
      rwa [readItems_singleton] at hend
    obtain ⟨hphase, hdocument⟩ := of_read_endOfInput rfl hend'
    rw [hdocument]
    exact ⟨phase, pending, htokens, hphase⟩

/-- Behind a text with a definition and no doc comment at its end, nothing is left over. -/
theorem run_readItems_of_parse_eq_ok {options : ParseOptions} {source : String}
    {document : Document} (hparse : parse options source = .ok document)
    (hdefinition : document.isEmpty = false)
    (hlast : ∀ t ∈ (TokenStream.ofSource options source).tokens.getLast?,
      t.token.isDocComment = false) :
    (readItems options.maxTypeDepth start
      ((TokenStream.ofSource options source).tokens.map .ok)).run "" =
        .ok (⟨document, .definitions⟩, "") := by
  obtain ⟨_, phase, pending, hrun, hphase⟩ := exists_run_of_parse_eq_ok hparse
  -- A document that ends behind its header has no definition.
  have hdefinitions : phase = .definitions := by
    cases phase with
    | header =>
      have hempty := (of_inHeader_readItems hrun rfl).2
      rw [hdefinition] at hempty
      cases hempty
    | definitions => rfl
    | _ => cases hphase
  subst hdefinitions
  have hend : ∀ t ∈ (TokenStream.ofSource options source).tokens, t.token ≠ .endOfInput := by
    intro t ht htoken
    apply endOfInput_notMem_sentence options source
    simp only [sentence, List.mem_filter, List.mem_map]
    exact ⟨⟨t, ht, htoken⟩, rfl⟩
  rw [hrun, pending_of_readItems hrun rfl hlast hend]

/-- A stream without a header, further down and with definitions before it. -/
theorem map_run_readItems_behind {stream : TokenStream}
    (h : ∀ token ∈ (sentence stream.tokens).head?,
      token ≠ .keyword .namespaceHeader ∧ token ≠ .keyword .includeHeader)
    (document : Document) (lines bytes : Nat) :
    ((readItems limit ⟨document, .definitions⟩
        (stream.items.map (Item.shift lines bytes))).run "").map (·.1.document) =
      match ((readItems limit start stream.items).run "").map (·.1.document) with
      | .ok further => .ok (document.append further)
      | .error e => .error (e.shift lines bytes) := by
  have hstate : State.mk document .definitions = State.behind document ⟨.empty, .definitions⟩ := by
    rw [State.behind, Document.append_empty]
  have hshift : (readItems limit ⟨.empty, .definitions⟩
      (stream.items.map (Item.shift lines bytes))).run "" = _ :=
    relates_readItems_shift limit lines bytes ⟨.empty, .definitions⟩ stream.items ""
  rw [hstate, run_readItems_behind rfl, StateT.run_map, hshift, start, readItems_header h]
  cases (readItems limit ⟨.empty, .definitions⟩ stream.items).run "" with
  | error e => rfl
  | ok result =>
    have hmoved := Document.mapLayout_moved (·.shift lines bytes) result.1.document
    exact congrArg (fun further => Except.ok (document.append further)) hmoved

/-- A text behind a text with a definition is parsed as it is alone, unless it has a header or
finds a doc comment before it. Its definitions are put behind those of the first text, and an
error in it stands further down. -/
theorem parse_append_newline {options : ParseOptions} {first second : String}
    {document : Document} (hparse : parse options first = .ok document)
    (hdefinition : document.isEmpty = false)
    (hlast : ∀ t ∈ (TokenStream.ofSource options first).tokens.getLast?,
      t.token.isDocComment = false)
    (hheader : ∀ token ∈ (sentence (TokenStream.ofSource options second).tokens).head?,
      token ≠ .keyword .namespaceHeader ∧ token ≠ .keyword .includeHeader) :
    parse options (first ++ "\n" ++ second) =
      match parse options second with
      | .ok further => .ok (document.append further)
      | .error e =>
        .error (e.shift (first.toList.count '\n' + 1) (utf8Length first.toList + 1)) := by
  obtain ⟨⟨span, hending⟩, _⟩ := exists_run_of_parse_eq_ok hparse
  have hseam := run_readItems_of_parse_eq_ok hparse hdefinition hlast
  have hstream : TokenStream.ofSource options (first ++ "\n" ++ second) = _ :=
    TokenStream.ofSource_append_newline hending
  generalize TokenStream.ofSource options first = stream at *
  rw [parse_eq_map_readItems, parse_eq_map_readItems options second, hstream]
  generalize TokenStream.ofSource options second = stream' at *
  generalize first.toList.count '\n' + 1 = lines
  generalize utf8Length first.toList + 1 = bytes
  have hitems : (stream.append (stream'.shift lines bytes)).items =
      stream.tokens.map .ok ++ stream'.items.map (Item.shift lines bytes) := by
    rw [← TokenStream.items_shift]
    simp [TokenStream.items, TokenStream.append]
  rw [hitems, readItems_append, StateT.run_bind, hseam]
  exact map_run_readItems_behind hheader document lines bytes

/-- The doc comment left over in the first text does not get to the second one. -/
theorem parse_append_newline_leftover_comment :
    parse ⟨true, 0⟩ "struct S {/** a */}" =
        .ok { Document.empty with structs := [⟨"S", [], ""⟩] } ∧
      (∀ t ∈ (TokenStream.ofSource ⟨true, 0⟩ "struct S {/** a */}").tokens.getLast?,
        t.token.isDocComment = false) ∧
      (∀ token ∈ (sentence (TokenStream.ofSource ⟨true, 0⟩ "/** b */enum E {}").tokens).head?,
        token ≠ .keyword .namespaceHeader ∧ token ≠ .keyword .includeHeader) ∧
      parse ⟨true, 0⟩ ("struct S {/** a */}" ++ "\n" ++ "/** b */enum E {}") =
        .ok { Document.empty with structs := [⟨"S", [], ""⟩], enums := [⟨"E", [], "b"⟩] } := by
  have hfirst : parse ⟨true, 0⟩ "struct S {/** a */}" =
      .ok { Document.empty with structs := [⟨"S", [], ""⟩] } := by decide +kernel
  have hlast : ∀ t ∈ (TokenStream.ofSource ⟨true, 0⟩ "struct S {/** a */}").tokens.getLast?,
      t.token.isDocComment = false := by decide +kernel
  have hheader : ∀ token ∈
      (sentence (TokenStream.ofSource ⟨true, 0⟩ "/** b */enum E {}").tokens).head?,
        token ≠ .keyword .namespaceHeader ∧ token ≠ .keyword .includeHeader := by decide +kernel
  have hsecond : parse ⟨true, 0⟩ "/** b */enum E {}" =
      .ok { Document.empty with enums := [⟨"E", [], "b"⟩] } := by decide +kernel
  refine ⟨hfirst, hlast, hheader, ?_⟩
  rw [parse_append_newline hfirst rfl hlast hheader, hsecond]
  rfl

end ServiceIdl
