import ServiceIdl.Proofs.Numbering.OpenLists
import ServiceIdl.Proofs.Parsing.Transitions
import ServiceIdl.Proofs.Parsing.ViablePrefix

/-!
# What errors complain about

Some errors are found only when a further token has been read: the index of a field is compared when
its colon is there, and a member of an enum gets its number when the token behind its name is none
that states one. All the same each error says of the token where it stands what holds of this token
and of the sentence in front of it.
-/

namespace ServiceIdl

variable {limit : Nat} {tokens : List SpannedToken} {t : SpannedToken}

theorem suffix_concat {last : List Token} (h : last <:+ tokens.map (·.token)) {token : Token}
    (htoken : t.token = token) : last ++ [token] <:+ (tokens ++ [t]).map (·.token) := by
  obtain ⟨before, hbefore⟩ := h
  refine ⟨before, ?_⟩
  rw [List.map_append, ← hbefore, ← List.append_assoc, List.map_singleton, htoken]

theorem singleton_suffix_concat {token : Token} (htoken : t.token = token) :
    [token] <:+ (tokens ++ [t]).map (·.token) :=
  suffix_concat List.nil_suffix htoken

/-! ### Structs and services -/

namespace StructReader

/-- The tokens that have been read end with the header of a struct or an exception, or inside the
list of its fields. -/
def State.ReadBy (tokens : List SpannedToken) : State → Prop
  | .opening _ _ => ∃ word name, (word = .structDef ∨ word = .exceptionDef) ∧
      [.keyword word, .identifier name] <:+ tokens.map (·.token)
  | .fields _ _ list => list.ReadBy tokens

theorem ensures_read_readBy {state : State} (h : state.ReadBy tokens) :
    (read limit state t).Ensures (Step.GoesOnIn (State.ReadBy (tokens ++ [t])))
      (ParseError.HoldsIn limit (tokens ++ [t])) := by
  cases state with
  | opening name docText =>
    obtain ⟨word, written, hword, hheader⟩ := h
    refine .bind (.lift (ensures_expectSymbol holdsIn_unexpected .leftBrace)) fun _ hbrace =>
      .pure ?_
    have hopening := suffix_concat hheader hbrace
    rcases hword with rfl | rfl
    · exact FieldListReader.readBy_start (.struct written) hopening
    · exact FieldListReader.readBy_start (.exception written) hopening
  | fields name docText fields =>
    refine .bind (FieldListReader.ensures_read_readBy h) fun step hstep => ?_
    cases step with
    | more fields => exact .pure hstep
    | done fields => exact .pure trivial

end StructReader

namespace ServiceReader

/-- The tokens that have been read end in front of or inside the list of fields that is read, if
there is one. -/
def State.ReadBy (tokens : List SpannedToken) (state : State) : Prop :=
  match state.phase with
  | .openArguments _ => ∃ name, [.identifier name] <:+ tokens.map (·.token)
  | .openThrows _ => [.keyword .throwsClause] <:+ tokens.map (·.token)
  | .arguments _ list | .throws _ list => list.ReadBy tokens
  | _ => True

theorem State.BeginsBehind.readBy {state : State} (h : state.BeginsBehind t) :
    state.ReadBy (tokens ++ [t]) := by
  obtain ⟨service, phase⟩ := state
  cases phase with
  | arguments | throws => exact False.elim h
  | openArguments function =>
    obtain ⟨name, hname⟩ := h
    exact ⟨name, singleton_suffix_concat hname⟩
  | openThrows function => exact singleton_suffix_concat h
  | _ => trivial

theorem ensures_read_readBy {state : State} (h : state.ReadBy tokens) :
    (read limit state t).Ensures (Step.GoesOnIn (State.ReadBy (tokens ++ [t])))
      (ParseError.HoldsIn limit (tokens ++ [t])) := by
  obtain ⟨service, phase⟩ := state
  cases phase with
  | openArguments function =>
    obtain ⟨name, hname⟩ := h
    refine .bind (.lift (ensures_expectSymbol holdsIn_unexpected .leftParen)) fun _ hparen =>
      .pure ?_
    exact FieldListReader.readBy_start (.arguments name) (suffix_concat hname hparen)
  | arguments function fields =>
    refine .bind (FieldListReader.ensures_read_readBy h) fun step hstep => ?_
    cases step with
    | more fields => exact .pure hstep
    | done fields => exact .pure trivial
  | openThrows function =>
    refine .bind (.lift (ensures_expectSymbol holdsIn_unexpected .leftParen)) fun _ hparen =>
      .pure ?_
    exact FieldListReader.readBy_start .throws (suffix_concat h hparen)
  | throws function fields =>
    refine .bind (FieldListReader.ensures_read_readBy h) fun step hstep => ?_
    cases step with
    | more fields => exact .pure hstep
    | done throws => exact .bind .clearDoc fun _ _ => .pure trivial
  | _ =>
    exact .mono (ensures_read_of_isPlain holdsIn_unexpected holdsIn_typeTooDeep trivial)
      (Step.GoesOnIn.imp fun _ => State.BeginsBehind.readBy)

end ServiceReader

/-! ### Documents -/

namespace DocumentReader

/-- The tokens that have been read end with the word in front of the name of a definition, or with
what its reader says. -/
def State.ReadBy (tokens : List SpannedToken) (state : State) : Prop :=
  match state.phase with
  | .name kind => [.keyword kind.keyword] <:+ tokens.map (·.token)
  | .enum enum => enum.ReadBy tokens
  | .struct struct | .exception struct => struct.ReadBy tokens
  | .service service => service.ReadBy tokens
  | _ => True

theorem readBy_startNamed {kind : NamedKind} {name : String} (document : Document)
    (docText : String)
    (h : [.keyword kind.keyword, .identifier name] <:+ tokens.map (·.token)) :
    State.ReadBy tokens ⟨document, startNamed kind name docText⟩ := by
  cases kind with
  | enum => exact ⟨rfl, name, h⟩
  | struct => exact ⟨_, name, .inl rfl, h⟩
  | exception => exact ⟨_, name, .inr rfl, h⟩
  | service => exact trivial

theorem State.BeginsBehind.readBy {state : State} (h : state.BeginsBehind t) :
    state.ReadBy (tokens ++ [t]) := by
  obtain ⟨document, phase⟩ := state
  cases phase with
  | enum | struct | exception | service => exact False.elim h
  | name kind => exact singleton_suffix_concat h
  | _ => trivial

/-- One token is added to those that have been read, and an error says of one of them what holds. -/
theorem ensures_read_readBy {state : State} (h : state.ReadBy tokens) :
    (read limit state t).Ensures (State.ReadBy (tokens ++ [t]))
      (ParseError.HoldsIn limit (tokens ++ [t])) := by
  obtain ⟨document, phase⟩ := state
  have hdone (document : Document) : State.ReadBy (tokens ++ [t]) ⟨document, .definitions⟩ :=
    trivial
  cases phase with
  | name kind =>
    exact .bind (.lift (ensures_expectIdentifier holdsIn_unexpected)) fun name hname =>
      .bind .takeDoc fun docText _ =>
        .pure (readBy_startNamed document docText (suffix_concat h hname))
  | enum state =>
    exact .bind (.lift (EnumReader.ensures_read_readBy h))
      (ensures_continueWith document (fun _ henum => henum) hdone)
  | struct state =>
    exact .bind (StructReader.ensures_read_readBy h)
      (ensures_continueWith document (fun _ hstruct => hstruct) hdone)
  | exception state =>
    exact .bind (StructReader.ensures_read_readBy h)
      (ensures_continueWith document (fun _ hstruct => hstruct) hdone)
  | service state =>
    exact .bind (ServiceReader.ensures_read_readBy h)
      (ensures_continueWith document (fun _ hservice => hservice) hdone)
  | _ =>
    exact .mono (ensures_read_of_isPlain holdsIn_unexpected holdsIn_typeTooDeep trivial) fun _ =>
      State.BeginsBehind.readBy

end DocumentReader

/-! ### Streams -/

/-- What holds of one of the substantive tokens holds of it where it stands among all tokens. -/
theorem ParseError.HoldsIn.exists_split {e : ParseError}
    (h : e.HoldsIn limit (substantive tokens)) :
    ∃ first t rest, tokens = first ++ t :: rest ∧ t.token.isDocComment = false ∧ t.span = e.span ∧
      e.fault.HoldsOf limit (sentence first) t.token := by
  obtain ⟨before, t, behind, hsplit, hspan, hholds⟩ := h
  obtain ⟨front, back, rfl, rfl, hback⟩ := List.filter_eq_append_iff.1 hsplit
  obtain ⟨comments, rest, rfl, hcomments, hdoc, rfl⟩ := List.filter_eq_cons_iff.1 hback
  refine ⟨front ++ comments, t, rest, (List.append_assoc ..).symm, by simpa using hdoc, hspan, ?_⟩
  have hnone : substantive comments = [] := List.filter_eq_nil_iff.2 hcomments
  have hfront : (substantive front).map (·.token) = sentence (front ++ comments) := by
    rw [sentence_append, ← map_token_substantive comments, hnone, map_token_substantive,
      List.map_nil, List.append_nil]
  rw [← hfront]
  exact hholds

/-- Behind a stretch of a stream exactly its tokens other than doc comments have been read. -/
theorem DocumentReader.readBy_of_readItems_eq_ok {next : DocumentReader.State} {left : String}
    (h : (readItems limit DocumentReader.start (tokens.map .ok)).run "" = .ok (next, left)) :
    next.ReadBy (substantive tokens) := by
  have hstart : DocumentReader.start.ReadBy [] := trivial
  refine of_readItems_eq_ok (fun read state => state.ReadBy read)
    (fun {read t state pending next left} hread hstep => ?_) hstart h
  have hensures : Ensures _ _ ((DocumentReader.read limit state t).run pending) :=
    DocumentReader.ensures_read_readBy hread pending
  rwa [hstep] at hensures

/-- An error other than a lexical one stands where a token stands that is no doc comment, and what
it says holds of this token and of the sentence in front of it. -/
theorem complaint_holds_of_token {options : ParseOptions} {source : String} {e : ParseError}
    (h : parse options source = .error e) (hfault : ∀ fault, e.fault ≠ .lexical fault) :
    ∃ tokens t behind, (TokenStream.ofSource options source).items =
        tokens.map .ok ++ .ok t :: behind ∧
      t.token.isDocComment = false ∧ t.span = e.span ∧
        e.fault.HoldsOf options.maxTypeDepth (sentence tokens) t.token := by
  obtain ⟨tokens, item, behind, next, left, hitems, hrun, hfails⟩ :=
    readItems_eq_error_split (parse_eq_error_iff.1 h)
  have hnext := DocumentReader.readBy_of_readItems_eq_ok hrun
  rcases of_readItem_eq_error hfails with ⟨error, _, rfl⟩ | ⟨t, rfl, hdoc, hrefused⟩
  · exact absurd rfl (hfault error.fault)
  · have hensures : Ensures _ _ ((DocumentReader.read options.maxTypeDepth next t).run left) :=
      DocumentReader.ensures_read_readBy hnext left
    have hsubstantive : substantive (tokens ++ [t]) = substantive tokens ++ [t] := by
      simp [substantive, hdoc]
    rw [hrefused, ← hsubstantive] at hensures
    obtain ⟨first, blamed, rest, hsplit, hholds⟩ := ParseError.HoldsIn.exists_split hensures
    have hall : (tokens ++ [t]).map Except.ok ++ behind =
        first.map Except.ok ++ .ok blamed :: (rest.map .ok ++ behind) := by
      rw [hsplit, List.map_append, List.map_cons, List.append_assoc, List.cons_append]
    refine ⟨first, blamed, rest.map .ok ++ behind, ?_, hholds⟩
    rw [hitems, ← hall, List.map_append, List.append_assoc]
    rfl

/-- A member behind the one with the greatest number, with a doc comment in front of it. -/
theorem complaint_holds_of_token_exhausted :
    ∃ e, parse ⟨false, 64⟩ "enum E{A B=2147483647;/** c */C}" = .error e ∧
      e.fault = .invalidInteger "2147483648" ∧
      ∃ tokens t behind, (TokenStream.ofSource ⟨false, 64⟩
          "enum E{A B=2147483647;/** c */C}").items = tokens.map .ok ++ .ok t :: behind ∧
        t.token.isDocComment = false ∧ t.span = e.span ∧
          e.fault.HoldsOf 64 (sentence tokens) t.token := by
  have hparse : parse ⟨false, 64⟩ "enum E{A B=2147483647;/** c */C}" =
      .error ⟨.invalidInteger "2147483648", ⟨⟨1, 31, 30⟩, 31⟩⟩ := by decide +kernel
  exact ⟨_, hparse, rfl, complaint_holds_of_token hparse (by simp)⟩

end ServiceIdl
