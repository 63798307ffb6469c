import ServiceIdl.Document.Query
import ServiceIdl.Proofs.Grammar.Parsing

/-!
# What one token of a document does

A token is read in the header, between definitions, or inside a definition, whose reader
then decides alone. Later proofs follow the phases from here on and do not look into the
readers again.

## Main definitions

- `Document.append`: further definitions behind those of a document
- `DocumentReader.Phase.inHeader`: no definition has been started
- `DocumentReader.Phase.mayEnd`: no statement has been started
- `DocumentReader.Delegates`: a token goes to the reader of a definition
- `substantive`: the tokens that are no doc comments
-/

namespace ServiceIdl

/-- The document with the definitions of a further one behind its own. The header is that of the
first. -/
def Document.append (first second : Document) : Document :=
  { first with
    consts := first.consts ++ second.consts
    typedefs := first.typedefs ++ second.typedefs
    enums := first.enums ++ second.enums
    structs := first.structs ++ second.structs
    exceptions := first.exceptions ++ second.exceptions
    services := first.services ++ second.services }

theorem Document.append_empty (document : Document) : document.append .empty = document := by
  simp [Document.append, Document.empty]

theorem Reading.of_run_bind_eq_ok {α β : Type} {first : Reading α} {next : α → Reading β}
    {pending : String} {result : β × String} (h : (first >>= next).run pending = .ok result) :
    ∃ between, first.run pending = .ok between ∧
      (next between.1).run between.2 = .ok result := by
  rw [StateT.run_bind] at h
  cases hfirst : first.run pending with
  | error e =>
    rw [hfirst] at h
    cases h
  | ok between =>
    rw [hfirst] at h
    exact ⟨between, rfl, h⟩

namespace DocumentReader

/-- No definition has been started. -/
def Phase.inHeader : Phase → Bool
  | .header | .namespaceScope | .namespaceName _ | .includePath => true
  | _ => false

/-- No statement has been started, so the document may end. -/
def Phase.mayEnd : Phase → Bool
  | .header | .definitions => true
  | _ => false

theorem Phase.mayEnd_mapLayout (m : LayoutMap) (phase : Phase) :
    (phase.mapLayout m).mayEnd = phase.mayEnd := by
  cases phase <;> rfl

/-- A token goes to the reader of a definition, and a complete definition is put behind those
of the document. -/
inductive Delegates (limit : Nat) (t : SpannedToken) (phase : Phase) : Prop where
  | intro {σ α : Type} (wrap : σ → Phase) (add : Document → α → Document)
      (inner : Reading (Step σ α))
      (hread : ∀ document, read limit ⟨document, phase⟩ t =
        inner >>= continueWith document wrap (add document))
      (hwrap : ∀ state, (wrap state).inHeader = false ∧ wrap state ≠ .definitions)
      (hadd : ∀ (first document : Document) (result : α),
        add (first.append document) result = first.append (add document result))

variable {limit : Nat} {t : SpannedToken} {state next : State} {pending pending' : String}

/-- Past the header, a token that does not stand between definitions is part of one. -/
theorem delegates_of_inDefinition {phase : Phase} (hheader : phase.inHeader = false)
    (hbetween : phase ≠ .definitions) : Delegates limit t phase := by
  cases phase with
  | header | namespaceScope | namespaceName | includePath => cases hheader
  | definitions => exact absurd rfl hbetween
  | constant state =>
    refine .intro .constant _ (ConstantReader.read limit state t) (fun _ => rfl)
      (fun _ => ⟨rfl, by simp⟩) fun _ _ _ => ?_
    simp [Document.append]
  | typedef state =>
    refine .intro .typedef _ (TypedefReader.read limit state t) (fun _ => rfl)
      (fun _ => ⟨rfl, by simp⟩) fun _ _ _ => ?_
    simp [Document.append]
  | name kind =>
    -- the name is read without a reader, and no definition ends with it
    refine .intro (fun (name, docText) => startNamed kind name docText)
      (fun document (result : Empty) => result.elim)
      (do return .more (← t.expectIdentifier, ← takeDoc)) (fun _ => ?_) (fun _ => ?_)
      fun _ _ result => result.elim
    · funext pending
      cases hname : t.expectIdentifier <;> simp [read, hname] <;> rfl
    · cases kind <;> exact ⟨rfl, by simp [startNamed]⟩
  | enum state =>
    refine .intro .enum _ (EnumReader.read state t) (fun _ => rfl)
      (fun _ => ⟨rfl, by simp⟩) fun _ _ _ => ?_
    simp [Document.append]
  | struct state =>
    refine .intro .struct _ (StructReader.read limit state t) (fun _ => rfl)
      (fun _ => ⟨rfl, by simp⟩) fun _ _ _ => ?_
    simp [Document.append]
  | exception state =>
    refine .intro .exception _ (StructReader.read limit state t) (fun _ => rfl)
      (fun _ => ⟨rfl, by simp⟩) fun _ _ _ => ?_
    simp [Document.append]
  | service state =>
    refine .intro .service _ (ServiceReader.read limit state t) (fun _ => rfl)
      (fun _ => ⟨rfl, by simp⟩) fun _ _ _ => ?_
    simp [Document.append]

theorem of_continueWith_eq_ok {σ α : Type} {document : Document} {wrap : σ → Phase}
    {add : α → Document} {step : Step σ α}
    (h : (continueWith document wrap add step).run pending = .ok (next, pending')) :
    (∃ state, next = ⟨document, wrap state⟩) ∨
      ∃ result, next = ⟨add result, .definitions⟩ ∧ pending' = "" := by
  cases step with
  | more state =>
    cases h
    exact .inl ⟨state, rfl⟩
  | done result =>
    cases h
    exact .inr ⟨result, rfl, rfl⟩

theorem of_readDefinition_eq_ok {document : Document}
    (h : (readDefinition document t).run pending = .ok (next, pending')) :
    next.document = document ∧ next.phase.inHeader = false ∧
      (next.phase = .definitions → t.token = .endOfInput ∧ pending' = pending) := by
  unfold readDefinition at h
  split at h
  case h_7 hend =>
    cases h
    exact ⟨rfl, rfl, fun _ => ⟨hend, rfl⟩⟩
  case h_8 => cases h
  all_goals
    cases h
    exact ⟨rfl, rfl, by simp⟩

/-- A token that goes to the reader of a definition leads into or behind that definition. -/
theorem Delegates.of_read_eq_ok (hdelegates : Delegates limit t state.phase)
    (h : (read limit state t).run pending = .ok (next, pending')) :
    next.phase.inHeader = false ∧ (next.phase = .definitions → pending' = "") := by
  obtain ⟨wrap, add, inner, hread, hwrap, _⟩ := hdelegates
  have hstate : read limit state t = _ := hread state.document
  rw [hstate] at h
  obtain ⟨⟨step, left⟩, _, hstep⟩ := Reading.of_run_bind_eq_ok h
  obtain ⟨inside, rfl⟩ | ⟨result, rfl, hpending⟩ := of_continueWith_eq_ok hstep
  · exact ⟨(hwrap inside).1, fun hbetween => absurd hbetween (hwrap inside).2⟩
  · exact ⟨rfl, fun _ => hpending⟩

/-- In the header there are no definitions, and only the end of the input leads behind one. -/
theorem of_read_inHeader (hheader : state.phase.inHeader = true)
    (h : (read limit state t).run pending = .ok (next, pending')) :
    next.document.isEmpty = state.document.isEmpty ∧
      (next.phase = .definitions → t.token = .endOfInput) := by
  obtain ⟨document, phase⟩ := state
  cases phase with
  | header =>
    simp only [read, readHeader] at h
    split at h
    · cases h
      refine ⟨?_, by simp⟩
      simp only [Document.isEmpty]
      split <;> rfl
    · cases h
      refine ⟨?_, by simp⟩
      simp only [Document.isEmpty]
      split <;> rfl
    · obtain ⟨hdocument, _, hend⟩ := of_readDefinition_eq_ok h
      exact ⟨by rw [hdocument], fun hbetween => (hend hbetween).1⟩
  | namespaceScope =>
    simp only [read] at h
    split at h <;> cases h <;> exact ⟨rfl, by simp⟩
  | namespaceName scope =>
    obtain ⟨⟨name, left⟩, _, hname⟩ := Reading.of_run_bind_eq_ok h
    cases hname
    exact ⟨rfl, by simp⟩
  | includePath =>
    simp only [read] at h
    split at h <;> cases h
    exact ⟨rfl, by simp⟩
  | _ => cases hheader

/-- The header does not come back. -/
theorem inHeader_of_read (hheader : state.phase.inHeader = false)
    (h : (read limit state t).run pending = .ok (next, pending')) :
    next.phase.inHeader = false := by
  obtain ⟨document, phase⟩ := state
  by_cases hbetween : phase = .definitions
  · subst hbetween
    exact (of_readDefinition_eq_ok h).2.1
  · exact ((delegates_of_inDefinition hheader hbetween).of_read_eq_ok h).1

/-- No doc text is pending behind a definition. -/
theorem pending_of_read (h : (read limit state t).run pending = .ok (next, pending'))
    (hnext : next.phase = .definitions) (hend : t.token ≠ .endOfInput) : pending' = "" := by
  obtain ⟨document, phase⟩ := state
  cases hheader : phase.inHeader with
  | true => exact absurd ((of_read_inHeader hheader h).2 hnext) hend
  | false =>
    by_cases hbetween : phase = .definitions
    · subst hbetween
      exact absurd ((of_readDefinition_eq_ok h).2.2 hnext).1 hend
    · exact ((delegates_of_inDefinition hheader hbetween).of_read_eq_ok h).2 hnext

/-- The end of the input is refused inside a statement. -/
theorem next?_endOfInput (h : state.phase.mayEnd = false) :
    next? limit state .endOfInput = none := by
  obtain ⟨document, phase⟩ := state
  cases phase with
  | header | definitions => cases h
  | namespaceScope | namespaceName | includePath | name => rfl
  | constant state =>
    have hinner : ConstantReader.plain? limit state .endOfInput = none :=
      ConstantReader.plain?_endOfInput state
    exact Reading.plain?_bind_eq_none ((Reading.plain?_lift _).trans hinner) _
  | typedef state =>
    have hinner : TypedefReader.plain? limit state .endOfInput = none :=
      TypedefReader.plain?_endOfInput state
    exact Reading.plain?_bind_eq_none ((Reading.plain?_lift _).trans hinner) _
  | enum state =>
    have hinner : EnumReader.plain? state .endOfInput = none := EnumReader.plain?_endOfInput state
    exact Reading.plain?_bind_eq_none ((Reading.plain?_lift _).trans hinner) _
  | struct state => exact Reading.plain?_bind_eq_none (StructReader.plain?_endOfInput state) _
  | exception state => exact Reading.plain?_bind_eq_none (StructReader.plain?_endOfInput state) _
  | service state => exact Reading.plain?_bind_eq_none (ServiceReader.plain?_endOfInput state) _

/-- The end of the input is accepted only between statements, and it changes nothing. -/
theorem of_read_endOfInput (hend : t.token = .endOfInput)
    (h : (read limit state t).run pending = .ok (next, pending')) :
    state.phase.mayEnd = true ∧ next.document = state.document := by
  have hphase : state.phase.mayEnd = true := by
    by_contra hother
    have hnext : next? limit _ t.token = _ := next?_mapLayout state t pending
    have hplain : (state.mapLayout .plain).phase.mayEnd = false := by
      rw [State.mapLayout, Phase.mayEnd_mapLayout]
      exact Bool.eq_false_iff.2 hother
    rw [h, hend, next?_endOfInput hplain] at hnext
    cases hnext
  refine ⟨hphase, ?_⟩
  obtain ⟨document, phase⟩ := state
  cases phase with
  | header =>
    simp only [read, readHeader, hend] at h
    exact (of_readDefinition_eq_ok h).1
  | definitions => exact (of_readDefinition_eq_ok h).1
  | _ => cases hphase

end DocumentReader

/-! ### Streams -/

/-- The tokens that are no doc comments. -/
def substantive (tokens : List SpannedToken) : List SpannedToken :=
  tokens.filter fun t => !t.token.isDocComment

theorem map_token_substantive (tokens : List SpannedToken) :
    (substantive tokens).map (·.token) = sentence tokens := by
  rw [sentence, List.filter_map]
  rfl

/-- What the reader of documents adds token by token holds behind all tokens that have been read. -/
theorem of_readItems_eq_ok {limit : Nat} (Inv : List SpannedToken → DocumentReader.State → Prop)
    (hread : ∀ {tokens t state pending next left}, Inv tokens state →
      (DocumentReader.read limit state t).run pending = .ok (next, left) → Inv (tokens ++ [t]) next)
    {before tokens : List SpannedToken} {state next : DocumentReader.State} {pending left : String}
    (hbefore : Inv before state)
    (h : (readItems limit state (tokens.map .ok)).run pending = .ok (next, left)) :
    Inv (before ++ substantive tokens) next := by
  induction tokens generalizing before state pending with
  | nil =>
    cases h
    rwa [substantive, List.filter_nil, List.append_nil]
  | cons t tokens ih =>
    rw [List.map_cons, readItems, List.foldlM_cons] at h
    obtain ⟨⟨between, pending'⟩, hitem, hitems⟩ := Reading.of_run_bind_eq_ok h
    cases hdoc : t.token.isDocComment with
    | true =>
      obtain ⟨comment, hcomment⟩ := Token.isDocComment_iff.1 hdoc
      rw [readItem_of_docComment hcomment] at hitem
      cases hitem
      rw [substantive, List.filter_cons_of_neg (by simp [hdoc])]
      exact ih hbefore hitems
    | false =>
      rw [readItem_of_isDocComment_eq_false hdoc] at hitem
      rw [substantive, List.filter_cons_of_pos (by simp [hdoc]), List.append_cons]
      exact ih (hread hbefore hitem) hitems

end ServiceIdl
