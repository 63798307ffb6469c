import ServiceIdl.Proofs.Grammar.Parsing

/-!
# Layout and comments are inert

Two texts that consist of the same tokens are parsed alike, wherever the tokens stand and
whatever comments stand between them: to documents that differ in doc texts only, or with the
same fault. If the doc comments are the same as well, so are the documents.
-/

namespace ServiceIdl

/-- What an element of a stream says, wherever it stands. -/
def Item.content : Item → Except LexFault Token
  | .ok t => .ok t.token
  | .error e => .error e.fault

/-- The same element at another place. -/
def Item.moved (span : Span → Span) : Item → Item
  | .ok t => .ok ⟨t.token, span t.span⟩
  | .error e => .error ⟨e.fault, span e.span⟩

/-- An element of a stream that stands at a given place. -/
def Item.ofContent (span : Span) : Except LexFault Token → Item
  | .ok token => .ok ⟨token, span⟩
  | .error fault => .error ⟨fault, span⟩

/-- Elements that are all put at one place are determined by their contents. -/
theorem map_moved_const (span : Span) (items : List Item) :
    items.map (Item.moved fun _ => span) = (items.map Item.content).map (Item.ofContent span) := by
  rw [List.map_map]
  refine List.map_congr_left fun item _ => ?_
  cases item <;> rfl

def Item.isDocComment : Item → Bool
  | .ok t => t.token.isDocComment
  | .error _ => false

namespace TokenStream

/-- The elements of a stream without their places; the last one is its ending. -/
def contents (stream : TokenStream) : List (Except LexFault Token) :=
  stream.items.map Item.content

/-- The elements of a stream other than doc comments, without their places. -/
def substance (stream : TokenStream) : List (Except LexFault Token) :=
  (stream.items.filter fun item => !item.isDocComment).map Item.content

end TokenStream

/-! ### Reading elsewhere, and without doc comments -/

/-- No node of a document knows where it stands. -/
theorem Document.mapLayout_moved (span : Span → Span) (document : Document) :
    document.mapLayout (.moved span) = document := by
  have hfields (fields : List Field) : fields.map (·.mapLayout (.moved span)) = fields :=
    List.map_id fields
  have hstruct (struct : Struct) : struct.mapLayout (.moved span) = struct := by
    rw [Struct.mapLayout, hfields]
    rfl
  have hfunction (function : Function) : function.mapLayout (.moved span) = function := by
    rw [Function.mapLayout, hfields, hfields]
    rfl
  have hservice (service : Service) : service.mapLayout (.moved span) = service := by
    rw [Service.mapLayout, funext hfunction, List.map_id']
    rfl
  have hconsts : document.consts.map (·.mapLayout (.moved span)) = document.consts :=
    List.map_id document.consts
  have htypedefs : document.typedefs.map (·.mapLayout (.moved span)) = document.typedefs :=
    List.map_id document.typedefs
  have henums : document.enums.map (·.mapLayout (.moved span)) = document.enums :=
    List.map_id document.enums
  simp only [Document.mapLayout, hconsts, htypedefs, henums, hstruct, hservice, List.map_id']
  rfl

section

variable (limit : Nat) (span : Span → Span)

theorem relates_readItem_moved (state : DocumentReader.State) (item : Item) :
    (LayoutMap.moved span).Relates (·.mapLayout (.moved span)) (readItem limit state item)
      (readItem limit (state.mapLayout (.moved span)) (item.moved span)) := by
  cases item with
  | error e => exact .throw rfl
  | ok t =>
    have hmoved : Item.moved span (.ok t) = .ok (t.mapLayout (.moved span)) := rfl
    rw [hmoved]
    cases hdoc : t.token.isDocComment with
    | true =>
      obtain ⟨comment, hcomment⟩ := Token.isDocComment_iff.1 hdoc
      have hcomment' : (t.mapLayout (.moved span)).token = .docComment comment := hcomment
      rw [readItem_of_docComment hcomment, readItem_of_docComment hcomment']
      exact fun _ => rfl
    | false =>
      have hdoc' : (t.mapLayout (.moved span)).token.isDocComment = false := hdoc
      rw [readItem_of_isDocComment_eq_false hdoc, readItem_of_isDocComment_eq_false hdoc']
      exact DocumentReader.relates_read (.moved span) limit t state

/-- Elements of a stream are read in the same way elsewhere. -/
theorem relates_readItems_moved (state : DocumentReader.State) (items : List Item) :
    (LayoutMap.moved span).Relates (·.mapLayout (.moved span)) (readItems limit state items)
      (readItems limit (state.mapLayout (.moved span)) (items.map (Item.moved span))) := by
  induction items generalizing state with
  | nil => exact .pure rfl
  | cons item items ih =>
    simp only [readItems, List.map_cons, List.foldlM_cons]
    exact .bind (relates_readItem_moved limit span state item) ih

/-- Elements of a stream are read in the same way without the doc comments among them, except
that no doc text is taken. -/
theorem relates_readItems_undocumented (state : DocumentReader.State) (items : List Item) :
    (LayoutMap.undocumented span).Relates (·.mapLayout (.undocumented span))
      (readItems limit state items)
      (readItems limit (state.mapLayout (.undocumented span))
        ((items.filter fun item => !item.isDocComment).map (Item.moved span))) := by
  induction items generalizing state with
  | nil => exact .pure rfl
  | cons item items ih =>
    simp only [readItems, List.foldlM_cons]
    cases item with
    | error e => exact .bind (f := DocumentReader.State.mapLayout (.undocumented span)) (.throw rfl) ih
    | ok t =>
      cases hdoc : t.token.isDocComment with
      | true =>
        have hitem : Item.isDocComment (.ok t) = true := hdoc
        obtain ⟨comment, hcomment⟩ := Token.isDocComment_iff.1 hdoc
        rw [readItem_of_docComment hcomment]
        simp only [List.filter_cons, hitem, Bool.not_true]
        -- The comment changes the pending doc text only, and that is dropped.
        exact fun pending => ih state (pending ++ docBody comment)
      | false =>
        have hitem : Item.isDocComment (.ok t) = false := hdoc
        have hdoc' : (t.mapLayout (.undocumented span)).token.isDocComment = false := hdoc
        simp only [List.filter_cons, hitem, Bool.not_false, if_true, List.map_cons,
          List.foldlM_cons]
        have hmoved : Item.moved span (.ok t) = .ok (t.mapLayout (.undocumented span)) := rfl
        rw [hmoved, readItem_of_isDocComment_eq_false hdoc,
          readItem_of_isDocComment_eq_false hdoc']
        exact .bind (DocumentReader.relates_read (.undocumented span) limit t state) ih

end

/-! ### Two texts with the same tokens -/

/-- Two outcomes of parsing say the same: they are documents that differ in doc texts only, or
the same fault, maybe at different places. -/
inductive SameOutcome : Except ParseError Document → Except ParseError Document → Prop where
  | ok {first second : Document} (h : first.withoutDocTexts = second.withoutDocTexts) :
      SameOutcome (.ok first) (.ok second)
  | error {first second : ParseError} (h : first.fault = second.fault) :
      SameOutcome (.error first) (.error second)

section

variable (options : ParseOptions) (source : String) (span : Span → Span)

/-- The outcome of parsing a text, as if its tokens stood elsewhere. -/
theorem outcome_parse_moved :
    (LayoutMap.moved span).outcome id (parse options source) =
      ((readItems options.maxTypeDepth DocumentReader.start
        ((TokenStream.ofSource options source).items.map (Item.moved span))).run "").map
          (·.1.document) := by
  have hrelates := relates_readItems_moved options.maxTypeDepth span DocumentReader.start
    (TokenStream.ofSource options source).items ""
  have hrun : (readItems options.maxTypeDepth DocumentReader.start
      ((TokenStream.ofSource options source).items.map (Item.moved span))).run "" = _ := hrelates
  rw [hrun, parse_eq_map_readItems]
  cases (readItems options.maxTypeDepth DocumentReader.start
    (TokenStream.ofSource options source).items).run "" with
  | error e => rfl
  | ok result => exact congrArg Except.ok (result.1.document.mapLayout_moved span).symm

/-- The outcome of parsing a text, as if its tokens stood elsewhere and there were no doc
comments among them. -/
theorem outcome_parse_undocumented :
    (LayoutMap.undocumented span).outcome (·.mapLayout (.undocumented span))
        (parse options source) =
      ((readItems options.maxTypeDepth DocumentReader.start
        (((TokenStream.ofSource options source).items.filter fun item => !item.isDocComment).map
          (Item.moved span))).run "").map (·.1.document) := by
  have hrelates := relates_readItems_undocumented options.maxTypeDepth span DocumentReader.start
    (TokenStream.ofSource options source).items ""
  generalize List.map (Item.moved span) _ = items at hrelates ⊢
  have hrun : (readItems options.maxTypeDepth DocumentReader.start items).run "" = _ := hrelates
  rw [hrun, parse_eq_map_readItems]
  cases (readItems options.maxTypeDepth DocumentReader.start
    (TokenStream.ofSource options source).items).run "" <;> rfl

end

/-- The document of a text without doc comments has no doc texts. -/
theorem withoutDocTexts_of_parse_eq_ok {options : ParseOptions} {source : String}
    {document : Document} (hparse : parse options source = .ok document)
    (hplain : ∀ item ∈ (TokenStream.ofSource options source).items, item.isDocComment = false) :
    document.withoutDocTexts = document := by
  have hitems : ((TokenStream.ofSource options source).items.filter fun item =>
      !item.isDocComment) = (TokenStream.ofSource options source).items :=
    List.filter_eq_self.2 fun item hitem => by simp [hplain item hitem]
  have hmoved := outcome_parse_moved options source id
  have hundocumented := outcome_parse_undocumented options source id
  rw [hitems, ← hmoved, hparse] at hundocumented
  exact Except.ok.inj hundocumented

variable {options : ParseOptions} {first second : String}

private theorem sameOutcome_of_outcome_plain_eq {first second : Except ParseError Document}
    (h : LayoutMap.plain.outcome Document.withoutDocTexts first =
      LayoutMap.plain.outcome Document.withoutDocTexts second) : SameOutcome first second := by
  cases first with
  | ok document =>
    cases second with
    | ok document' => exact .ok (Except.ok.inj h)
    | error e => cases h
  | error e =>
    cases second with
    | ok document' => cases h
    | error e' =>
      have herror : e.mapLayout .plain = e'.mapLayout .plain := Except.error.inj h
      exact .error (ParseError.mk.inj herror).1

/-- Texts of the same tokens and doc comments have the same document, if they have one. -/
theorem parse_eq_ok_of_contents_eq
    (h : (TokenStream.ofSource options first).contents =
      (TokenStream.ofSource options second).contents) {document : Document}
    (hparse : parse options first = .ok document) : parse options second = .ok document := by
  have hfirst := outcome_parse_moved options first fun _ => ⟨.start, 0⟩
  have hsecond := outcome_parse_moved options second fun _ => ⟨.start, 0⟩
  rw [map_moved_const] at hfirst hsecond
  have hitems : (TokenStream.ofSource options first).items.map Item.content =
    (TokenStream.ofSource options second).items.map Item.content := h
  rw [← hitems, ← hfirst, hparse] at hsecond
  cases hparse' : parse options second with
  | error e =>
    rw [hparse'] at hsecond
    cases hsecond
  | ok document' =>
    rw [hparse'] at hsecond
    exact hsecond

/-- Layout and comments are inert. Texts of the same tokens, with the same fault at their end if
there is one, have the same outcome. If the doc comments are the same as well, so are the
documents. -/
theorem parse_sameOutcome_of_substance_eq
    (h : (TokenStream.ofSource options first).substance =
      (TokenStream.ofSource options second).substance) :
    SameOutcome (parse options first) (parse options second) ∧
      ((TokenStream.ofSource options first).contents =
          (TokenStream.ofSource options second).contents →
        ∀ document, parse options first = .ok document ↔
          parse options second = .ok document) := by
  constructor
  · apply sameOutcome_of_outcome_plain_eq
    have hfirst := outcome_parse_undocumented options first fun _ => ⟨.start, 0⟩
    have hsecond := outcome_parse_undocumented options second fun _ => ⟨.start, 0⟩
    rw [map_moved_const] at hfirst hsecond
    have hitems : List.map Item.content ((TokenStream.ofSource options first).items.filter _) =
      List.map Item.content ((TokenStream.ofSource options second).items.filter _) := h
    rw [← hitems, ← hfirst] at hsecond
    exact hsecond.symm
  · intro hcontents document
    exact ⟨parse_eq_ok_of_contents_eq hcontents, parse_eq_ok_of_contents_eq hcontents.symm⟩

/-- A line comment and blanks around a doc comment leave the doc text of the field as it is. -/
theorem parse_sameOutcome_line_comment :
    (TokenStream.ofSource ⟨true, 0⟩ "struct S {/** a */ T x}").substance =
        (TokenStream.ofSource ⟨true, 0⟩ "struct#\nS{ /** a */T x }").substance ∧
      (TokenStream.ofSource ⟨true, 0⟩ "struct S {/** a */ T x}").contents =
        (TokenStream.ofSource ⟨true, 0⟩ "struct#\nS{ /** a */T x }").contents ∧
      parse ⟨true, 0⟩ "struct S {/** a */ T x}" =
        .ok { Document.empty with structs := [⟨"S", [⟨1, "x", "T", none, false, "a"⟩], ""⟩] } ∧
      parse ⟨true, 0⟩ "struct#\nS{ /** a */T x }" =
        .ok { Document.empty with structs := [⟨"S", [⟨1, "x", "T", none, false, "a"⟩], ""⟩] } := by
  have hsubstance : (TokenStream.ofSource ⟨true, 0⟩ "struct S {/** a */ T x}").substance =
      (TokenStream.ofSource ⟨true, 0⟩ "struct#\nS{ /** a */T x }").substance := by decide +kernel
  have hcontents : (TokenStream.ofSource ⟨true, 0⟩ "struct S {/** a */ T x}").contents =
      (TokenStream.ofSource ⟨true, 0⟩ "struct#\nS{ /** a */T x }").contents := by decide +kernel
  have hparse : parse ⟨true, 0⟩ "struct S {/** a */ T x}" = .ok { Document.empty with
      structs := [⟨"S", [⟨1, "x", "T", none, false, "a"⟩], ""⟩] } := by decide +kernel
  refine ⟨hsubstance, hcontents, hparse, ?_⟩
  exact ((parse_sameOutcome_of_substance_eq hsubstance).2 hcontents _).1 hparse

end ServiceIdl
