import ServiceIdl.Proofs.DocTexts.Services
import ServiceIdl.Proofs.Parsing.Concatenation
import ServiceIdl.Proofs.Parsing.Writing

/-!
# The doc texts of a document

Every text that is parsed has a derivation, and its document is the one that the derivation
denotes with the doc comments between its tokens.
-/

namespace ServiceIdl

open Syntax

variable {docs : DocTexts} {limit place since : Nat}

namespace DocumentReader

variable {document document' : ServiceIdl.Document} {phase : Phase}

/-! ### Definitions -/

/-- Inside a definition its reader reads, and what is pending at its end is forgotten. -/
theorem reads_inside {σ α : Type} {inner : σ → SpannedToken → Reading (Step σ α)}
    {wrap : σ → Phase} {add : α → ServiceIdl.Document}
    (hread : ∀ state t, read limit ⟨document, wrap state⟩ t =
      inner state t >>= continueWith document wrap add)
    {state : σ} {result : α} {tokens : List Token} {behind : Nat}
    (h : Reads docs inner place since (.more state) tokens behind (.done result)) :
    Reads docs (readStep limit) place since (.more ⟨document, wrap state⟩) tokens
      (place + tokens.length) (.more ⟨add result, .definitions⟩) := by
  refine Reads.embed_cleared (fun state => State.mk document (wrap state))
    (fun result => .more ⟨add result, .definitions⟩) (fun hinner => ?_) (fun hinner => ?_) h
  · rw [run_readStep, hread, StateT.run_bind, hinner]
    rfl
  · rw [run_readStep, hread, StateT.run_bind, hinner]
    rfl

/-- Where a definition may start, its keyword is read alike. -/
theorem read_keyword (hphase : phase.mayEnd = true) {word : Keyword}
    (hword : word ≠ .namespaceHeader ∧ word ≠ .includeHeader) :
    read limit ⟨document, phase⟩ (Token.keyword word).plain =
      readDefinition document (Token.keyword word).plain := by
  cases phase with
  | header => exact readHeader_eq_readDefinition (by simpa using hword) document
  | definitions => rfl
  | _ => cases hphase

section

variable {σ α : Type} {inner : σ → SpannedToken → Reading (Step σ α)} {result : α}
  {word : Keyword} {tokens : List Token} {behind : Nat} (wrap : σ → Phase)
  (add : α → ServiceIdl.Document)

/-- A definition that takes its doc text at its keyword. -/
theorem reads_from_keyword (hphase : phase.mayEnd = true)
    (hword : word ≠ .namespaceHeader ∧ word ≠ .includeHeader)
    (hread : ∀ state t, read limit ⟨document, wrap state⟩ t =
      inner state t >>= continueWith document wrap add) (start : String → σ)
    (hstart : readDefinition document (Token.keyword word).plain =
      takeDoc >>= fun docText => pure ⟨document, wrap (start docText)⟩)
    (h : Reads docs inner (place + 1) (place + 1) (.more (start (docs.between since (place + 1))))
      tokens behind (.done result)) :
    Reads docs (readStep limit) place since (.more ⟨document, phase⟩) (.keyword word :: tokens)
      (place + (Token.keyword word :: tokens).length) (.more ⟨add result, .definitions⟩) := by
  rw [List.length_cons, Nat.add_comm tokens.length, ← Nat.add_assoc]
  refine .take ?_ (reads_inside hread h)
  rw [run_readStep, read_keyword hphase hword, hstart]
  rfl

/-- A definition that takes its doc text at its name. -/
theorem reads_from_name (hphase : phase.mayEnd = true)
    (hword : word ≠ .namespaceHeader ∧ word ≠ .includeHeader)
    (hread : ∀ state t, read limit ⟨document, wrap state⟩ t =
      inner state t >>= continueWith document wrap add) (kind : NamedKind)
    (hkind : readDefinition document (Token.keyword word).plain = pure ⟨document, .name kind⟩)
    {name : String} (start : String → σ)
    (hstart : ∀ docText, startNamed kind name docText = wrap (start docText))
    (h : Reads docs inner (place + 2) (place + 2) (.more (start (docs.between since (place + 2))))
      tokens behind (.done result)) :
    Reads docs (readStep limit) place since (.more ⟨document, phase⟩)
      (.keyword word :: .identifier name :: tokens)
      (place + (Token.keyword word :: Token.identifier name :: tokens).length)
      (.more ⟨add result, .definitions⟩) := by
  have hinside := reads_inside hread h
  rw [← hstart, Nat.add_assoc, Nat.add_comm 2] at hinside
  have hname : Reads docs (readStep limit) (place + 1) since (.more ⟨document, .name kind⟩)
      (.identifier name :: tokens) _ _ := .take rfl hinside
  refine .keep ?_ hname
  rw [run_readStep, read_keyword hphase hword, hkind]
  rfl

end

/-- A definition is read to its end, and takes the doc comments in front of its keyword or name. -/
theorem reads_definition (hphase : phase.mayEnd = true) {definition : Definition}
    (h : definition.addDocumented? limit docs place since document = some document') :
    Reads docs (readStep limit) place since (.more ⟨document, phase⟩) definition.tokens
      (place + definition.tokens.length) (.more ⟨document', .definitions⟩) := by
  cases definition with
  | constant type name value =>
    simp only [Definition.addDocumented?, Option.bind_eq_bind, Option.bind_eq_some_iff] at h
    obtain ⟨signature, hsignature, ⟨⟩⟩ := h
    obtain ⟨hdepth, rfl⟩ := TypeExpr.signature?_eq_some_iff.1 hsignature
    have hconstant : Reads docs _ (place + 1) (place + 1)
        (.more (ConstantReader.start (docs.between since (place + 1)))) _ _ _ :=
      .of_accepts (fun _ _ => rfl)
        (ConstantReader.accepts_iff.2 ⟨type, name, value, rfl, hdepth, rfl⟩)
    exact reads_from_keyword .constant
      (fun constant => { document with consts := document.consts ++ [constant] }) hphase
      ⟨by simp, by simp⟩ (fun _ _ => rfl) ConstantReader.start rfl hconstant
  | typedef type name =>
    simp only [Definition.addDocumented?, Option.bind_eq_bind, Option.bind_eq_some_iff] at h
    obtain ⟨signature, hsignature, ⟨⟩⟩ := h
    obtain ⟨hdepth, rfl⟩ := TypeExpr.signature?_eq_some_iff.1 hsignature
    have htypedef : Reads docs _ (place + 1) (place + 1)
        (.more (TypedefReader.start (docs.between since (place + 1)))) _ _ _ :=
      .of_accepts (fun _ _ => rfl) (TypedefReader.accepts_iff.2 ⟨type, name, rfl, hdepth, rfl⟩)
    exact reads_from_keyword .typedef
      (fun typedef => { document with typedefs := document.typedefs ++ [typedef] }) hphase
      ⟨by simp, by simp⟩ (fun _ _ => rfl) TypedefReader.start rfl htypedef
  | enum name members =>
    simp only [Definition.addDocumented?, Option.bind_eq_bind, Option.bind_eq_some_iff] at h
    obtain ⟨enum, hmembers, ⟨⟩⟩ := h
    have henum : Reads docs _ (place + 2) (place + 2)
        (.more (EnumReader.start name (docs.between since (place + 2)))) _ _ _ :=
      .of_accepts (fun _ _ => rfl) (EnumReader.accepts_iff.2 ⟨members, rfl, hmembers⟩)
    exact reads_from_name .enum
      (fun enum => { document with enums := document.enums ++ [enum] }) hphase
      ⟨by simp, by simp⟩ (fun _ _ => rfl) .enum rfl (EnumReader.start name) (fun _ => rfl) henum
  | struct name fields =>
    simp only [Definition.addDocumented?, Option.bind_eq_bind, Option.bind_eq_some_iff] at h
    obtain ⟨values, hvalues, ⟨⟩⟩ := h
    exact reads_from_name .struct
      (fun struct => { document with structs := document.structs ++ [struct] }) hphase
      ⟨by simp, by simp⟩ (fun _ _ => rfl) .struct rfl (StructReader.start name) (fun _ => rfl)
      (StructReader.reads_struct hvalues)
  | exception name fields =>
    simp only [Definition.addDocumented?, Option.bind_eq_bind, Option.bind_eq_some_iff] at h
    obtain ⟨values, hvalues, ⟨⟩⟩ := h
    exact reads_from_name .exception
      (fun struct => { document with exceptions := document.exceptions ++ [struct] }) hphase
      ⟨by simp, by simp⟩ (fun _ _ => rfl) .exception rfl (StructReader.start name) (fun _ => rfl)
      (StructReader.reads_struct hvalues)
  | service name parent functions =>
    simp only [Definition.addDocumented?, Option.bind_eq_bind, Option.bind_eq_some_iff] at h
    obtain ⟨values, hvalues, ⟨⟩⟩ := h
    have hservice : ∃ behind, Reads docs (ServiceReader.read limit) (place + 2) (place + 2)
        (.more (ServiceReader.start name (docs.between since (place + 2)))) _ behind _ :=
      ServiceReader.reads_service parent hvalues
    obtain ⟨behind, hservice⟩ := hservice
    exact reads_from_name .service
      (fun service => { document with services := document.services ++ [service] }) hphase
      ⟨by simp, by simp⟩ (fun _ _ => rfl) .service rfl (ServiceReader.start name) (fun _ => rfl)
      hservice

theorem reads_definitions (hphase : phase.mayEnd = true) {definitions : List Definition}
    (h : addDefinitions? limit docs place since document definitions = some document') :
    ∃ behind phase', Reads docs (readStep limit) place since (.more ⟨document, phase⟩)
        (definitions.flatMap Definition.tokens) behind (.more ⟨document', phase'⟩) ∧
      phase'.mayEnd = true := by
  induction definitions generalizing place since document phase with
  | nil =>
    obtain rfl := Option.some.inj h
    exact ⟨_, _, .refl, hphase⟩
  | cons definition definitions ih =>
    simp only [addDefinitions?, Option.bind_eq_bind, Option.bind_eq_some_iff] at h
    obtain ⟨between, hdefinition, hrest⟩ := h
    have hmayEnd : Phase.definitions.mayEnd = true := rfl
    obtain ⟨behind, phase', hreads, hphase'⟩ := ih hmayEnd hrest
    exact ⟨behind, phase', (reads_definition hphase hdefinition).append hreads, hphase'⟩

/-! ### Headers -/

/-- A header statement takes the doc comments in front of its keyword. -/
theorem reads_header (header : Header) :
    Reads docs (readStep limit) place since (.more ⟨document, .header⟩) header.tokens (place + 1)
      (.more ⟨header.addDocumented docs place since document, .header⟩) := by
  cases header with
  | namespaceName scope name =>
    cases scope with
    | none => exact .take rfl (.keep rfl (.keep rfl .refl))
    | some scope => exact .take rfl (.keep rfl (.keep rfl .refl))
  | includePath literal => exact .take rfl (.keep rfl .refl)

theorem reads_headers (headers : List Header) :
    Reads docs (readStep limit) place since (.more ⟨document, .header⟩)
      (headers.flatMap Header.tokens) (sinceBehind Header.extent place since headers)
      (.more ⟨addHeaders docs place since document headers, .header⟩) := by
  induction headers generalizing place since document with
  | nil => exact .refl
  | cons header headers ih => exact (reads_header header).append ih

/-- A derivation is read to the document that it denotes with doc texts. -/
theorem reads_document {tree : Syntax.Document}
    (h : tree.documented? limit docs = some document) :
    ∃ behind phase, Reads docs (readStep limit) 0 0 (.more start) tree.tokens behind
        (.more ⟨document, phase⟩) ∧ phase.mayEnd = true := by
  have hheader : Phase.header.mayEnd = true := rfl
  obtain ⟨behind, phase, hdefinitions, hphase⟩ := reads_definitions hheader h
  refine ⟨behind, phase, (reads_headers tree.headers).append ?_, hphase⟩
  rw [Nat.zero_add]
  exact hdefinitions

end DocumentReader

/-! ### Derivations that denote a document -/

namespace Syntax

/-- An enum has the same members whatever its doc text. -/
theorem insertMembers?_docText (members : List Member) (expected : Int) (enum : Enum)
    (docText : String) : insertMembers? expected { enum with docText } members =
      (insertMembers? expected enum members).map ({ · with docText }) := by
  induction members generalizing expected enum with
  | nil => rfl
  | cons member members ih =>
    simp only [insertMembers?, Option.bind_eq_bind]
    cases number? expected member.number with
    | none => rfl
    | some number => exact ih (number.toInt + 1) (enum.insert member.name number)

/-- A definition that denotes something without doc texts does so with them. -/
theorem Definition.exists_addDocumented? {definition : Definition}
    {plain plain' : ServiceIdl.Document} (h : definition.addTo? limit plain = some plain')
    (docs : DocTexts) (place since : Nat) (document : ServiceIdl.Document) :
    ∃ document', definition.addDocumented? limit docs place since document = some document' := by
  cases definition with
  | enum name members =>
    simp only [addTo?, Option.bind_eq_bind, Option.bind_eq_some_iff] at h
    obtain ⟨enum, hmembers, _⟩ := h
    have hdocumented := insertMembers?_docText members 1 ⟨name, [], ""⟩
      (docs.between since (place + 2))
    rw [hmembers] at hdocumented
    simp only [addDocumented?, hdocumented]
    exact ⟨_, rfl⟩
  | _ =>
    simp only [addTo?, Option.bind_eq_bind, Option.bind_eq_some_iff] at h
    obtain ⟨value, hvalue, _⟩ := h
    simp only [addDocumented?, hvalue]
    exact ⟨_, rfl⟩

theorem exists_addDefinitions? {definitions : List Definition} {plain plain' : ServiceIdl.Document}
    (h : definitions.foldlM (Definition.addTo? limit) plain = some plain') (docs : DocTexts)
    (place since : Nat) (document : ServiceIdl.Document) :
    ∃ document', addDefinitions? limit docs place since document definitions = some document' := by
  induction definitions generalizing plain place since document with
  | nil => exact ⟨document, rfl⟩
  | cons definition definitions ih =>
    rw [List.foldlM_cons] at h
    obtain ⟨next, hdefinition, hrest⟩ := Option.bind_eq_some_iff.1 h
    obtain ⟨between, hbetween⟩ := definition.exists_addDocumented? hdefinition docs place since document
    simp only [addDefinitions?, hbetween]
    exact ih hrest _ _ between

end Syntax

/-! ### Texts -/

section

variable {options : ParseOptions} {source : String} {document : Document} {tree : Syntax.Document}

/-- A text has the document that a derivation of it denotes with the doc comments of the text. -/
theorem parse_eq_ok_of_documented {span : Span}
    (hending : (TokenStream.ofSource options source).ending = .endOfInput span)
    (htokens : tree.tokens = sentence (TokenStream.ofSource options source).tokens)
    (h : tree.documented? options.maxTypeDepth
      (docTextsOf (TokenStream.ofSource options source).tokens) = some document) :
    parse options source = .ok document := by
  obtain ⟨behind, phase, hreads, hphase⟩ := DocumentReader.reads_document h
  rw [htokens] at hreads
  -- Where the tokens stand makes no difference, so they may all stand at one place.
  obtain ⟨pending, hrun⟩ := DocumentReader.run_readItems_of_reads hreads (Nat.le_refl 0)
    (by rw [DocTexts.between_succ _ (Nat.le_refl 0), DocTexts.between_self])
    fun further => by rw [Nat.zero_add]
  have hmoved := outcome_parse_moved options source fun _ => ⟨.start, 0⟩
  have hitems : (TokenStream.ofSource options source).items.map
      (Item.moved fun _ => ⟨.start, 0⟩) =
        (TokenStream.ofSource options source).tokens.map (fun t => .ok t.token.plain) ++
          [.ok Token.endOfInput.plain] := by
    rw [TokenStream.items, hending, List.map_append, List.map_map]
    rfl
  have hend : (readItem options.maxTypeDepth ⟨document, phase⟩
      (.ok Token.endOfInput.plain)).run pending = .ok (⟨document, .definitions⟩, pending) := by
    cases phase with
    | header | definitions => rfl
    | _ => cases hphase
  rw [hitems, readItems_append, StateT.run_bind, hrun] at hmoved
  change _ = ((readItems options.maxTypeDepth ⟨document, phase⟩
    [.ok Token.endOfInput.plain]).run pending).map _ at hmoved
  rw [readItems, List.foldlM_cons, StateT.run_bind, hend] at hmoved
  cases hparse : parse options source with
  | error e =>
    rw [hparse] at hmoved
    cases hmoved
  | ok parsed =>
    rw [hparse] at hmoved
    exact hmoved

/-- The document of a text is what any derivation of the text denotes with the doc comments. -/
theorem documented?_of_parse_eq_ok (hparse : parse options source = .ok document)
    (htokens : tree.tokens = sentence (TokenStream.ofSource options source).tokens)
    (hvalue : tree.value? options.maxTypeDepth = some document.withoutDocTexts) :
    tree.documented? options.maxTypeDepth
      (docTextsOf (TokenStream.ofSource options source).tokens) = some document := by
  cases hending : (TokenStream.ofSource options source).ending with
  | fault error => exact absurd hparse (parse_ne_ok_of_fault hending document)
  | endOfInput span =>
    obtain ⟨documented, hdocumented⟩ : ∃ documented, tree.documented? options.maxTypeDepth
        (docTextsOf (TokenStream.ofSource options source).tokens) = some documented :=
      Syntax.exists_addDefinitions? hvalue _ _ _ _
    have hsame := parse_eq_ok_of_documented hending htokens hdocumented
    obtain rfl : document = documented := Except.ok.inj (hparse.symm.trans hsame)
    exact hdocumented

/-- The document of a text is that of a derivation with the doc comments of the text. -/
theorem exists_documented_of_parse_eq_ok (hparse : parse options source = .ok document) :
    ∃ tree : Syntax.Document,
      tree.tokens = sentence (TokenStream.ofSource options source).tokens ∧
        tree.value? options.maxTypeDepth = some document.withoutDocTexts ∧
          tree.documented? options.maxTypeDepth
            (docTextsOf (TokenStream.ofSource options source).tokens) = some document := by
  cases hending : (TokenStream.ofSource options source).ending with
  | fault error => exact absurd hparse (parse_ne_ok_of_fault hending document)
  | endOfInput span =>
    have haccepts := (exists_parse_eq_ok_iff_accepts hending).1 ⟨document, hparse, rfl⟩
    obtain ⟨tree, hitems, hvalue⟩ := DocumentReader.accepts_iff.1 haccepts
    have htokens := (List.append_cancel_right hitems).symm
    exact ⟨tree, htokens, hvalue, documented?_of_parse_eq_ok hparse htokens hvalue⟩

end

end ServiceIdl
