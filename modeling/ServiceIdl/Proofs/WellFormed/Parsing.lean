import ServiceIdl.Proofs.WellFormed.Nodes

/-!
# The documents that are parsed from some text are the well-formed ones

A text gives a well-formed document. Conversely a well-formed document is written statement by
statement, namespaces in the order of their scopes and definitions kind by kind, and the text
is parsed to the document.
-/

namespace ServiceIdl

open Syntax (Definition Header)

variable {options : ParseOptions}

/-! ### From derivations to well-formed documents -/

theorem Document.wellFormed_empty : Document.empty.WellFormed options := by
  refine ⟨?_, ?_, ?_, ?_, ?_, ?_, ?_, ?_, ?_⟩ <;> simp [Document.empty, Namespaces.empty]

theorem forall_mem_append_singleton {α : Type} {p : α → Prop} {entries : List α} {entry : α} :
    (∀ other ∈ entries ++ [entry], p other) ↔ (∀ other ∈ entries, p other) ∧ p entry := by
  rw [List.forall_mem_append, List.forall_mem_singleton]

theorem Document.WellFormed.addTo {document : Document} (h : document.WellFormed options)
    {header : Header} (hwritable : IsWritable options.strictNumbers header.tokens) :
    (header.addTo document).WellFormed options := by
  cases header with
  | namespaceName scope name =>
    have hentry : (scope.getD "*" = "*" ∨ IsIdentifier (scope.getD "*")) ∧ IsIdentifier name := by
      cases scope with
      | none =>
        have hname : IsIdentifier name := by
          simpa [Header.tokens, Token.isLexeme_identifier_iff] using hwritable
        exact ⟨.inl rfl, hname⟩
      | some scope =>
        have hnames : IsIdentifier scope ∧ IsIdentifier name := by
          simpa [Header.tokens, Token.isLexeme_identifier_iff] using hwritable
        exact ⟨.inr hnames.1, hnames.2⟩
    refine { h with scopes := ?_, namespaces := ?_ }
    · intro entry hmem
      rcases Namespaces.mem_insertEntry hmem with rfl | hmem
      · exact hentry.1
      · exact h.scopes entry hmem
    · intro entry hmem
      rcases Namespaces.mem_insertEntry hmem with rfl | hmem
      · exact hentry.2
      · exact h.namespaces entry hmem
  | includePath literal =>
    have hquoted : IsQuoted literal.toList := by
      simpa [Header.tokens, Token.IsLexeme] using hwritable
    have hpath := isIncludePath_iff.2 ⟨literal, hquoted, rfl⟩
    exact { h with includes := forall_mem_append_singleton.2 ⟨h.includes, hpath⟩ }

theorem Document.WellFormed.addTo? {document document' : Document}
    (h : document.WellFormed options) {definition : Definition}
    (hwritable : IsWritable options.strictNumbers definition.tokens)
    (hvalue : definition.addTo? options.maxTypeDepth document = some document') :
    document'.WellFormed options := by
  cases definition with
  | constant type name value =>
    obtain ⟨htype, hname, hliteral⟩ : IsWritable options.strictNumbers type.tokens ∧
        IsIdentifier name ∧ value.token.IsLexeme options.strictNumbers := by
      simpa [Definition.tokens, Token.isLexeme_identifier_iff] using hwritable
    obtain ⟨signature, hsignature, ⟨⟩⟩ := Option.bind_eq_some_iff.1 hvalue
    refine { h with consts := forall_mem_append_singleton.2 ⟨h.consts, hname, ?_, ?_⟩ }
    · exact (exists_type_iff options.strictNumbers).1 ⟨type, htype, hsignature⟩
    · exact isLiteral_iff.2 ⟨value, rfl, hliteral⟩
  | typedef type name =>
    obtain ⟨htype, hname⟩ : IsWritable options.strictNumbers type.tokens ∧ IsIdentifier name := by
      simpa [Definition.tokens, Token.isLexeme_identifier_iff] using hwritable
    obtain ⟨signature, hsignature, ⟨⟩⟩ := Option.bind_eq_some_iff.1 hvalue
    refine { h with typedefs := forall_mem_append_singleton.2 ⟨h.typedefs, hname, ?_⟩ }
    exact (exists_type_iff options.strictNumbers).1 ⟨type, htype, hsignature⟩
  | enum name members =>
    obtain ⟨hname, hmembers⟩ : IsIdentifier name ∧
        IsWritable options.strictNumbers (members.flatMap Syntax.Member.tokens) := by
      simpa [Definition.tokens, Syntax.braced, Token.isLexeme_identifier_iff] using hwritable
    obtain ⟨enum, henum, ⟨⟩⟩ := Option.bind_eq_some_iff.1 hvalue
    have hstart : Enum.WellFormed ⟨name, [], ""⟩ := ⟨hname, by simp, .nil, ascendFrom_nil 1⟩
    refine { h with enums := forall_mem_append_singleton.2 ⟨h.enums, ?_⟩ }
    exact Enum.wellFormed_of_insertMembers? hstart (Int.le_refl 1) (by simp) hmembers henum
  | struct name fields =>
    obtain ⟨hname, hfields⟩ : IsIdentifier name ∧
        IsWritable options.strictNumbers (fields.flatMap Syntax.Field.tokens) := by
      simpa [Definition.tokens, Syntax.braced, Token.isLexeme_identifier_iff] using hwritable
    obtain ⟨values, hvalues, ⟨⟩⟩ := Option.bind_eq_some_iff.1 hvalue
    refine { h with structs := forall_mem_append_singleton.2 ⟨h.structs, hname, ?_⟩ }
    exact isFieldList_of_fields? (by decide) hfields hvalues
  | exception name fields =>
    obtain ⟨hname, hfields⟩ : IsIdentifier name ∧
        IsWritable options.strictNumbers (fields.flatMap Syntax.Field.tokens) := by
      simpa [Definition.tokens, Syntax.braced, Token.isLexeme_identifier_iff] using hwritable
    obtain ⟨values, hvalues, ⟨⟩⟩ := Option.bind_eq_some_iff.1 hvalue
    refine { h with exceptions := forall_mem_append_singleton.2 ⟨h.exceptions, hname, ?_⟩ }
    exact isFieldList_of_fields? (by decide) hfields hvalues
  | service name parent functions =>
    obtain ⟨hname, hparent, hfunctions⟩ : IsIdentifier name ∧
        (∀ parent' ∈ parent, IsIdentifier parent') ∧
          IsWritable options.strictNumbers (functions.flatMap Syntax.Function.tokens) := by
      simpa [Definition.tokens, Syntax.braced, Token.isLexeme_identifier_iff] using hwritable
    obtain ⟨values, hvalues, ⟨⟩⟩ := Option.bind_eq_some_iff.1 hvalue
    refine { h with services := forall_mem_append_singleton.2 ⟨h.services, hname, hparent, ?_⟩ }
    exact forall_wellFormed_of_mapM_value? hfunctions hvalues

theorem Document.WellFormed.foldl_addTo {document : Document} (h : document.WellFormed options)
    {headers : List Header}
    (hwritable : IsWritable options.strictNumbers (headers.flatMap Header.tokens)) :
    (headers.foldl Header.addTo document).WellFormed options := by
  induction headers generalizing document with
  | nil => exact h
  | cons header headers ih =>
    rw [List.flatMap_cons, isWritable_append] at hwritable
    exact ih (h.addTo hwritable.1) hwritable.2

theorem Document.WellFormed.foldlM_addTo? {document document' : Document}
    (h : document.WellFormed options) {definitions : List Definition}
    (hwritable : IsWritable options.strictNumbers (definitions.flatMap Definition.tokens))
    (hvalue : definitions.foldlM (Definition.addTo? options.maxTypeDepth) document =
      some document') : document'.WellFormed options := by
  induction definitions generalizing document with
  | nil =>
    obtain rfl := Option.some.inj hvalue
    exact h
  | cons definition definitions ih =>
    rw [List.flatMap_cons, isWritable_append] at hwritable
    obtain ⟨next, hnext, hrest⟩ := Option.bind_eq_some_iff.1 hvalue
    exact ih (h.addTo? hwritable.1 hnext) hwritable.2 hrest

/-- A derivation that can be written denotes a well-formed document. -/
theorem Document.wellFormed_of_value? {tree : Syntax.Document} {document : Document}
    (hwritable : IsWritable options.strictNumbers tree.tokens)
    (hvalue : tree.value? options.maxTypeDepth = some document) :
    document.WellFormed options := by
  obtain ⟨hheaders, hdefinitions⟩ := isWritable_append.1 hwritable
  exact (Document.wellFormed_empty.foldl_addTo hheaders).foldlM_addTo? hdefinitions hvalue

/-! ### From well-formed documents to derivations -/

/-- Some entries that can be written lead from one document to another one. -/
def LeadsTo {σ : Type} (strict : Bool) (tokensOf : σ → List Token)
    (step : Document → σ → Option Document) (first last : Document) : Prop :=
  ∃ entries : List σ, IsWritable strict (entries.flatMap tokensOf) ∧
    entries.foldlM step first = some last

namespace LeadsTo

variable {σ : Type} {strict : Bool} {tokensOf : σ → List Token}
  {step : Document → σ → Option Document} {first second third : Document}

theorem refl (document : Document) : LeadsTo strict tokensOf step document document :=
  ⟨[], isWritable_nil, rfl⟩

theorem of_entry {entry : σ} (hwritable : IsWritable strict (tokensOf entry))
    (hstep : step first entry = some second) : LeadsTo strict tokensOf step first second := by
  refine ⟨[entry], by simpa using hwritable, ?_⟩
  rw [List.foldlM_cons, hstep]
  rfl

theorem trans (h : LeadsTo strict tokensOf step first second)
    (h' : LeadsTo strict tokensOf step second third) :
    LeadsTo strict tokensOf step first third := by
  obtain ⟨entries, hwritable, hfold⟩ := h
  obtain ⟨entries', hwritable', hfold'⟩ := h'
  refine ⟨entries ++ entries', ?_, ?_⟩
  · rw [List.flatMap_append]
    exact isWritable_append.2 ⟨hwritable, hwritable'⟩
  · rw [List.foldlM_append, hfold]
    exact hfold'

/-- Values are added to a part of a document one by one. -/
theorem foldl {ι γ : Type} (put : γ → Document) {add : γ → ι → γ} {values : List ι}
    (h : ∀ value ∈ values, ∀ part,
      LeadsTo strict tokensOf step (put part) (put (add part value))) (part : γ) :
    LeadsTo strict tokensOf step (put part) (put (values.foldl add part)) := by
  induction values generalizing part with
  | nil => exact refl _
  | cons value values ih =>
    obtain ⟨hvalue, hvalues⟩ := List.forall_mem_cons.1 h
    exact (hvalue part).trans (ih hvalues (add part value))

/-- Nodes are put behind each other into a list of a document. -/
theorem append_map {ι κ : Type} (put : List κ → Document) {node : ι → κ} {values : List ι}
    (h : ∀ value ∈ values, ∀ nodes,
      LeadsTo strict tokensOf step (put nodes) (put (nodes ++ [node value]))) :
    LeadsTo strict tokensOf step (put []) (put (values.map node)) := by
  have hmap (nodes : List κ) :
      values.foldl (fun nodes value => nodes ++ [node value]) nodes = nodes ++ values.map node := by
    clear h
    induction values generalizing nodes with
    | nil => simp
    | cons value values ih => simp [ih]
  have hfold := foldl put h []
  rwa [hmap, List.nil_append] at hfold

end LeadsTo

/-- Some header statements that can be written lead from one document to another one. -/
abbrev Document.HeadedTo (options : ParseOptions) : Document → Document → Prop :=
  LeadsTo options.strictNumbers Header.tokens fun document header => some (header.addTo document)

/-- Some definitions that can be written lead from one document to another one. -/
abbrev Document.ExtendsTo (options : ParseOptions) : Document → Document → Prop :=
  LeadsTo options.strictNumbers Definition.tokens (Definition.addTo? options.maxTypeDepth)

namespace Namespaces

theorem eq_of_entries_eq {first second : Namespaces} (h : first.entries = second.entries) :
    first = second := by
  obtain ⟨entries, _⟩ := first
  obtain rfl : entries = second.entries := h
  rfl

theorem insertEntry_of_forall_lt {scope name : String} {entries : List (String × String)}
    (h : ∀ entry ∈ entries, entry.1 < scope) :
    insertEntry scope name entries = entries ++ [(scope, name)] := by
  induction entries with
  | nil => rfl
  | cons entry entries ih =>
    obtain ⟨hentry, hentries⟩ := List.forall_mem_cons.1 h
    have hne : ¬scope = entry.1 := by
      rintro rfl
      exact String.lt_irrefl _ hentry
    rw [insertEntry, if_neg (String.lt_asymm hentry), if_neg hne, ih hentries, List.cons_append]

theorem entries_foldl_insert {namespaces : Namespaces} {entries : List (String × String)}
    (h : (namespaces.entries ++ entries).Pairwise fun first second => first.1 < second.1) :
    (entries.foldl (fun namespaces entry => namespaces.insert entry.1 entry.2) namespaces).entries =
      namespaces.entries ++ entries := by
  induction entries generalizing namespaces with
  | nil => simp
  | cons entry entries ih =>
    have hinsert : (namespaces.insert entry.1 entry.2).entries = namespaces.entries ++ [entry] := by
      refine insertEntry_of_forall_lt fun other hother => ?_
      exact (List.pairwise_append.1 h).2.2 other hother entry List.mem_cons_self
    have hsplit : namespaces.entries ++ entry :: entries =
        (namespaces.insert entry.1 entry.2).entries ++ entries := by
      rw [hinsert, List.append_assoc, List.singleton_append]
    rw [hsplit] at h ⊢
    exact ih h

/-- Namespaces are rebuilt by writing them in the order of their scopes. -/
theorem foldl_insert_entries (namespaces : Namespaces) :
    namespaces.entries.foldl (fun namespaces entry => namespaces.insert entry.1 entry.2) .empty =
      namespaces := by
  apply eq_of_entries_eq
  have hascending : (Namespaces.empty.entries ++ namespaces.entries).Pairwise
      fun first second => first.1 < second.1 := namespaces.ascending
  exact entries_foldl_insert hascending

end Namespaces

theorem Document.headedTo_namespace (options : ParseOptions) {entry : String × String}
    (hscope : entry.1 = "*" ∨ IsIdentifier entry.1) (hname : IsIdentifier entry.2)
    (document : Document) :
    document.HeadedTo options
      { document with namespaces := document.namespaces.insert entry.1 entry.2 } := by
  obtain ⟨scope, name⟩ := entry
  rcases hscope with rfl | hscope
  · have hwritable : IsWritable options.strictNumbers (Header.namespaceName none name).tokens := by
      simpa [Header.tokens, Token.isLexeme_identifier_iff] using hname
    exact .of_entry hwritable rfl
  · have hwritable :
        IsWritable options.strictNumbers (Header.namespaceName (some scope) name).tokens := by
      simpa [Header.tokens, Token.isLexeme_identifier_iff] using ⟨hscope, hname⟩
    exact .of_entry hwritable rfl

theorem Document.headedTo_include (options : ParseOptions) {path : String} (h : IsIncludePath path)
    (document : Document) :
    document.HeadedTo options { document with includes := document.includes ++ [path] } := by
  obtain ⟨literal, hquoted, rfl⟩ := isIncludePath_iff.1 h
  have hwritable : IsWritable options.strictNumbers (Header.includePath literal).tokens := by
    simpa [Header.tokens, Token.IsLexeme] using hquoted
  exact .of_entry hwritable rfl

/-- The header of a well-formed document can be written. -/
theorem Document.WellFormed.headedTo {document : Document} (h : document.WellFormed options) :
    Document.empty.HeadedTo options
      ⟨document.namespaces, document.includes, [], [], [], [], [], [], ""⟩ := by
  have hnamespaces : Document.empty.HeadedTo options
      ⟨document.namespaces, [], [], [], [], [], [], [], ""⟩ := by
    have hfold := LeadsTo.foldl (fun namespaces => ⟨namespaces, [], [], [], [], [], [], [], ""⟩)
      (fun entry hentry _ => Document.headedTo_namespace options (h.scopes entry hentry)
        (h.namespaces entry hentry) _) Namespaces.empty
    rwa [Namespaces.foldl_insert_entries] at hfold
  refine hnamespaces.trans ?_
  have hincludes := LeadsTo.append_map
    (fun includes => ⟨document.namespaces, includes, [], [], [], [], [], [], ""⟩)
    fun path hpath _ => Document.headedTo_include options (h.includes path hpath) _
  rwa [List.map_id'] at hincludes

theorem Constant.WellFormed.extendsTo {constant : Constant} (h : constant.WellFormed options)
    (document : Document) :
    document.ExtendsTo options
      { document with consts := document.consts ++ [constant.mapLayout .plain] } := by
  obtain ⟨name, _, _, docText⟩ := constant
  obtain ⟨hname, htype, hvalue⟩ := h
  obtain ⟨type, hwritable, hsignature⟩ := (exists_type_iff options.strictNumbers).2 htype
  obtain ⟨literal, rfl, hliteral⟩ := isLiteral_iff.1 hvalue
  have hdefinition :
      IsWritable options.strictNumbers (Definition.constant type name literal).tokens := by
    simp [Definition.tokens, Token.isLexeme_identifier_iff, hwritable, hname, hliteral]
  refine .of_entry hdefinition ?_
  simp [Definition.addTo?, hsignature, Constant.mapLayout, LayoutMap.plain]

theorem Typedef.WellFormed.extendsTo {typedef : Typedef} (h : typedef.WellFormed options)
    (document : Document) :
    document.ExtendsTo options
      { document with typedefs := document.typedefs ++ [typedef.mapLayout .plain] } := by
  obtain ⟨name, _, docText⟩ := typedef
  obtain ⟨hname, htype⟩ := h
  obtain ⟨type, hwritable, hsignature⟩ := (exists_type_iff options.strictNumbers).2 htype
  have hdefinition : IsWritable options.strictNumbers (Definition.typedef type name).tokens := by
    simp [Definition.tokens, Token.isLexeme_identifier_iff, hwritable, hname]
  refine .of_entry hdefinition ?_
  simp [Definition.addTo?, hsignature, Typedef.mapLayout, LayoutMap.plain]

theorem Enum.WellFormed.extendsTo {enum : Enum} (h : enum.WellFormed) (document : Document) :
    document.ExtendsTo options
      { document with enums := document.enums ++ [enum.mapLayout .plain] } := by
  obtain ⟨name, members, docText⟩ := enum
  obtain ⟨hname, hmembers, hdistinct, hvalues⟩ := h
  obtain ⟨entries, hwritable, hentries⟩ : ∃ entries : List Syntax.Member,
      IsWritable options.strictNumbers (entries.flatMap Syntax.Member.tokens) ∧
        Syntax.insertMembers? 1 ⟨name, [], ""⟩ entries = some ⟨name, members, ""⟩ :=
    Enum.exists_insertMembers? (by decide) hmembers hdistinct hvalues
  have hdefinition : IsWritable options.strictNumbers (Definition.enum name entries).tokens := by
    simp [Definition.tokens, Syntax.braced, Token.isLexeme_identifier_iff, hwritable, hname]
  refine .of_entry hdefinition ?_
  simp [Definition.addTo?, hentries, Enum.mapLayout, LayoutMap.plain]

theorem Struct.WellFormed.extendsTo {struct : Struct} (h : struct.WellFormed options)
    (document : Document) :
    document.ExtendsTo options
        { document with structs := document.structs ++ [struct.mapLayout .plain] } ∧
      document.ExtendsTo options
        { document with exceptions := document.exceptions ++ [struct.mapLayout .plain] } := by
  obtain ⟨name, fields, docText⟩ := struct
  obtain ⟨hname, hfields⟩ := h
  obtain ⟨entries, hwritable, hentries⟩ := exists_fields? (by decide) hfields
  have hstruct : IsWritable options.strictNumbers (Definition.struct name entries).tokens := by
    simp [Definition.tokens, Syntax.braced, Token.isLexeme_identifier_iff, hwritable, hname]
  have hexception :
      IsWritable options.strictNumbers (Definition.exception name entries).tokens := by
    simp [Definition.tokens, Syntax.braced, Token.isLexeme_identifier_iff, hwritable, hname]
  constructor
  · refine .of_entry hstruct ?_
    simp [Definition.addTo?, hentries, Struct.mapLayout, LayoutMap.plain]
  · refine .of_entry hexception ?_
    simp [Definition.addTo?, hentries, Struct.mapLayout, LayoutMap.plain]

theorem Service.WellFormed.extendsTo {service : Service} (h : service.WellFormed options)
    (document : Document) :
    document.ExtendsTo options
      { document with services := document.services ++ [service.mapLayout .plain] } := by
  obtain ⟨name, parent, functions, docText⟩ := service
  obtain ⟨hname, hparent, hfunctions⟩ := h
  obtain ⟨entries, hwritable, hentries⟩ := exists_mapM_value? hfunctions
  have hdefinition :
      IsWritable options.strictNumbers (Definition.service name parent entries).tokens := by
    simpa [Definition.tokens, Syntax.braced, Token.isLexeme_identifier_iff, hwritable, hname]
      using hparent
  refine .of_entry hdefinition ?_
  simp [Definition.addTo?, hentries, Service.mapLayout, LayoutMap.plain]

/-- The definitions of a well-formed document can be written behind its header. -/
theorem Document.WellFormed.extendsTo {document : Document} (h : document.WellFormed options) :
    (Document.mk document.namespaces document.includes [] [] [] [] [] [] "").ExtendsTo options
      document.withoutDocTexts := by
  obtain ⟨namespaces, includes, consts, typedefs, enums, structs, exceptions, services, docText⟩ :=
    document
  -- One kind of definitions after the other, in the order of the parts of a document.
  refine .trans (.append_map (fun part => ⟨namespaces, includes, part, [], [], [], [], [], ""⟩)
    fun constant hconstant _ => (h.consts constant hconstant).extendsTo _) ?_
  refine .trans (.append_map (fun part => ⟨namespaces, includes, _, part, [], [], [], [], ""⟩)
    fun typedef htypedef _ => (h.typedefs typedef htypedef).extendsTo _) ?_
  refine .trans (.append_map (fun part => ⟨namespaces, includes, _, _, part, [], [], [], ""⟩)
    fun enum henum _ => (h.enums enum henum).extendsTo _) ?_
  refine .trans (.append_map (fun part => ⟨namespaces, includes, _, _, _, part, [], [], ""⟩)
    fun struct hstruct _ => ((h.structs struct hstruct).extendsTo _).1) ?_
  refine .trans (.append_map (fun part => ⟨namespaces, includes, _, _, _, _, part, [], ""⟩)
    fun struct hstruct _ => ((h.exceptions struct hstruct).extendsTo _).2) ?_
  exact .append_map (fun part => ⟨namespaces, includes, _, _, _, _, _, part, ""⟩)
    fun service hservice _ => (h.services service hservice).extendsTo _

/-- A well-formed document has a derivation that can be written and denotes it without its doc
texts. -/
theorem Document.WellFormed.exists_value? {document : Document}
    (h : document.WellFormed options) :
    ∃ tree : Syntax.Document, IsWritable options.strictNumbers tree.tokens ∧
      tree.value? options.maxTypeDepth = some document.withoutDocTexts := by
  obtain ⟨headers, hheaders, hheaded⟩ := h.headedTo
  obtain ⟨definitions, hdefinitions, hextended⟩ := h.extendsTo
  have hstart : headers.foldl Header.addTo .empty =
      ⟨document.namespaces, document.includes, [], [], [], [], [], [], ""⟩ :=
    Option.some.inj (List.foldlM_pure.symm.trans hheaded)
  refine ⟨⟨headers, definitions⟩, isWritable_append.2 ⟨hheaders, hdefinitions⟩, ?_⟩
  rw [Syntax.Document.value?, hstart]
  exact hextended

/-! ### Doc texts -/

theorem IsFieldList.of_mapLayout {m : LayoutMap} {least : Int} {fields : List Field}
    (h : IsFieldList options least (fields.map (·.mapLayout m))) :
    IsFieldList options least fields := by
  obtain ⟨hwellFormed, hindices⟩ := h
  refine ⟨fun field hfield => ?_, ?_⟩
  · obtain ⟨hname, htype, hdefault⟩ := hwellFormed _ (List.mem_map_of_mem hfield)
    exact ⟨hname, htype, hdefault⟩
  · rwa [List.map_map] at hindices

theorem Struct.WellFormed.of_mapLayout {m : LayoutMap} {struct : Struct}
    (h : (struct.mapLayout m).WellFormed options) : struct.WellFormed options :=
  ⟨h.name, h.fields.of_mapLayout⟩

theorem Service.WellFormed.of_mapLayout {m : LayoutMap} {service : Service}
    (h : (service.mapLayout m).WellFormed options) : service.WellFormed options := by
  refine ⟨h.name, h.parent, fun function hfunction => ?_⟩
  obtain ⟨hname, hreturn, harguments, hthrows⟩ :=
    h.functions _ (List.mem_map_of_mem hfunction)
  exact ⟨hname, hreturn, harguments.of_mapLayout, hthrows.of_mapLayout⟩

/-- Whether a document is well formed does not depend on its doc texts. -/
theorem Document.WellFormed.of_mapLayout {m : LayoutMap} {document : Document}
    (h : (document.mapLayout m).WellFormed options) : document.WellFormed options where
  scopes := h.scopes
  namespaces := h.namespaces
  includes := h.includes
  consts constant hconstant := by
    obtain ⟨hname, htype, hvalue⟩ := h.consts _ (List.mem_map_of_mem hconstant)
    exact ⟨hname, htype, hvalue⟩
  typedefs typedef htypedef := by
    obtain ⟨hname, htype⟩ := h.typedefs _ (List.mem_map_of_mem htypedef)
    exact ⟨hname, htype⟩
  enums enum henum := by
    obtain ⟨hname, hnames, hdistinct, hvalues⟩ := h.enums _ (List.mem_map_of_mem henum)
    exact ⟨hname, hnames, hdistinct, hvalues⟩
  structs struct hstruct := (h.structs _ (List.mem_map_of_mem hstruct)).of_mapLayout
  exceptions struct hstruct := (h.exceptions _ (List.mem_map_of_mem hstruct)).of_mapLayout
  services service hservice := (h.services _ (List.mem_map_of_mem hservice)).of_mapLayout

/-! ### Texts -/

/-- The document of every text is well formed. -/
theorem wellFormed_of_parse_eq_ok {source : String} {document : Document}
    (hparse : parse options source = .ok document) : document.WellFormed options := by
  obtain ⟨tree, hwritable, hvalue⟩ := exists_writable_of_parse_eq_ok hparse
  exact (Document.wellFormed_of_value? hwritable hvalue).of_mapLayout

/-- A document without doc texts is what some text is parsed to if and only if it is well
formed. -/
theorem exists_parse_eq_ok_iff_wellFormed {document : Document}
    (h : document.withoutDocTexts = document) :
    (∃ source, parse options source = .ok document) ↔ document.WellFormed options := by
  constructor
  · rintro ⟨source, hparse⟩
    exact wellFormed_of_parse_eq_ok hparse
  · intro hwellFormed
    obtain ⟨tree, hwritable, hvalue⟩ := hwellFormed.exists_value?
    rw [h] at hvalue
    exact exists_parse_eq_ok_of_writable hwritable hvalue

/-- A document with a quote in its include path, where an index and a number are left out. -/
theorem exists_parse_eq_ok_quote_in_path :
    ∃ source, parse ⟨true, 1⟩ source =
      .ok { Document.empty with
        includes := ["it's"]
        enums := [⟨"E", [⟨"a", 7⟩], ""⟩]
        structs := [⟨"S", [⟨2, "x", "list<T>", some "-1.5", true, ""⟩], ""⟩] } := by
  have hidentifier {c : Char} (hstart : isNameStart c = true) :
      IsName [c] := ⟨c, [], rfl, hstart, by simp⟩
  have ha : IsIdentifier "a" := ⟨hidentifier rfl, fun k => by cases k <;> decide⟩
  have hE : IsIdentifier "E" := ⟨hidentifier rfl, fun k => by cases k <;> decide⟩
  have hS : IsIdentifier "S" := ⟨hidentifier rfl, fun k => by cases k <;> decide⟩
  have hT : IsIdentifier "T" := ⟨hidentifier rfl, fun k => by cases k <;> decide⟩
  have hx : IsIdentifier "x" := ⟨hidentifier rfl, fun k => by cases k <;> decide⟩
  have hpath : IsIncludePath "it's" := by
    refine ⟨fun c hc => ?_, fun c hc => ?_, .inl (by decide)⟩ <;>
    · obtain rfl := Option.some.inj hc
      rfl
  have hliteral : IsLiteral ⟨true, 1⟩ "-1.5" := ⟨.number "-1.5", rfl, by decide +kernel⟩
  have htype : IsSignature 1 "list<T>" := ⟨.list (.named "T"), hT, by decide, by decide⟩
  have henum : Enum.WellFormed ⟨"E", [⟨"a", 7⟩], ""⟩ :=
    ⟨hE, by simpa using ha, by decide, List.forall_mem_singleton.2 (by decide), by decide⟩
  have hfield : Field.WellFormed ⟨true, 1⟩ ⟨2, "x", "list<T>", some "-1.5", true, ""⟩ :=
    ⟨hx, htype, by simpa using hliteral⟩
  have hstruct : Struct.WellFormed ⟨true, 1⟩
      ⟨"S", [⟨2, "x", "list<T>", some "-1.5", true, ""⟩], ""⟩ :=
    ⟨hS, by simpa using hfield, List.forall_mem_singleton.2 (by decide), by decide⟩
  refine (exists_parse_eq_ok_iff_wellFormed rfl).2
    { Document.wellFormed_empty with
      includes := by simpa using hpath
      enums := by simpa using henum
      structs := by simpa using hstruct }

end ServiceIdl
