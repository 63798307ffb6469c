import ServiceIdl.Proofs.DocTexts.Documents
import ServiceIdl.Proofs.Parsing.Spacing
import ServiceIdl.Proofs.WellFormed.Parsing

/-!
# Signatures

The signature of a type is the text of its tokens with nothing between them. It is the same however
the type is written, no other type has it, and it can be read again wherever it was found.
-/

namespace ServiceIdl

/-! ### The text of a type -/

namespace Token

variable {s : Symbol}

theorem mayTouch_symbol (token : Token) (s : Symbol) : token.MayTouch (.symbol s) := by
  have hparts (c : Char) (hc : (symbol s).text.toList.head? = some c) :
      isNamePart c = false ∧ isNumberPart c = false := by
    cases s <;>
    · obtain rfl := Option.some.inj hc
      exact ⟨rfl, rfl⟩
  intro c hc
  cases token with
  | keyword | identifier => exact (hparts c hc).1
  | number => exact (hparts c hc).2
  | _ => rfl

theorem symbol_mayTouch (s : Symbol) (token : Token) : (symbol s).MayTouch token :=
  fun _ _ => rfl

theorem isChain_symbol_cons {tokens : List Token} (h : tokens.IsChain MayTouch) :
    (symbol s :: tokens).IsChain MayTouch :=
  List.isChain_cons.2 ⟨fun token _ => symbol_mayTouch s token, h⟩

theorem isChain_append_symbol_cons {first second : List Token} (hfirst : first.IsChain MayTouch)
    (hsecond : second.IsChain MayTouch) : (first ++ symbol s :: second).IsChain MayTouch := by
  refine List.isChain_append.2 ⟨hfirst, isChain_symbol_cons hsecond, fun token _ next hnext => ?_⟩
  obtain rfl : symbol s = next := Option.some.inj hnext
  exact token.mayTouch_symbol s

end Token

namespace TypeExpr

variable {type type' : TypeExpr}

/-- Of two tokens of a type that follow each other one is a symbol, so the two may touch. -/
theorem isChain_tokens (type : TypeExpr) : type.tokens.IsChain Token.MayTouch := by
  have hopened (word : Keyword) {tokens : List Token} (h : tokens.IsChain Token.MayTouch) :
      (Token.keyword word :: Token.symbol .leftAngle :: tokens).IsChain Token.MayTouch :=
    List.isChain_cons_cons.2 ⟨Token.mayTouch_symbol _ _, Token.isChain_symbol_cons h⟩
  induction type with
  | named name => exact List.isChain_singleton _
  | list element ih | set element ih =>
    exact hopened _ (Token.isChain_append_symbol_cons ih List.isChain_nil)
  | map key value ihkey ihvalue =>
    have hvalue := Token.isChain_append_symbol_cons (s := .rightAngle) ihvalue List.isChain_nil
    exact hopened _ (Token.isChain_append_symbol_cons ihkey hvalue)

/-- A signature is the text of the tokens of a type, one right behind the other. -/
theorem toList_signature (type : TypeExpr) :
    type.signature.toList = type.tokens.flatMap fun token => token.text.toList := by
  induction type with
  | named name => simp [signature, tokens, Token.text]
  | list element ih | set element ih =>
    simp [signature, tokens, ih, Token.text, Keyword.text, Symbol.char]
  | map key value ihkey ihvalue =>
    simp [signature, tokens, ihkey, ihvalue, Token.text, Keyword.text, Symbol.char]

theorem isBlank_eq_false_of_isName {text : List Char} (h : IsName text) {c : Char}
    (hc : c ∈ text) : isBlank c = false := by
  obtain ⟨first, rest, rfl, hfirst, hrest⟩ := h
  refine Bool.eq_false_iff.2 fun hblank => ?_
  have hparts : isNameStart c = false ∧ isNamePart c = false := by
    simp only [isBlank, Bool.or_eq_true, decide_eq_true_eq] at hblank
    rcases hblank with ((rfl | rfl) | rfl) | rfl <;> exact ⟨rfl, rfl⟩
  rcases List.mem_cons.1 hc with rfl | hc
  · exact absurd hfirst (by simp [hparts.1])
  · exact absurd (hrest c hc) (by simp [hparts.2])

/-- There is no blank in a signature. -/
theorem isBlank_of_mem_signature (h : type.HasIdentifiers) :
    ∀ c ∈ type.signature.toList, isBlank c = false := by
  have hplain (text : String) (htext : text.toList.any isBlank = false) :
      ∀ c ∈ text.toList, isBlank c = false :=
    fun c hc => Bool.eq_false_iff.2 (List.any_eq_false.1 htext c hc)
  induction type with
  | named name => exact fun c hc => isBlank_eq_false_of_isName h.1 hc
  | list element ih | set element ih =>
    simp only [signature, String.toList_append, List.forall_mem_append]
    exact ⟨⟨hplain _ rfl, ih h⟩, hplain _ rfl⟩
  | map key value ihkey ihvalue =>
    simp only [signature, String.toList_append, List.forall_mem_append]
    exact ⟨⟨⟨⟨hplain _ rfl, ihkey h.1⟩, hplain _ rfl⟩, ihvalue h.2⟩, hplain _ rfl⟩

/-- A type is known by its tokens. -/
theorem tokens_injective : Function.Injective tokens := by
  intro type type' h
  have hlimit := Nat.le_max_left type.depth type'.depth
  have hlimit' := Nat.le_max_right type.depth type'.depth
  exact (TypeReader.accepts_start_iff.2 ⟨rfl, hlimit⟩).unique
    (TypeReader.accepts_start_iff.2 ⟨h, hlimit'⟩)

theorem splitsInto_signature (strict : Bool) (h : type.HasIdentifiers) :
    SplitsInto strict type.signature.toList type.tokens := by
  have hwritable : IsWritable strict type.tokens := isWritable_tokens_iff.2 h
  have hfirst : (type.tokens.map fun token => (token, ([] : List Char))).map (·.1) =
      type.tokens := by
    simp [Function.comp_def]
  have hrender : renderTokens (type.tokens.map fun token => (token, [])) =
      type.signature.toList := by
    rw [renderTokens, List.flatMap_map, toList_signature]
    simp
  have hspacing : ∀ entry ∈ type.tokens.map fun token => (token, ([] : List Char)),
      IsSpacing entry.2 := List.forall_mem_map.2 fun _ _ => .trivia .nil
  have hsplit := splitsInto_renderTokens (by rwa [hfirst]) hspacing
    ((List.isChain_map _).2 (type.isChain_tokens.imp fun _ _ hends _ => hends))
  rwa [hrender, hfirst] at hsplit

/-- No two types have one signature. -/
theorem signature_injective (h : type.HasIdentifiers) (h' : type'.HasIdentifiers)
    (hsame : type.signature = type'.signature) : type = type' := by
  have hsplit := splitsInto_signature true h
  rw [hsame] at hsplit
  exact tokens_injective (hsplit.unique (splitsInto_signature true h'))

end TypeExpr

/-! ### Typedefs -/

/-- A typedef as it may be written. Between its tokens there is any spacing, and there must be some
behind the keyword and before the new name. -/
inductive IsTypedefText (type : TypeExpr) (name : String) : List Char → Prop where
  | intro {first last : List Char} {entries : List (Token × List Char)}
      (htokens : entries.map (·.1) = type.tokens)
      (hspacing : ∀ entry ∈ (.keyword .typedefDef, first) :: (entries ++ [(.identifier name, last)]),
        IsSpacing entry.2)
      (hfirst : first ≠ []) (hbehind : ∀ entry ∈ entries.getLast?, entry.2 ≠ []) :
      IsTypedefText type name
        (renderTokens ((.keyword .typedefDef, first) :: (entries ++ [(.identifier name, last)])))

section

variable {options : ParseOptions} {type : TypeExpr} {name : String} {text : List Char}

/-- The tokens of a typedef, the first of which is its keyword. -/
theorem IsTypedefText.exists_ofSource_eq (h : IsTypedefText type name text)
    (htype : type.HasIdentifiers) (hname : IsIdentifier name) :
    ∃ span read span', TokenStream.ofSource options (String.ofList text) =
        ⟨⟨.keyword .typedefDef, span⟩ :: read, .endOfInput span'⟩ ∧
      sentence read = type.tokens ++ [.identifier name] := by
  obtain @⟨first, last, entries, htokens, hspacing, hfirst, hbehind⟩ := h
  obtain ⟨hgap, hgaps⟩ := List.forall_mem_cons.1 hspacing
  have hmap : (entries ++ [(Token.identifier name, last)]).map (·.1) =
      type.tokens ++ [.identifier name] := by
    rw [List.map_append, htokens]
    rfl
  have hwritable : IsWritable options.strictNumbers (type.tokens ++ [.identifier name]) := by
    simpa [TypeExpr.isWritable_tokens_iff, Token.isLexeme_identifier_iff] using ⟨htype, hname⟩
  have hapart : (entries ++ [(Token.identifier name, last)]).IsChain KeptApart := by
    refine List.isChain_append.2 ⟨?_, List.isChain_singleton _, fun entry hentry _ _ hnil => ?_⟩
    · have hchain := type.isChain_tokens
      rw [← htokens] at hchain
      exact ((List.isChain_map _).1 hchain).imp fun _ _ hends _ => hends
    · exact absurd hnil (hbehind entry hentry)
  have hrest := splitsInto_renderTokens (by rwa [hmap]) hgaps hapart
  rw [hmap] at hrest
  have hkeyword : (Token.keyword .typedefDef).IsLexeme options.strictNumbers := trivial
  have hstream := (hrest.spacing hgap).exists_ofSource_cons options hkeyword
    (.spacing hgap hfirst _)
  rwa [renderTokens, List.flatMap_cons, List.append_assoc]

/-- However a typedef is written, it says the signature of its type. -/
theorem parse_of_isTypedefText (h : IsTypedefText type name text) (htype : type.HasIdentifiers)
    (hdepth : type.depth ≤ options.maxTypeDepth) (hname : IsIdentifier name) :
    parse options (String.ofList text) =
      .ok { Document.empty with typedefs := [⟨name, type.signature, ""⟩] } := by
  obtain ⟨span, read, span', hstream, hread⟩ := h.exists_ofSource_eq htype hname
  have hending : (TokenStream.ofSource options (String.ofList text)).ending = .endOfInput span' := by
    rw [hstream]
  have hkeyword : sentence (⟨.keyword .typedefDef, span⟩ :: read) =
      .keyword .typedefDef :: sentence read := rfl
  have htokens : (Syntax.Document.mk [] [.typedef type name]).tokens =
      sentence (TokenStream.ofSource options (String.ofList text)).tokens := by
    rw [hstream, hkeyword, hread]
    exact List.append_nil _
  refine parse_eq_ok_of_documented hending htokens ?_
  -- The first token is the keyword, so that no doc comment stands in front of it.
  have hdocs : (docTextsOf (⟨.keyword .typedefDef, span⟩ :: read)).between 0 (0 + 1) = "" := by
    rw [DocTexts.between_one]
    rfl
  have hsignature : type.signature? options.maxTypeDepth = some type.signature :=
    TypeExpr.signature?_eq_some_iff.2 ⟨hdepth, rfl⟩
  rw [hstream]
  simp only [Syntax.Document.documented?, Syntax.addDefinitions?, Syntax.Definition.addDocumented?,
    hsignature, List.flatMap_nil, List.length_nil, sinceBehind, hdocs, Option.bind_eq_bind,
    Option.bind_some, Syntax.addHeaders]
  rfl

end

/-! ### The signatures in a document -/

/-- The types of the fields of a struct, an argument list or a throws list. -/
def fieldSignatures (fields : List Field) : List String := fields.map (·.type)

/-- The types that a document mentions: those of constants, typedefs and fields of all kinds, and
the return types of functions that return something. -/
def Document.signatures (document : Document) : List String :=
  document.consts.map (·.type) ++ document.typedefs.map (·.type) ++
    (document.structs ++ document.exceptions).flatMap (fun struct => fieldSignatures struct.fields) ++
      (document.services.flatMap (·.functions)).flatMap fun function =>
        fieldSignatures function.arguments ++ fieldSignatures function.throws ++
          if function.returnType = "void" then [] else [function.returnType]

theorem IsFieldList.isSignature {options : ParseOptions} {least : Int} {fields : List Field}
    (h : IsFieldList options least fields) :
    ∀ text ∈ fieldSignatures fields, IsSignature options.maxTypeDepth text :=
  List.forall_mem_map.2 fun field hfield => (h.wellFormed field hfield).type

/-- The types in a well-formed document are signatures. -/
theorem Document.WellFormed.isSignature {options : ParseOptions} {document : Document}
    (h : document.WellFormed options) :
    ∀ text ∈ document.signatures, IsSignature options.maxTypeDepth text := by
  simp only [signatures, List.forall_mem_append, List.forall_mem_map, List.forall_mem_flatMap]
  refine ⟨⟨⟨fun constant hmem => (h.consts constant hmem).type,
    fun typedef hmem => (h.typedefs typedef hmem).type⟩,
    fun struct hmem => (h.structs struct hmem).fields.isSignature,
    fun struct hmem => (h.exceptions struct hmem).fields.isSignature⟩, ?_⟩
  intro service hservice function hfunction
  have hwellFormed := (h.services service hservice).functions function hfunction
  refine ⟨⟨hwellFormed.arguments.isSignature, hwellFormed.throws.isSignature⟩, ?_⟩
  split
  · simp
  · next hvoid =>
    rw [List.forall_mem_singleton]
    exact hwellFormed.returnType.resolve_left hvoid

/-- A type may be written as its signature, with one blank on either side. -/
theorem isTypedefText_signature (type : TypeExpr) (name : String) :
    IsTypedefText type name ("typedef " ++ type.signature ++ " " ++ name).toList := by
  have hne : type.tokens ≠ [] := by cases type <;> simp [TypeExpr.tokens]
  obtain ⟨first, last, htokens⟩ := (List.eq_nil_or_concat type.tokens).resolve_left hne
  rw [List.concat_eq_append] at htokens
  let entries : List (Token × List Char) := first.map (fun token => (token, [])) ++ [(last, [' '])]
  have hentries : entries.map (·.1) = type.tokens := by
    simp [entries, htokens, Function.comp_def]
  have htext : ("typedef " ++ type.signature ++ " " ++ name).toList = renderTokens
      ((.keyword .typedefDef, [' ']) :: (entries ++ [(.identifier name, [])])) := by
    simp [entries, renderTokens, type.toList_signature, htokens, Token.text, Keyword.text,
      List.flatMap_map]
  have hblank : IsSpacing [' '] := .trivia (.blank rfl .nil)
  have hspacing : ∀ entry ∈ (Token.keyword .typedefDef, [' ']) ::
      (entries ++ [(Token.identifier name, [])]), IsSpacing entry.2 := by
    simp only [entries, List.forall_mem_cons, List.forall_mem_append, List.forall_mem_map]
    exact ⟨hblank, ⟨fun _ _ => .trivia .nil, hblank, by simp⟩, .trivia .nil, by simp⟩
  rw [htext]
  exact .intro hentries hspacing (by simp) (by simp [entries])

/-! ### The law -/

/-- However a type of identifiers is written in a typedef, with trivia and doc comments between its
tokens or without, the typedef says the signature of the type. That is the text of the tokens without
any blank, and no other type has it. Each signature in a document can be read again as a type, under
the same options, and comes out as it was. -/
theorem signatures_round_trip (options : ParseOptions) :
    (∀ (type : TypeExpr) (name : String) (text : List Char), type.HasIdentifiers →
      type.depth ≤ options.maxTypeDepth → IsIdentifier name → IsTypedefText type name text →
        parse options (String.ofList text) =
          .ok { Document.empty with typedefs := [⟨name, type.signature, ""⟩] }) ∧
    (∀ type : TypeExpr, type.HasIdentifiers →
      type.signature.toList = type.tokens.flatMap (fun token => token.text.toList) ∧
        (∀ c ∈ type.signature.toList, isBlank c = false) ∧
          ∀ other : TypeExpr, other.HasIdentifiers →
            other.signature = type.signature → other = type) ∧
    ∀ source document, parse options source = .ok document → ∀ text ∈ document.signatures,
      parse options ("typedef " ++ text ++ " X") =
        .ok { Document.empty with typedefs := [⟨"X", text, ""⟩] } := by
  refine ⟨fun type name text htype hdepth hname htext => ?_, fun type htype => ?_,
    fun source document hparse text htext => ?_⟩
  · exact parse_of_isTypedefText htext htype hdepth hname
  · exact ⟨type.toList_signature, type.isBlank_of_mem_signature htype,
      fun other hother hsame => other.signature_injective hother htype hsame⟩
  · obtain ⟨type, htype, hdepth, rfl⟩ := (wellFormed_of_parse_eq_ok hparse).isSignature text htext
    have hname : IsIdentifier "X" :=
      ⟨⟨'X', [], rfl, rfl, by simp⟩, fun k => by cases k <;> decide⟩
    have hread := parse_of_isTypedefText (isTypedefText_signature type "X") htype hdepth hname
    rwa [String.ofList_toList, String.append_assoc] at hread

/-- A map that is written with comments of three kinds, and the signatures of a function. -/
theorem signatures_round_trip_map :
    ∃ type : TypeExpr, type.HasIdentifiers ∧ type.depth ≤ 2 ∧ IsIdentifier "X" ∧
      IsTypedefText type "X" "typedef/**/ map #x\n<K/** d */,list<ж.Б>>\nX".toList ∧
      parse ⟨true, 2⟩ "typedef/**/ map #x\n<K/** d */,list<ж.Б>>\nX" =
        .ok { Document.empty with typedefs := [⟨"X", "map<K,list<ж.Б>>", ""⟩] } ∧
      (∀ other : TypeExpr, other.HasIdentifiers → other.signature = "map<K,list<ж.Б>>" →
        other = type) ∧
      ∃ document, parse ⟨true, 2⟩ "service S{set<T> f(T x)}" = .ok document ∧
        "set<T>" ∈ document.signatures ∧
          parse ⟨true, 2⟩ "typedef set<T> X" =
            .ok { Document.empty with typedefs := [⟨"X", "set<T>", ""⟩] } := by
  have hX : IsIdentifier "X" := ⟨⟨'X', [], rfl, rfl, by simp⟩, fun k => by cases k <;> decide⟩
  have hK : IsIdentifier "K" := ⟨⟨'K', [], rfl, rfl, by simp⟩, fun k => by cases k <;> decide⟩
  have hB : IsIdentifier "ж.Б" :=
    ⟨⟨'ж', ['.', 'Б'], rfl, by decide, List.all_eq_true.1 rfl⟩, fun k => by cases k <;> decide⟩
  have htype : (TypeExpr.map (.named "K") (.list (.named "ж.Б"))).HasIdentifiers := ⟨hK, hB⟩
  have hempty : IsCommentBody [] :=
    (Piece.splitCommentEnd?_eq_some_iff.1 (rfl : Piece.splitCommentEnd? ['*', '/'] = _)).2
  have hbody : IsCommentBody "* d ".toList :=
    (Piece.splitCommentEnd?_eq_some_iff.1 (rfl : Piece.splitCommentEnd? "* d */".toList = _)).2
  have hplain : ¬IsDocComment "/**/".toList := mt (isDocComment_iff hempty).1 (by decide)
  have hfirst : IsSpacing "/**/ ".toList :=
    .trivia (.blockComment (isBlockComment_iff.2 ⟨[], rfl, hempty⟩) hplain (.blank rfl .nil))
  have hline : IsSpacing " #x\n".toList := by
    have hcomment : IsLineComment ['#', 'x'] := ⟨.inl ⟨_, rfl⟩, by simp [isLineEnd]⟩
    exact .trivia (.blank rfl (.lineComment hcomment (by decide : isLineEnd '\n' = true) .nil))
  have hdoc : IsSpacing "/** d */".toList :=
    .docComment .nil ((isDocComment_iff hbody).2 rfl) (.trivia .nil)
  have hblank : IsSpacing "\n".toList := .trivia (.blank rfl .nil)
  have hnone : IsSpacing [] := .trivia .nil
  have htext : IsTypedefText (.map (.named "K") (.list (.named "ж.Б"))) "X"
      "typedef/**/ map #x\n<K/** d */,list<ж.Б>>\nX".toList := by
    let entries : List (Token × List Char) := [(.keyword .mapType, " #x\n".toList),
      (.symbol .leftAngle, []), (.identifier "K", "/** d */".toList), (.symbol .comma, []),
      (.keyword .listType, []), (.symbol .leftAngle, []), (.identifier "ж.Б", []),
      (.symbol .rightAngle, []), (.symbol .rightAngle, "\n".toList)]
    have hspacing : ∀ entry ∈ (Token.keyword .typedefDef, "/**/ ".toList) ::
        (entries ++ [(Token.identifier "X", [])]), IsSpacing entry.2 := by
      simp only [entries, List.cons_append, List.nil_append, List.forall_mem_cons]
      exact ⟨hfirst, hline, hnone, hdoc, hnone, hnone, hnone, hnone, hnone, hblank, hnone, by simp⟩
    exact .intro rfl hspacing (by decide) (by simp [entries])
  have hparse : parse ⟨true, 2⟩ "service S{set<T> f(T x)}" =
      .ok { Document.empty with services :=
        [⟨"S", none, [⟨"f", false, "set<T>", [⟨1, "x", "T", none, false, ""⟩], [], ""⟩], ""⟩] } := by
    decide +kernel
  obtain ⟨hwritten, hsignature, hread⟩ := signatures_round_trip ⟨true, 2⟩
  exact ⟨_, htype, by decide, hX, htext, hwritten _ _ _ htype (by decide) hX htext,
    (hsignature _ htype).2.2, _, hparse, by decide, hread _ _ hparse "set<T>" (by decide)⟩

end ServiceIdl
