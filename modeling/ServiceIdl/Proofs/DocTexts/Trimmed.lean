import ServiceIdl.Proofs.Parsing.Transitions
import ServiceIdl.Proofs.WellFormed.Texts

/-!
# Doc texts have no blank space around them

What a doc comment says starts and ends with a character that is not blank, unless it says nothing,
and so does what several comments say one behind the other. Readers make no doc texts of their own:
they move those that are pending, or drop them. There is no need to look at each reader for this,
because reading commutes with every change of layout. The change of layout that exchanges all texts
with blank space around them leaves a state as it is exactly if all doc texts in the state are
trimmed, so this property is kept by whatever is read.
-/

namespace ServiceIdl

/-- A text starts and ends with a character that is not blank, or it is empty. -/
def IsTrimmed (text : String) : Prop :=
  (∀ c ∈ text.toList.head?, isBlank c = false) ∧ ∀ c ∈ text.toList.getLast?, isBlank c = false

instance : DecidablePred IsTrimmed := fun text =>
  decidable_of_iff ((text.toList.head?.all (!isBlank ·) && text.toList.getLast?.all (!isBlank ·)) =
    true) (by simp [IsTrimmed, Option.all_eq_true])

theorem IsTrimmed.append {first second : String} (h : IsTrimmed first) (h' : IsTrimmed second) :
    IsTrimmed (first ++ second) := by
  rw [IsTrimmed, String.toList_append, List.head?_append, List.getLast?_append]
  constructor
  · intro c hc
    rcases Option.or_eq_some_iff.1 hc with hfirst | ⟨_, hsecond⟩
    · exact h.1 c hfirst
    · exact h'.1 c hsecond
  · intro c hc
    rcases Option.or_eq_some_iff.1 hc with hsecond | ⟨_, hfirst⟩
    · exact h'.2 c hsecond
    · exact h.2 c hfirst

/-- What a comment says is trimmed, whatever the comment is. -/
theorem isTrimmed_docBody (comment : String) : IsTrimmed (docBody comment) := by
  rw [IsTrimmed, docBody, String.toList_ofList]
  exact ⟨fun c hc => eq_false_of_head?_trim hc, fun c hc => eq_false_of_getLast?_trim hc⟩

/-! ### Doc comments -/

/-- The delimiters of a doc comment do not overlap. -/
theorem IsDocComment.exists_body {text : List Char} (h : IsDocComment text) :
    ∃ body, text = ['/', '*', '*'] ++ (body ++ ['*', '/']) := by
  obtain ⟨inner, rfl, hinner⟩ := isBlockComment_iff.1 h.toIsBlockComment
  obtain ⟨body, rfl⟩ := List.head?_eq_some_iff.1 ((isDocComment_iff hinner).1 h)
  exact ⟨body, rfl⟩

theorem stripDelimiters_append (body : List Char) :
    stripDelimiters (['/', '*', '*'] ++ (body ++ ['*', '/'])) = body := by
  have hsuffix : ['*', '/'].isSuffixOf (body ++ ['*', '/']) = true :=
    List.isSuffixOf_iff_suffix.2 (List.suffix_append body _)
  simp [stripDelimiters, hsuffix]

/-- A doc comment in a source text is its delimiters and what is taken from between them. -/
theorem exists_body_of_mem_ofSource {options : ParseOptions} {source : String} {t : SpannedToken}
    (ht : t ∈ (TokenStream.ofSource options source).tokens) {comment : String}
    (hcomment : t.token = .docComment comment) :
    ∃ body, comment.toList = ['/', '*', '*'] ++ (body ++ ['*', '/']) ∧
      stripDelimiters comment.toList = body := by
  have hlexeme := TokenStream.isLexeme_of_mem_ofSource ht
  rw [hcomment] at hlexeme
  obtain ⟨body, hbody⟩ := IsDocComment.exists_body hlexeme
  exact ⟨body, hbody, hbody ▸ stripDelimiters_append body⟩

/-! ### All doc texts of a document -/

def Struct.docTexts (struct : Struct) : List String :=
  struct.docText :: struct.fields.map (·.docText)

def Function.docTexts (function : Function) : List String :=
  function.docText :: (function.arguments ++ function.throws).map (·.docText)

def Service.docTexts (service : Service) : List String :=
  service.docText :: service.functions.flatMap Function.docTexts

/-- The doc texts of a document and of all nodes in it. -/
def Document.docTexts (document : Document) : List String :=
  document.docText ::
    (document.consts.map (·.docText) ++ document.typedefs.map (·.docText) ++
      document.enums.map (·.docText) ++ (document.structs ++ document.exceptions).flatMap
        Struct.docTexts ++ document.services.flatMap Service.docTexts)

section

variable (m : LayoutMap)

theorem Struct.docTexts_mapLayout (struct : Struct) :
    (struct.mapLayout m).docTexts = struct.docTexts.map m.doc := by
  simp [docTexts, mapLayout, Field.mapLayout]

theorem Function.docTexts_mapLayout (function : Function) :
    (function.mapLayout m).docTexts = function.docTexts.map m.doc := by
  simp [docTexts, mapLayout, Field.mapLayout, Function.comp_def]

theorem Service.docTexts_mapLayout (service : Service) :
    (service.mapLayout m).docTexts = service.docTexts.map m.doc := by
  simp [docTexts, mapLayout, Function.docTexts_mapLayout, List.flatMap_map, List.map_flatMap]

/-- A change of layout changes the doc texts one by one. -/
theorem Document.docTexts_mapLayout (document : Document) :
    (document.mapLayout m).docTexts = document.docTexts.map m.doc := by
  simp [docTexts, mapLayout, Constant.mapLayout, Typedef.mapLayout, Enum.mapLayout,
    Struct.docTexts_mapLayout, Service.docTexts_mapLayout, List.flatMap_map, List.map_flatMap,
    Function.comp_def]

end

/-! ### Reading -/

/-- Texts that are not trimmed are exchanged for one that is. -/
def LayoutMap.trimmed : LayoutMap where
  span := id
  doc text := if IsTrimmed text then text else "-"
  doc_empty := by decide
  eq_empty_of_doc_eq_empty := by
    intro text h
    split at h
    · exact .inl h
    · exact absurd h (by decide)

theorem LayoutMap.trimmed_doc_eq_iff {text : String} :
    LayoutMap.trimmed.doc text = text ↔ IsTrimmed text := by
  constructor
  · intro h
    by_contra hnot
    have hdoc : LayoutMap.trimmed.doc text = "-" := if_neg hnot
    rw [← h, hdoc] at hnot
    exact hnot (by decide)
  · exact fun h => if_pos h

theorem Document.isTrimmed_of_mem_docTexts {document : Document}
    (h : document.mapLayout .trimmed = document) {text : String} (htext : text ∈ document.docTexts) :
    IsTrimmed text := by
  have hdocTexts := document.docTexts_mapLayout .trimmed
  rw [h] at hdocTexts
  have hsame : document.docTexts.map id = document.docTexts.map LayoutMap.trimmed.doc := by
    rwa [List.map_id]
  exact LayoutMap.trimmed_doc_eq_iff.1 (List.map_inj_left.1 hsame text htext).symm

section

variable {limit : Nat} {state next : DocumentReader.State} {pending left : String}

/-- One element of a stream brings no text into a state or among the pending ones that is not
trimmed. -/
theorem isTrimmed_of_readItem {item : Item} (hstate : state.mapLayout .trimmed = state)
    (hpending : IsTrimmed pending) (h : (readItem limit state item).run pending = .ok (next, left)) :
    next.mapLayout .trimmed = next ∧ IsTrimmed left := by
  cases item with
  | error error => cases h
  | ok t =>
    cases hdoc : t.token.isDocComment with
    | true =>
      obtain ⟨comment, hcomment⟩ := Token.isDocComment_iff.1 hdoc
      rw [readItem_of_docComment hcomment] at h
      cases h
      exact ⟨hstate, hpending.append (isTrimmed_docBody comment)⟩
    | false =>
      rw [readItem_of_isDocComment_eq_false hdoc] at h
      -- The change of layout keeps the state, the token and what is pending, and so it keeps the
      -- outcome.
      have hrelates := DocumentReader.relates_read .trimmed limit t state pending
      have ht : t.mapLayout .trimmed = t := rfl
      rw [hstate, ht, LayoutMap.trimmed_doc_eq_iff.2 hpending, h] at hrelates
      obtain ⟨hnext, hleft⟩ := Prod.mk.inj (Except.ok.inj hrelates)
      exact ⟨hnext.symm, LayoutMap.trimmed_doc_eq_iff.1 hleft.symm⟩

/-- However far a stream is read, all doc texts are trimmed. -/
theorem isTrimmed_of_readItems {items : List Item} (hstate : state.mapLayout .trimmed = state)
    (hpending : IsTrimmed pending)
    (h : (readItems limit state items).run pending = .ok (next, left)) :
    next.mapLayout .trimmed = next ∧ IsTrimmed left := by
  induction items generalizing state pending with
  | nil =>
    cases h
    exact ⟨hstate, hpending⟩
  | cons item items ih =>
    rw [readItems, List.foldlM_cons] at h
    obtain ⟨_, hitem, hitems⟩ := Reading.of_run_bind_eq_ok h
    obtain ⟨hbetween, hpending⟩ := isTrimmed_of_readItem hstate hpending hitem
    exact ih hbetween hpending hitems

end

/-- In every doc comment of a text both delimiters stand, one behind the other. However far the text
is read, the doc text that is pending is trimmed, and so is every doc text of its document. -/
theorem doc_texts_are_trimmed (options : ParseOptions) (source : String) :
    (∀ t ∈ (TokenStream.ofSource options source).tokens, ∀ comment, t.token = .docComment comment →
      ∃ body, comment.toList = ['/', '*', '*'] ++ (body ++ ['*', '/']) ∧
        stripDelimiters comment.toList = body) ∧
    (∀ first rest state left, (TokenStream.ofSource options source).items = first ++ rest →
      (readItems options.maxTypeDepth DocumentReader.start first).run "" = .ok (state, left) →
        IsTrimmed left) ∧
    ∀ document, parse options source = .ok document →
      ∀ text ∈ document.docTexts, IsTrimmed text := by
  refine ⟨fun t ht comment hcomment => exists_body_of_mem_ofSource ht hcomment,
    fun first rest state left _ hrun => ?_, fun document hparse text htext => ?_⟩
  · exact (isTrimmed_of_readItems rfl (by decide) hrun).2
  · obtain ⟨last, left, hrun, rfl⟩ := parse_eq_ok_iff.1 hparse
    have hlast := (isTrimmed_of_readItems rfl (by decide) hrun).1
    exact Document.isTrimmed_of_mem_docTexts
      (congrArg DocumentReader.State.document hlast) htext

/-- Comments that say nothing in front of others, and a line break at the end of one. -/
theorem doc_texts_are_trimmed_blank_comments :
    let source := "/** \t*//** a */struct/**b\r\n*/ S{/***//** x */1:T a}"
    let stream := TokenStream.ofSource ⟨false, 64⟩ source
    (∃ t ∈ stream.tokens, t.token = .docComment "/***/" ∧
      ∃ body, "/***/".toList = ['/', '*', '*'] ++ (body ++ ['*', '/']) ∧
        stripDelimiters "/***/".toList = body) ∧
    (∃ state left, (readItems 64 DocumentReader.start (stream.items.take 2)).run "" =
      .ok (state, left) ∧ left = "a" ∧ IsTrimmed left) ∧
    ∃ document, parse ⟨false, 64⟩ source = .ok document ∧
      document.docTexts = ["", "ab", "x"] ∧ ∀ text ∈ document.docTexts, IsTrimmed text := by
  intro source stream
  obtain ⟨hcomments, hpending, hdocument⟩ := doc_texts_are_trimmed ⟨false, 64⟩ source
  have htoken : ⟨.docComment "/***/", ⟨⟨2, 6, 32⟩, 37⟩⟩ ∈ stream.tokens := by decide +kernel
  have hrun : (readItems 64 DocumentReader.start (stream.items.take 2)).run "" =
      .ok (⟨.empty, .header⟩, "a") := by decide +kernel
  have hparse : parse ⟨false, 64⟩ source = .ok { Document.empty with
      structs := [⟨"S", [⟨1, "a", "T", none, false, "x"⟩], "ab"⟩] } := by decide +kernel
  exact ⟨⟨_, htoken, rfl, hcomments _ htoken _ rfl⟩,
    ⟨_, _, hrun, rfl, hpending _ _ _ _ (List.take_append_drop 2 stream.items).symm hrun⟩,
    _, hparse, rfl, hdocument _ hparse⟩

end ServiceIdl
