import ServiceIdl.Proofs.Parsing.Complaints
import ServiceIdl.Proofs.Parsing.DepthLimit

/-!
# The first fault wins

A reader keeps a token for a later complaint in two places only: the number that may be the index of
a field, and the name of a member of an enum. In both the very next token decides. So an error is
known as soon as the first element behind its token has been read that is no doc comment, and no
text behind this element has an influence on it.
-/

namespace ServiceIdl

/-- The elements of a stream up to the first one that is no doc comment. -/
def lookahead : List Item → List Item
  | [] => []
  | item :: items => if item.isDocComment then item :: lookahead items else [item]

/-- Behind doc comments the lookahead is the element that ends them. -/
theorem lookahead_append_cons {comments : List Item} {item : Item} (rest : List Item)
    (hcomments : ∀ comment ∈ comments, comment.isDocComment = true)
    (hitem : item.isDocComment = false) :
    lookahead (comments ++ item :: rest) = comments ++ [item] := by
  induction comments with
  | nil => simp [lookahead, hitem]
  | cons comment comments ih =>
    obtain ⟨hcomment, hcomments⟩ := List.forall_mem_cons.1 hcomments
    rw [List.cons_append, lookahead, if_pos hcomment, ih hcomments, List.cons_append]

/-! ### The token kept for a complaint -/

variable {limit : Nat} {tokens : List SpannedToken} {t : SpannedToken}

section

variable {occurs occurs' : SpannedToken → Prop}
  (hlast : ∀ last, tokens.getLast? = some last → occurs' last)

include hlast

theorem EnumReader.State.Ascending.of_readBy {state : EnumReader.State}
    (h : state.Ascending occurs) (hread : state.ReadBy tokens) : state.Ascending occurs' := by
  refine ⟨h.numbers, fun enum name span hstate => ?_⟩
  subst hstate
  obtain ⟨before, named, _, _, rfl, hspan, hname, _⟩ := hread
  exact ⟨named, hlast named List.getLast?_concat, hspan, by simp [hname]⟩

theorem FieldListReader.State.Ascending.of_readBy {state : FieldListReader.State}
    (h : state.Ascending occurs) (hread : state.ReadBy tokens) : state.Ascending occurs' := by
  refine ⟨h.numbers, fun number hphase => ?_⟩
  obtain ⟨before, part, _, rfl, _, hpart, _⟩ := hread
  rw [hphase] at hpart
  obtain rfl : part = [number] := hpart
  exact hlast number List.getLast?_concat

theorem StructReader.State.Ascending.of_readBy {state : StructReader.State}
    (h : state.Ascending occurs) (hread : state.ReadBy tokens) : state.Ascending occurs' := by
  cases state with
  | opening name docText => trivial
  | fields name docText list => exact FieldListReader.State.Ascending.of_readBy hlast h hread

theorem ServiceReader.State.Ascending.of_readBy {state : ServiceReader.State}
    (h : state.Ascending occurs) (hread : state.ReadBy tokens) : state.Ascending occurs' := by
  obtain ⟨service, phase⟩ := state
  cases phase with
  | arguments function list | throws function list =>
    exact FieldListReader.State.Ascending.of_readBy hlast h hread
  | _ => trivial

/-- A token that is kept for a complaint about numbers is the last one that has been read. -/
theorem DocumentReader.State.Ascending.of_readBy {state : DocumentReader.State}
    (h : state.Ascending occurs) (hread : state.ReadBy tokens) : state.Ascending occurs' := by
  obtain ⟨document, phase⟩ := state
  cases phase with
  | enum state => exact EnumReader.State.Ascending.of_readBy hlast h hread
  | struct state | exception state => exact StructReader.State.Ascending.of_readBy hlast h hread
  | service state => exact ServiceReader.State.Ascending.of_readBy hlast h hread
  | _ => trivial

end

/-- An error stands at the token that is read, or at the last one in front of it. -/
theorem DocumentReader.span_of_read_eq_error {state : State} {pending : String} {e : ParseError}
    (hnumbers : state.Ascending fun _ => True) (hread : state.ReadBy tokens)
    (h : (read limit state t).run pending = .error e) :
    t.span = e.span ∨ ∃ last, tokens.getLast? = some last ∧ last.span = e.span := by
  have hkept : state.Ascending fun kept => kept = t ∨ tokens.getLast? = some kept :=
    hnumbers.of_readBy (fun _ => .inr) hread
  have hensures : (read limit state t).Ensures _ (ParseError.Justified limit _) :=
    ensures_read hkept (.inl rfl)
  have hjustified := hensures pending
  rw [h] at hjustified
  obtain ⟨kept, rfl | hlast, hspan⟩ := hjustified.exists_span_eq
  · exact .inl hspan
  · exact .inr ⟨kept, hlast, hspan⟩

/-- Behind the last token that is no doc comment there are doc comments only. -/
theorem exists_split_of_getLast?_substantive {last : SpannedToken}
    (h : (substantive tokens).getLast? = some last) :
    ∃ before comments, tokens = before ++ last :: comments ∧ last.token.isDocComment = false ∧
      ∀ comment ∈ comments, comment.token.isDocComment = true := by
  obtain ⟨front, hfront⟩ := List.getLast?_eq_some_iff.1 h
  obtain ⟨before, back, rfl, _, hback⟩ := List.filter_eq_append_iff.1 hfront
  obtain ⟨between, comments, rfl, _, hdoc, hcomments⟩ := List.filter_eq_cons_iff.1 hback
  refine ⟨before ++ between, comments, (List.append_assoc ..).symm, by simpa using hdoc, ?_⟩
  simpa using List.filter_eq_nil_iff.1 hcomments

/-! ### Streams -/

variable {options : ParseOptions} {source : String} {e : ParseError}

/-- An error other than a lexical one stands at a token, and it is found before the lookahead behind
this token is exceeded, whatever follows. -/
theorem exists_fault_of_parse_eq_error (h : parse options source = .error e)
    (hfault : ∀ fault, e.fault ≠ .lexical fault) :
    ∃ before t behind, (TokenStream.ofSource options source).items = before ++ .ok t :: behind ∧
      t.token.isDocComment = false ∧ t.span = e.span ∧
        ∀ rest, (readItems options.maxTypeDepth DocumentReader.start
          (before ++ .ok t :: lookahead behind ++ rest)).run "" = .error e := by
  obtain ⟨tokens, item, behind, next, left, hitems, hrun, hfails⟩ :=
    readItems_eq_error_split (parse_eq_error_iff.1 h)
  -- Whatever follows, the element at which reading fails is reached, and reading fails.
  have hknown (rest : List Item) : (readItems options.maxTypeDepth DocumentReader.start
      (tokens.map .ok ++ item :: rest)).run "" = .error e := by
    rw [run_readItems_append hrun, readItems, List.foldlM_cons, StateT.run_bind, hfails]
    rfl
  have hnumbers : next.Ascending fun _ => True :=
    ascending_of_readItems_eq_ok (fun _ _ _ => trivial) hrun
  have hread := DocumentReader.readBy_of_readItems_eq_ok hrun
  rcases of_readItem_eq_error hfails with ⟨error, _, rfl⟩ | ⟨t, rfl, hdoc, hrefused⟩
  · exact absurd rfl (hfault error.fault)
  · rcases DocumentReader.span_of_read_eq_error hnumbers hread hrefused with
      hspan | ⟨last, hlast, hspan⟩
    · refine ⟨tokens.map .ok, t, behind, hitems, hdoc, hspan, fun rest => ?_⟩
      rw [List.append_assoc, List.cons_append]
      exact hknown _
    · obtain ⟨before, comments, rfl, hdoc', hcomments⟩ :=
        exists_split_of_getLast?_substantive hlast
      have hlookahead : lookahead (comments.map .ok ++ .ok t :: behind) =
          comments.map .ok ++ [.ok t] :=
        lookahead_append_cons behind (List.forall_mem_map.2 hcomments) hdoc
      refine ⟨before.map .ok, last, comments.map .ok ++ .ok t :: behind, ?_, hdoc', hspan,
        fun rest => ?_⟩
      · rw [hitems]
        simp
      · rw [hlookahead]
        simpa using hknown rest

section

variable {before before' behind behind' : List Item} {item item' : Item}
  (hitems : (TokenStream.ofSource options source).items = before ++ item :: behind)
  (hitems' : (TokenStream.ofSource options source).items = before' ++ item' :: behind')
  (hspan : item.span = item'.span)

include hitems hitems' hspan

/-- Of two elements at one place, none stands in front of the other. -/
theorem TokenStream.length_le_of_span_eq : before'.length ≤ before.length := by
  refine Nat.not_lt.1 fun hlength => ?_
  have hle : (before ++ [item]).length ≤ before'.length := by
    rw [List.length_append]
    exact hlength
  have hbefore : before ++ [item] <+: (ofSource options source).items := ⟨behind, by simp [hitems]⟩
  have hbefore' : before' <+: (ofSource options source).items := ⟨item' :: behind', hitems'.symm⟩
  obtain ⟨between, rfl⟩ := List.prefix_of_prefix_length_le hbefore hbefore' hle
  have hordered := pairwise_items options source
  rw [hitems'] at hordered
  have hless := (List.pairwise_append.1 hordered).2.2 item (by simp) item' (by simp)
  rw [hspan] at hless
  exact Nat.lt_irrefl _ hless

/-- Two elements of a stream that stand at one place are the same element. -/
theorem TokenStream.split_unique : before = before' ∧ item = item' ∧ behind = behind' := by
  have hlength : before.length = before'.length :=
    Nat.le_antisymm (length_le_of_span_eq hitems' hitems hspan.symm)
      (length_le_of_span_eq hitems hitems' hspan)
  obtain ⟨rfl, hcons⟩ := List.append_inj (hitems.symm.trans hitems') hlength
  obtain ⟨rfl, rfl⟩ := List.cons.inj hcons
  exact ⟨rfl, rfl, rfl⟩

end

/-- The first fault wins. An error other than a lexical one stands at a token, and any text whose
stream agrees up to the first element behind this token that is no doc comment is refused for the
same error. -/
theorem text_behind_fault_is_inert (h : parse options source = .error e)
    (hfault : ∀ fault, e.fault ≠ .lexical fault) :
    (∃ before t behind, (TokenStream.ofSource options source).items = before ++ .ok t :: behind ∧
      t.token.isDocComment = false ∧ t.span = e.span) ∧
    ∀ before t behind, (TokenStream.ofSource options source).items = before ++ .ok t :: behind →
      t.span = e.span → ∀ other,
        before ++ .ok t :: lookahead behind <+: (TokenStream.ofSource options other).items →
          parse options other = .error e := by
  obtain ⟨before, t, behind, hitems, hdoc, hspan, hfound⟩ := exists_fault_of_parse_eq_error h hfault
  refine ⟨⟨before, t, behind, hitems, hdoc, hspan⟩,
    fun before' t' behind' hitems' hspan' other hprefix => ?_⟩
  obtain ⟨rfl, ht, rfl⟩ := TokenStream.split_unique hitems' hitems (hspan'.trans hspan.symm)
  obtain ⟨rest, hrest⟩ := hprefix
  rw [ht] at hrest
  rw [parse_eq_error_iff, ← hrest]
  exact hfound rest

/-- An index out of order, with a doc comment in front of its colon. Behind the colon there is a
closing brace and an open string, or the rest of the field. -/
theorem text_behind_fault_is_inert_open_string :
    parse ⟨true, 0⟩ "struct S{2:T a 1/** c */:}\"" =
        .error ⟨.indexOutOfOrder .field 1 3, ⟨⟨1, 16, 15⟩, 16⟩⟩ ∧
      (∃ before t behind,
        (TokenStream.ofSource ⟨true, 0⟩ "struct S{2:T a 1/** c */:}\"").items =
            before ++ .ok t :: behind ∧
          t.span = ⟨⟨1, 16, 15⟩, 16⟩ ∧ before ++ .ok t :: lookahead behind <+:
            (TokenStream.ofSource ⟨true, 0⟩ "struct S{2:T a 1/** c */:T b}").items) ∧
      parse ⟨true, 0⟩ "struct S{2:T a 1/** c */:T b}" =
        .error ⟨.indexOutOfOrder .field 1 3, ⟨⟨1, 16, 15⟩, 16⟩⟩ := by
  have hparse : parse ⟨true, 0⟩ "struct S{2:T a 1/** c */:}\"" =
      .error ⟨.indexOutOfOrder .field 1 3, ⟨⟨1, 16, 15⟩, 16⟩⟩ := by decide +kernel
  generalize hitems : (TokenStream.ofSource ⟨true, 0⟩ "struct S{2:T a 1/** c */:}\"").items =
    items
  have hsplit : items = items.take 7 ++ .ok ⟨.number "1", ⟨⟨1, 16, 15⟩, 16⟩⟩ :: items.drop 8 := by
    rw [← hitems]
    decide +kernel
  have hprefix : items.take 7 ++
      .ok ⟨.number "1", ⟨⟨1, 16, 15⟩, 16⟩⟩ :: lookahead (items.drop 8) <+:
      (TokenStream.ofSource ⟨true, 0⟩ "struct S{2:T a 1/** c */:T b}").items := by
    rw [← hitems]
    decide +kernel
  exact ⟨hparse, ⟨_, _, _, hsplit, rfl, hprefix⟩,
    (text_behind_fault_is_inert hparse (by simp)).2 _ _ _ (hitems.trans hsplit) rfl _ hprefix⟩

end ServiceIdl
