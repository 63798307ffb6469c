import ServiceIdl.Proofs.Parsing.Concatenation
import ServiceIdl.Proofs.Parsing.Origins
import ServiceIdl.Proofs.Parsing.ViablePrefix
import ServiceIdl.Proofs.Reading.OpenType

/-!
# The depth limit only rejects

Two readings of one text under different limits go the same way up to the first container that the
lower limit forbids. There the one stops, and the other opens the container, so that whatever it may
still find amiss stands behind it.
-/

namespace ServiceIdl

/-- The tokens end with what has been read of a type, and in front of that all angles are closed. -/
def EndsWithType (tokens : List Token) (type : TypeReader.State) : Prop :=
  ∃ before opened, tokens = before ++ opened ∧ AnglesMatch before ∧ type.ReadBy opened

/-- The tokens end in front of an argument that stands inside exactly `depth` containers. They are
containers of one type, and in front of that type all angles are closed. -/
def EndsInContainers (tokens : List Token) (depth : Nat) : Prop :=
  ∃ before holes, tokens = before ++ TypeReader.openTokens holes ∧ AnglesMatch before ∧
    holes.length = depth

section

variable {β : Type} {type : TypeReader.State} {t : SpannedToken} {behind : β → TypeReader.State}
  {outcome : Nat → Except ParseError β} {limit : Nat} {result : β}

theorem TypeUse.endsWithType (h : TypeUse type t behind outcome) {tokens : List Token}
    (htokens : EndsWithType tokens type) (hresult : outcome limit = .ok result) :
    EndsWithType (tokens ++ [t.token]) (behind result) := by
  obtain ⟨before, opened, rfl, hbefore, hopened⟩ := htokens
  cases h with
  | inside next hread hbehind =>
    rw [hread] at hresult
    have hstep : Ensures _ _ (TypeReader.read limit type t) :=
      TypeReader.ensures_read_readBehind hopened
    cases hone : TypeReader.read limit type t with
    | error e =>
      rw [hone] at hresult
      cases hresult
    | ok step =>
      rw [hone] at hresult hstep
      obtain rfl : next step = result := Except.ok.inj hresult
      rw [hbehind]
      cases step with
      | more state => exact ⟨before, _, List.append_assoc .., hbefore, hstep⟩
      | done type =>
        have hopened : opened ++ [t.token] = type.tokens := hstep
        refine ⟨before ++ opened ++ [t.token], [], (List.append_nil _).symm, ?_, rfl⟩
        rw [List.append_assoc, hopened]
        exact hbefore.append type.anglesMatch_tokens
  | outside fixed hread htype hfixed =>
    obtain rfl : fixed = .ok result := (hread limit).symm.trans hresult
    obtain ⟨hbehind, hangle⟩ := hfixed
    subst htype
    obtain rfl : opened = [] := hopened
    rw [hbehind, List.append_nil]
    exact ⟨before ++ [t.token], [], (List.append_nil _).symm,
      hbefore.append (anglesMatch_singleton hangle), rfl⟩

theorem TypeUse.length_holes (h : TypeUse type t behind outcome) (hlimit : type.holes.length ≤ limit)
    (hresult : outcome limit = .ok result) : (behind result).holes.length ≤ limit := by
  cases h with
  | inside next hread hbehind =>
    rw [hread] at hresult
    have hstep := TypeReader.ensures_read_holes (t := t) hlimit
    cases hone : TypeReader.read limit type t with
    | error e =>
      rw [hone] at hresult
      cases hresult
    | ok step =>
      rw [hone] at hresult hstep
      obtain rfl : next step = result := Except.ok.inj hresult
      rw [hbehind]
      cases step with
      | more state => exact hstep
      | done type => exact Nat.zero_le _
  | outside fixed hread htype hfixed =>
    obtain rfl : fixed = .ok result := (hread limit).symm.trans hresult
    rw [hfixed.1]
    exact Nat.zero_le _

end

/-! ### Elements and streams -/

variable {limit limit' : Nat} {state next : DocumentReader.State} {pending left : String}

/-- An element of a stream is read alike under all limits, or it opens a container, and the limit
decides whether it may. -/
theorem readItem_limited (state : DocumentReader.State) (item : Item) (pending : String) :
    (∃ fixed, (∀ limit, (readItem limit state item).run pending = fixed) ∧
        Ensures (fun _ => True) ParseError.IsShallow fixed) ∨
      ∃ t hole holes result, item = .ok t ∧ state.openType = .operand holes ∧
        t.token.isDocComment = false ∧ TypeReader.Hole.ofToken? t.token = some hole ∧
        result.1.openType = .opening hole holes ∧
        ∀ limit, (readItem limit state item).run pending =
          if holes.length < limit then .ok result else .error ⟨.typeTooDeep limit, t.span⟩ := by
  cases item with
  | error error =>
    refine .inl ⟨.error (.ofLex error), fun _ => rfl, ?_⟩
    simp [Ensures, ParseError.IsShallow, ParseError.ofLex]
  | ok t =>
    cases hdoc : t.token.isDocComment with
    | true =>
      obtain ⟨comment, hcomment⟩ := Token.isDocComment_iff.1 hdoc
      refine .inl ⟨.ok (state, pending ++ docBody comment), fun limit => ?_, trivial⟩
      rw [readItem_of_docComment hcomment]
      rfl
    | false =>
      simp only [readItem_of_isDocComment_eq_false hdoc]
      rcases (DocumentReader.typeUse_read state pending).limited with
        hfixed | ⟨hole, holes, result, htype, hhole, hbehind, hread⟩
      · exact .inl hfixed
      · exact .inr ⟨t, hole, holes, result, rfl, htype, hdoc, hhole, hbehind, hread⟩

/-- What is read under a limit is read under a greater one. -/
theorem readItem_of_le_of_eq_ok (hle : limit ≤ limit') {item : Item}
    {result : DocumentReader.State × String}
    (h : (readItem limit state item).run pending = .ok result) :
    (readItem limit' state item).run pending = .ok result := by
  rcases readItem_limited state item pending with
    ⟨fixed, hread, _⟩ | ⟨t, hole, holes, result', _, _, _, _, _, hread⟩
  · rw [hread] at h ⊢
    exact h
  · rw [hread] at h ⊢
    split at h
    · next hroom => rw [if_pos (Nat.lt_of_lt_of_le hroom hle), h]
    · cases h

theorem readItems_of_le_of_eq_ok (hle : limit ≤ limit') {items : List Item}
    {result : DocumentReader.State × String}
    (h : (readItems limit state items).run pending = .ok result) :
    (readItems limit' state items).run pending = .ok result := by
  induction items generalizing state pending with
  | nil => exact h
  | cons item items ih =>
    rw [readItems, List.foldlM_cons] at h ⊢
    obtain ⟨between, hitem, hitems⟩ := Reading.of_run_bind_eq_ok h
    rw [StateT.run_bind, readItem_of_le_of_eq_ok hle hitem]
    exact ih hitems

/-- However far a stream is read, the tokens end with what has been read of a type. -/
theorem endsWithType_of_readItems_eq_ok {before : List Token} {tokens : List SpannedToken}
    (hbefore : EndsWithType before state.openType)
    (h : (readItems limit state (tokens.map .ok)).run pending = .ok (next, left)) :
    EndsWithType (before ++ sentence tokens) next.openType := by
  have hstart : EndsWithType (before ++ ([] : List SpannedToken).map (·.token)) state.openType := by
    rwa [List.map_nil, List.append_nil]
  rw [← map_token_substantive]
  refine of_readItems_eq_ok
    (fun read state => EndsWithType (before ++ read.map (·.token)) state.openType)
    (fun {read t state pending next left} hread hitem => ?_) hstart h
  rw [List.map_append, ← List.append_assoc]
  exact (DocumentReader.typeUse_read state pending).endsWithType hread hitem

/-- However far a stream is read, no more containers are open than the limit allows. -/
theorem length_holes_of_readItems_eq_ok {items : List Item}
    (hlimit : state.openType.holes.length ≤ limit)
    (h : (readItems limit state items).run pending = .ok (next, left)) :
    next.openType.holes.length ≤ limit := by
  induction items generalizing state pending with
  | nil =>
    cases h
    exact hlimit
  | cons item items ih =>
    rw [readItems, List.foldlM_cons] at h
    obtain ⟨⟨between, pending'⟩, hitem, hitems⟩ := Reading.of_run_bind_eq_ok h
    obtain ⟨t, _, rfl | ⟨_, hread⟩⟩ := of_readItem_eq_ok hitem
    · exact ih hlimit hitems
    · exact ih ((DocumentReader.typeUse_read state pending).length_holes hlimit hread) hitems

/-! ### The first container too many -/

/-- A reading that fails for a container too many fails at that container, under its own limit. A
greater limit lets the container be opened. -/
theorem of_readItem_eq_typeTooDeep {item : Item} {depth : Nat} {span : Span}
    (h : (readItem limit state item).run pending = .error ⟨.typeTooDeep depth, span⟩) :
    depth = limit ∧ ∃ t hole holes result, item = .ok t ∧ t.span = span ∧
      TypeReader.Hole.ofToken? t.token = some hole ∧ t.token.isDocComment = false ∧
      state.openType = .operand holes ∧ limit ≤ holes.length ∧
      result.1.openType = .opening hole holes ∧
      ∀ limit', holes.length < limit' → (readItem limit' state item).run pending = .ok result := by
  rcases readItem_limited state item pending with
    ⟨fixed, hread, hshallow⟩ | ⟨t, hole, holes, result, hitem, htype, hdoc, hhole, hbehind, hread⟩
  · obtain rfl : fixed = .error _ := (hread limit).symm.trans h
    exact absurd rfl (hshallow depth)
  · rw [hread] at h
    split at h
    · cases h
    · next hroom =>
      cases h
      refine ⟨rfl, t, hole, holes, result, hitem, rfl, hhole, hdoc, htype, Nat.not_lt.1 hroom,
        hbehind, fun limit' hless => ?_⟩
      rw [hread, if_pos hless]

theorem readItem_of_isShallow {item : Item} {e : ParseError} (hshallow : e.IsShallow)
    (h : (readItem limit state item).run pending = .error e) :
    (readItem limit' state item).run pending = .error e := by
  rcases readItem_limited state item pending with
    ⟨fixed, hread, _⟩ | ⟨t, hole, holes, result, _, _, _, _, _, hread⟩
  · rw [hread] at h ⊢
    exact h
  · rw [hread] at h
    split at h
    · cases h
    · cases h
      exact absurd rfl (hshallow limit)

/-- Behind a stretch that is read, reading fails as the reading of the rest does. -/
theorem run_readItems_append {first second : List Item}
    (hfirst : (readItems limit state first).run pending = .ok (next, left)) :
    (readItems limit state (first ++ second)).run pending =
      (readItems limit next second).run left := by
  rw [readItems_append, StateT.run_bind, hfirst]
  rfl

theorem readItems_of_le_of_isShallow (hle : limit ≤ limit') {items : List Item} {e : ParseError}
    (hshallow : e.IsShallow) (h : (readItems limit state items).run pending = .error e) :
    (readItems limit' state items).run pending = .error e := by
  obtain ⟨tokens, item, behind, next, left, rfl, hfirst, hfails⟩ := readItems_eq_error_split h
  rw [run_readItems_append (readItems_of_le_of_eq_ok hle hfirst), readItems, List.foldlM_cons,
    StateT.run_bind, readItem_of_isShallow hshallow hfails]
  rfl

/-! ### What stands behind a container -/

theorem FieldListReader.State.Ascending.of_openType_ne {occurs occurs' : SpannedToken → Prop}
    {state : FieldListReader.State} (h : state.Ascending occurs)
    (htype : state.openType ≠ TypeReader.start) : state.Ascending occurs' := by
  refine ⟨h.numbers, fun number hphase => absurd ?_ htype⟩
  simp only [State.openType, hphase]

/-- While a type is being read, no token is kept for a complaint about numbers. -/
theorem DocumentReader.State.Ascending.of_openType_ne {occurs occurs' : SpannedToken → Prop}
    (h : state.Ascending occurs) (htype : state.openType ≠ TypeReader.start) :
    state.Ascending occurs' := by
  obtain ⟨document, phase⟩ := state
  cases phase with
  | enum state => exact absurd rfl htype
  | struct state | exception state =>
    cases state with
    | opening name docText => trivial
    | fields name docText list => exact FieldListReader.State.Ascending.of_openType_ne h htype
  | service state =>
    obtain ⟨service, phase⟩ := state
    cases phase with
    | arguments function list | throws function list =>
      exact FieldListReader.State.Ascending.of_openType_ne h htype
    | _ => trivial
  | _ => trivial

/-- The elements of a stream stand in order. -/
theorem TokenStream.pairwise_items (options : ParseOptions) (source : String) :
    (ofSource options source).items.Pairwise fun item next =>
      item.span.start.offset < next.span.start.offset := by
  have htiles := tiles_ofSource options source
  refine List.pairwise_append.2 ⟨?_, List.pairwise_singleton _ _, ?_⟩
  · refine List.pairwise_map.2 (htiles.ascending.imp_of_mem fun ht _ hstop => ?_)
    exact Nat.lt_of_lt_of_le (htiles.standsIn _ ht).nonempty hstop
  · rintro _ hitem _ hending
    obtain ⟨t, ht, rfl⟩ := List.mem_map.1 hitem
    obtain rfl := List.mem_singleton.1 hending
    have hspan : (ofSource options source).ending.item.span =
        (ofSource options source).ending.span := by
      cases (ofSource options source).ending <;> rfl
    rw [hspan]
    exact lt_start_ending ht

/-- In a state that keeps no older token, reading fails at an element of what is read. -/
theorem exists_item_of_readItems_eq_error {items : List Item} {e : ParseError}
    (hstate : state.Ascending fun t => .ok t ∈ items)
    (h : (readItems limit state items).run pending = .error e) :
    ∃ item ∈ items, item.span = e.span := by
  have hread := ensures_readItems_ascending limit (fun t ht _ => ht) hstate pending
  rw [h] at hread
  rcases hread with ⟨error, hmem, rfl⟩ | hjustified
  · exact ⟨.error error, hmem, rfl⟩
  · obtain ⟨t, hmem, hspan⟩ := hjustified.exists_span_eq
    exact ⟨.ok t, hmem, hspan⟩

/-- Behind a container that is opened, reading fails at an element behind the container. -/
theorem exists_item_behind_container {tokens : List SpannedToken} {t : SpannedToken}
    {behind : List Item} {hole : TypeReader.Hole} {holes : List TypeReader.Hole}
    {result : DocumentReader.State × String} {e : ParseError}
    (hfirst : (readItems limit DocumentReader.start (tokens.map .ok)).run "" = .ok (next, left))
    (hdoc : t.token.isDocComment = false)
    (ht : (readItem limit next (.ok t)).run left = .ok result)
    (htype : result.1.openType = .opening hole holes)
    (h : (readItems limit DocumentReader.start (tokens.map .ok ++ .ok t :: behind)).run "" =
      .error e) :
    ∃ item ∈ behind, item.span = e.span := by
  have hnext : next.Ascending fun _ => True :=
    ascending_of_readItems_eq_ok (fun _ _ _ => trivial) hfirst
  rw [run_readItems_append hfirst, readItems, List.foldlM_cons, StateT.run_bind, ht] at h
  rw [readItem_of_isDocComment_eq_false hdoc] at ht
  have hread : (DocumentReader.read limit next t).Ensures _ _ :=
    DocumentReader.ensures_read hnext trivial
  have hresult := hread left
  rw [ht] at hresult
  have hopening : result.1.openType ≠ TypeReader.start := by simp [htype, TypeReader.start]
  exact exists_item_of_readItems_eq_error (hresult.of_openType_ne hopening) h

/-! ### The law -/

/-- Under a greater limit a text has the same document, if it has one, and the same fault, unless
this is a container too many. Such a fault names the limit and is found at a container inside
exactly as many containers of its type. If the limit is lifted, there is no fault, or it stands
behind that container. -/
theorem depth_limit_only_rejects (strict : Bool) {limit limit' : Nat} (hle : limit ≤ limit')
    (source : String) :
    (∀ document, parse ⟨strict, limit⟩ source = .ok document →
      parse ⟨strict, limit'⟩ source = .ok document) ∧
    (∀ e, parse ⟨strict, limit⟩ source = .error e → (∀ depth, e.fault ≠ .typeTooDeep depth) →
      parse ⟨strict, limit'⟩ source = .error e) ∧
    ∀ depth span, parse ⟨strict, limit⟩ source = .error ⟨.typeTooDeep depth, span⟩ →
      depth = limit ∧
      (∃ tokens t behind, (TokenStream.ofSource ⟨strict, limit⟩ source).items =
          tokens.map .ok ++ .ok t :: behind ∧ t.span = span ∧
        (t.token = .keyword .listType ∨ t.token = .keyword .setType ∨
          t.token = .keyword .mapType) ∧
        EndsInContainers (sentence tokens) limit) ∧
      (limit < limit' → ∀ e, parse ⟨strict, limit'⟩ source = .error e →
        span.start.offset < e.span.start.offset) := by
  -- The limit has no influence on the tokens.
  have hstream : TokenStream.ofSource ⟨strict, limit'⟩ source =
      TokenStream.ofSource ⟨strict, limit⟩ source := rfl
  refine ⟨fun document hparse => ?_, fun e hparse hshallow => ?_, fun depth span hparse => ?_⟩
  · obtain ⟨last, left, hrun, hdocument⟩ := parse_eq_ok_iff.1 hparse
    refine parse_eq_ok_iff.2 ⟨last, left, ?_, hdocument⟩
    rw [hstream]
    exact readItems_of_le_of_eq_ok hle hrun
  · rw [parse_eq_error_iff] at hparse ⊢
    rw [hstream]
    exact readItems_of_le_of_isShallow hle hshallow hparse
  · rw [parse_eq_error_iff] at hparse
    obtain ⟨tokens, item, behind, next, left, hitems, hfirst, hfails⟩ :=
      readItems_eq_error_split hparse
    obtain ⟨rfl, t, hole, holes, result, rfl, rfl, hhole, hdoc, htype, hdeep, hbehind, hopens⟩ :=
      of_readItem_eq_typeTooDeep hfails
    have hlength : holes.length = depth := by
      have hholes := length_holes_of_readItems_eq_ok (Nat.zero_le _) hfirst
      rw [htype] at hholes
      exact Nat.le_antisymm hholes hdeep
    refine ⟨rfl, ⟨tokens, t, behind, hitems, rfl, TypeReader.isContainer_of_ofToken? hhole, ?_⟩,
      fun hless e hparse' => ?_⟩
    · have hstart : EndsWithType [] DocumentReader.start.openType := ⟨[], [], rfl, rfl, rfl⟩
      obtain ⟨before, opened, hsentence, hbefore, hopened⟩ :=
        endsWithType_of_readItems_eq_ok hstart hfirst
      rw [htype] at hopened
      obtain rfl : opened = TypeReader.openTokens holes := hopened
      exact ⟨before, holes, hsentence, hbefore, hlength⟩
    · rw [parse_eq_error_iff, hstream, hitems] at hparse'
      obtain ⟨item, hitem, hspan⟩ := exists_item_behind_container
        (readItems_of_le_of_eq_ok hle hfirst) hdoc (hopens limit' (hlength ▸ hless)) hbehind hparse'
      have hordered := TokenStream.pairwise_items ⟨strict, depth⟩ source
      rw [hitems] at hordered
      have hcontainer := (List.pairwise_cons.1 (List.pairwise_append.1 hordered).2.1).1 item hitem
      rw [hspan] at hcontainer
      exact hcontainer

/-- A set as the value of a map, with a further fault behind it. -/
theorem depth_limit_only_rejects_map_value :
    1 ≤ 2 ∧
    parse ⟨true, 1⟩ "struct S{1:map<K,set<T>>a=b}" =
      .error ⟨.typeTooDeep 1, ⟨⟨1, 18, 17⟩, 20⟩⟩ ∧
    parse ⟨true, 2⟩ "struct S{1:map<K,set<T>>a=b}" =
      .error ⟨.unexpectedToken "number or string literal" "identifier 'b'", ⟨⟨1, 27, 26⟩, 27⟩⟩ ∧
    (∃ tokens t behind,
      (TokenStream.ofSource ⟨true, 1⟩ "struct S{1:map<K,set<T>>a=b}").items =
          tokens.map .ok ++ .ok t :: behind ∧ t.span = ⟨⟨1, 18, 17⟩, 20⟩ ∧
        (t.token = .keyword .listType ∨ t.token = .keyword .setType ∨
          t.token = .keyword .mapType) ∧
        EndsInContainers (sentence tokens) 1) ∧ 17 < 26 := by
  have hdeep : parse ⟨true, 1⟩ "struct S{1:map<K,set<T>>a=b}" =
      .error ⟨.typeTooDeep 1, ⟨⟨1, 18, 17⟩, 20⟩⟩ := by decide +kernel
  have hvalue : parse ⟨true, 2⟩ "struct S{1:map<K,set<T>>a=b}" =
      .error ⟨.unexpectedToken "number or string literal" "identifier 'b'", ⟨⟨1, 27, 26⟩, 27⟩⟩ := by
    decide +kernel
  have hle : 1 ≤ 2 := by decide
  obtain ⟨_, hplace, hbehind⟩ := (depth_limit_only_rejects true hle _).2.2 _ _ hdeep
  exact ⟨hle, hdeep, hvalue, hplace, hbehind (by decide) _ hvalue⟩

end ServiceIdl
