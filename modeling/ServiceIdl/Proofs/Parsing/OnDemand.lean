import ServiceIdl.Proofs.Lexing.Faults
import ServiceIdl.Proofs.Parsing.DepthLimit
import ServiceIdl.Proofs.Reading.Loops

/-!
# Parsing on demand

A parser needs one element of the token stream at a time. It asks its lexer for the next one, reads
it, and stops at the first error, or at the end of the input where a document may end. Nothing in
such a run bounds it: a lexer that has handed out its ending hands it out again for ever, and a list
is read until its closing bracket comes. All the same the run ends with the last element at the
latest, because inside a statement the end of the input is an error.
-/

namespace ServiceIdl

/-! ### Scans -/

section

variable {strict : Bool} {cursor next : Cursor} {t : SpannedToken}

/-- A token takes up some of the text. -/
theorem Cursor.exists_passed_of_scan_eq_token (h : cursor.scan strict = .token t next) :
    ∃ passed, cursor.rest = passed ++ next.rest ∧
      next.position = cursor.position.after passed ∧ 0 < utf8Length passed := by
  obtain ⟨passed, hrest, hposition, _⟩ := Cursor.of_scan_eq_token h
  refine ⟨passed, hrest, hposition, Nat.pos_of_ne_zero fun hzero => ?_⟩
  have hless := Cursor.length_rest_of_scan_eq_token h
  rw [hrest, utf8Length_eq_zero_iff.1 hzero] at hless
  exact Nat.lt_irrefl _ hless

theorem Cursor.offset_lt_of_scan_eq_token (h : cursor.scan strict = .token t next) :
    cursor.position.offset < next.position.offset := by
  obtain ⟨passed, _, hposition, hpassed⟩ := Cursor.exists_passed_of_scan_eq_token h
  rw [hposition, Position.offset_after]
  omega

/-- The elements of a stream are what one scan finds, and those of the stream behind it. -/
theorem TokenStream.items_fromCursor (strict : Bool) (cursor : Cursor) :
    (fromCursor strict cursor).items =
      match cursor.scan strict with
      | .token t next => .ok t :: (fromCursor strict next).items
      | .ending ending => [ending.item] := by
  rw [fromCursor_eq_scan]
  cases cursor.scan strict <;> rfl

/-- Each element but the last one takes up at least one byte. -/
theorem TokenStream.length_items_le (strict : Bool) (cursor : Cursor) :
    (fromCursor strict cursor).items.length ≤ utf8Length cursor.rest + 1 := by
  induction hlength : cursor.rest.length using Nat.strongRecOn generalizing cursor with
  | _ length ih =>
    rw [items_fromCursor]
    cases hscan : cursor.scan strict with
    | ending ending => simp
    | token t next =>
      have hless := Cursor.length_rest_of_scan_eq_token hscan
      obtain ⟨passed, hrest, _, hpassed⟩ := Cursor.exists_passed_of_scan_eq_token hscan
      have hbehind := ih _ (hlength ▸ hless) next rfl
      rw [hrest, utf8Length_append, List.length_cons]
      omega

/-- A lexer hands out the first element of its stream and goes on with the others, if there are
any. -/
theorem Lexer.nextToken_reading {item : Item} {behind : List Item}
    (h : (TokenStream.fromCursor strict cursor).items = item :: behind) :
    (reading strict cursor).nextToken.1 = item ∧
      (behind ≠ [] → ∃ next, (reading strict cursor).nextToken.2 = reading strict next ∧
        (TokenStream.fromCursor strict next).items = behind) := by
  rw [TokenStream.items_fromCursor] at h
  rw [nextToken]
  cases hscan : cursor.scan strict with
  | token t next =>
    rw [hscan] at h
    obtain ⟨rfl, rfl⟩ := List.cons.inj h
    exact ⟨rfl, fun _ => ⟨next, rfl, rfl⟩⟩
  | ending ending =>
    rw [hscan] at h
    obtain ⟨rfl, rfl⟩ := List.cons.inj h
    exact ⟨rfl, fun hne => absurd rfl hne⟩

end

/-! ### The end of the input -/

def Item.isEndOfInput : Item → Bool
  | .ok t => t.token = .endOfInput
  | .error _ => false

variable {options : ParseOptions} {source : String}

/-- The end of the input is the last element of a stream, and a token that is the last element is
the end of the input. -/
theorem TokenStream.token_eq_endOfInput_iff {before behind : List Item} {t : SpannedToken}
    (h : (ofSource options source).items = before ++ .ok t :: behind) :
    t.token = .endOfInput ↔ behind = [] := by
  rcases List.eq_nil_or_concat behind with rfl | ⟨front, last, rfl⟩
  · obtain ⟨_, hending⟩ := List.append_inj' h rfl
    have hitem := (List.cons.inj hending).1
    cases hend : (ofSource options source).ending with
    | endOfInput span =>
      rw [hend] at hitem
      obtain rfl := Except.ok.inj hitem
      simp
    | fault error =>
      rw [hend] at hitem
      cases hitem
  · have hmem : (.ok t : Item) ∈ (ofSource options source).tokens.map .ok := by
      have hsplit : (ofSource options source).items = (before ++ .ok t :: front) ++ [last] := by
        rw [h, List.concat_eq_append, List.append_assoc, List.cons_append]
      rw [(List.append_inj' hsplit rfl).1]
      simp
    obtain ⟨_, ht, heq⟩ := List.mem_map.1 hmem
    obtain rfl := Except.ok.inj heq
    have hlexeme := TokenStream.isLexeme_of_mem_ofSource ht
    refine ⟨fun hend => ?_, by simp⟩
    rw [hend] at hlexeme
    exact absurd hlexeme id

/-! ### A run -/

/-- What a parser is doing that asks its lexer for one element after the other. -/
inductive OnDemand where
  /-- It asks for the next element. -/
  | asking (lexer : Lexer) (state : DocumentReader.State) (pending : String)
  /-- It has its outcome. -/
  | finished (outcome : Except ParseError Document)
  deriving DecidableEq

namespace OnDemand

/-- Nothing has been asked for. -/
def start (options : ParseOptions) (source : String) : OnDemand :=
  .asking (.ofSource options source) DocumentReader.start ""

/-- One element is asked for and read. The first error is the outcome, and the end of the input is
the end of the document, but only where a document may end. -/
def step (limit : Nat) : OnDemand → OnDemand
  | finished outcome => finished outcome
  | asking lexer state pending =>
    let (item, behind) := lexer.nextToken
    match (readItem limit state item).run pending with
    | .error e => finished (.error e)
    | .ok (next, left) =>
      if item.isEndOfInput && state.phase.mayEnd then finished (.ok next.document)
      else asking behind next left

/-- The run behind a number of requests. -/
def after (options : ParseOptions) (source : String) : Nat → OnDemand
  | 0 => start options source
  | count + 1 => (after options source count).step options.maxTypeDepth

/-- The tokens in front of an element have been read, and the lexer is about to hand out this one
and then those behind it. -/
structure Awaits (options : ParseOptions) (source : String) (tokens : List SpannedToken)
    (item : Item) (behind : List Item) (lexer : Lexer) (state : DocumentReader.State)
    (pending : String) : Prop where
  items_eq : (TokenStream.ofSource options source).items = tokens.map .ok ++ item :: behind
  read_eq : (readItems options.maxTypeDepth DocumentReader.start (tokens.map .ok)).run "" =
    .ok (state, pending)
  exists_cursor : ∃ cursor, lexer = .reading options.strictNumbers cursor ∧
    (TokenStream.fromCursor options.strictNumbers cursor).items = item :: behind

/-- A run that asks for an element awaits the one behind those that it has been given, and a run
that has its outcome has that of parsing. -/
def Follows (options : ParseOptions) (source : String) (count : Nat) : OnDemand → Prop
  | asking lexer state pending => ∃ tokens item behind, tokens.length = count ∧
      Awaits options source tokens item behind lexer state pending
  | finished outcome => outcome = parse options source

theorem follows_start (options : ParseOptions) (source : String) :
    (start options source).Follows options source 0 := by
  obtain ⟨item, behind, hitems⟩ :
      ∃ item behind, (TokenStream.ofSource options source).items = item :: behind :=
    List.exists_cons_of_ne_nil (by simp [TokenStream.items])
  exact ⟨[], item, behind, rfl, hitems, rfl, .start source, rfl, hitems⟩

namespace Awaits

variable {tokens : List SpannedToken} {item : Item} {behind : List Item} {lexer : Lexer}
  {state next : DocumentReader.State} {pending left : String}

theorem nextToken_eq (h : Awaits options source tokens item behind lexer state pending) :
    lexer.nextToken.1 = item := by
  obtain ⟨cursor, rfl, hcursor⟩ := h.exists_cursor
  exact (Lexer.nextToken_reading hcursor).1

/-- Behind the element that is awaited, parsing goes on as the reading of that element does. -/
theorem run_readItems (h : Awaits options source tokens item behind lexer state pending) :
    (readItems options.maxTypeDepth DocumentReader.start
        (TokenStream.ofSource options source).items).run "" =
      (readItem options.maxTypeDepth state item >>= fun next =>
        readItems options.maxTypeDepth next behind).run pending := by
  rw [h.items_eq, run_readItems_append h.read_eq, readItems, List.foldlM_cons]
  rfl

theorem parse_eq_error (h : Awaits options source tokens item behind lexer state pending)
    {e : ParseError} (hread : (readItem options.maxTypeDepth state item).run pending = .error e) :
    parse options source = .error e := by
  rw [parse_eq_error_iff, h.run_readItems, StateT.run_bind, hread]
  rfl

/-- An element that is read is the end of the input, where the document may end, or a further one is
awaited. -/
theorem of_readItem_eq_ok (h : Awaits options source tokens item behind lexer state pending)
    (hread : (readItem options.maxTypeDepth state item).run pending = .ok (next, left)) :
    (item.isEndOfInput = true ∧ state.phase.mayEnd = true ∧
        parse options source = .ok next.document) ∨
      item.isEndOfInput = false ∧ ∃ t item' behind', item = .ok t ∧
        Awaits options source (tokens ++ [t]) item' behind' lexer.nextToken.2 next left := by
  cases item with
  | error error => cases hread
  | ok t =>
    have hend := TokenStream.token_eq_endOfInput_iff h.items_eq
    cases behind with
    | nil =>
      have htoken : t.token = .endOfInput := hend.2 rfl
      have hread' := hread
      rw [readItem_of_isDocComment_eq_false (by rw [htoken]; rfl)] at hread'
      obtain ⟨hmay, _⟩ := DocumentReader.of_read_endOfInput htoken hread'
      refine .inl ⟨by simp [Item.isEndOfInput, htoken], hmay, ?_⟩
      refine parse_eq_ok_iff.2 ⟨next, left, ?_, rfl⟩
      rw [h.run_readItems, StateT.run_bind, hread]
      rfl
    | cons item' behind' =>
      obtain ⟨cursor, rfl, hcursor⟩ := h.exists_cursor
      obtain ⟨next', hnext', hitems⟩ := (Lexer.nextToken_reading hcursor).2 (by simp)
      refine .inr ⟨by simpa [Item.isEndOfInput] using hend, t, item', behind', rfl, ?_, ?_,
        next', hnext', hitems⟩
      · rw [h.items_eq]
        simp
      · rw [List.map_append, run_readItems_append h.read_eq]
        simpa [readItems] using hread

end Awaits

theorem of_step_eq_asking {limit : Nat} {lexer lexer' : Lexer} {state next : DocumentReader.State}
    {pending left : String}
    (h : (asking lexer state pending).step limit = asking lexer' next left) :
    (readItem limit state lexer.nextToken.1).run pending = .ok (next, left) ∧
      ¬(lexer.nextToken.1.isEndOfInput && state.phase.mayEnd) = true := by
  simp only [step] at h
  split at h
  · cases h
  · next hread =>
    split at h
    · cases h
    · next hend =>
      cases h
      exact ⟨hread, hend⟩

/-- One request leads to the next element of the stream, or to the outcome. -/
theorem Follows.step {run : OnDemand} {count : Nat} (h : run.Follows options source count) :
    (run.step options.maxTypeDepth).Follows options source (count + 1) := by
  cases run with
  | finished outcome => exact h
  | asking lexer state pending =>
    obtain ⟨tokens, item, behind, rfl, hawaits⟩ := h
    simp only [OnDemand.step, hawaits.nextToken_eq]
    cases hread : (readItem options.maxTypeDepth state item).run pending with
    | error e => exact (hawaits.parse_eq_error hread).symm
    | ok result =>
      obtain ⟨next, left⟩ := result
      rcases hawaits.of_readItem_eq_ok hread with
        ⟨hend, hmay, hparse⟩ | ⟨hend, t, item', behind', _, hnext⟩
      · simp only [hend, hmay, Bool.and_self, if_true]
        exact hparse.symm
      · simp only [hend, Bool.false_and]
        exact ⟨tokens ++ [t], item', behind', by simp, hnext⟩

theorem follows_after (options : ParseOptions) (source : String) (count : Nat) :
    (after options source count).Follows options source count := by
  induction count with
  | zero => exact follows_start options source
  | succ count ih => exact ih.step

end OnDemand

/-! ### Nested types -/

namespace TypeReader

/-- How many types are being read, each as an argument of the one before it. Where no type is being
read, the next token may start one. -/
def State.nesting : State → Nat
  | .operand holes | .opening _ holes | .closing _ _ holes => holes.length + 1

theorem State.nesting_le (state : State) : state.nesting ≤ state.holes.length + 1 := by
  cases state <;> simp [nesting, holes]

theorem length_le_length_openTokens (holes : List Hole) :
    holes.length ≤ (openTokens holes).length := by
  induction holes with
  | nil => exact Nat.le_refl 0
  | cons hole holes ih =>
    have htokens : 0 < hole.tokens.length := by cases hole <;> simp [Hole.tokens]
    rw [openTokens, List.length_append, List.length_cons]
    omega

/-- Each container that is open has taken a token. -/
theorem State.ReadBy.length_holes_le {state : State} {tokens : List Token}
    (h : state.ReadBy tokens) : state.holes.length ≤ tokens.length := by
  cases state with
  | operand holes =>
    obtain rfl : tokens = openTokens holes := h
    exact length_le_length_openTokens holes
  | opening hole holes =>
    obtain ⟨token, _, rfl⟩ := h
    have := length_le_length_openTokens holes
    rw [List.length_append, State.holes, List.length_cons, List.length_singleton]
    omega
  | closing hole argument holes =>
    obtain rfl : tokens = openTokens (hole :: holes) ++ argument.tokens := h
    have := length_le_length_openTokens (hole :: holes)
    rw [List.length_append, State.holes]
    omega

end TypeReader

/-- Behind a stretch of a stream, no more types are nested than the limit and the number of tokens
in the stretch allow. -/
theorem nesting_of_readItems_eq_ok {limit : Nat} {tokens : List SpannedToken}
    {next : DocumentReader.State} {left : String}
    (h : (readItems limit DocumentReader.start (tokens.map .ok)).run "" = .ok (next, left)) :
    next.openType.nesting ≤ min limit tokens.length + 1 := by
  have hstart : EndsWithType [] DocumentReader.start.openType := ⟨[], [], rfl, rfl, rfl⟩
  obtain ⟨before, opened, hsentence, _, hopened⟩ := endsWithType_of_readItems_eq_ok hstart h
  have hlimit := length_holes_of_readItems_eq_ok (Nat.zero_le _) h
  have htokens : next.openType.holes.length ≤ tokens.length := calc
    next.openType.holes.length ≤ opened.length := hopened.length_holes_le
    _ ≤ (sentence tokens).length := by
      rw [← List.nil_append (sentence tokens), hsentence, List.length_append]
      omega
    _ ≤ tokens.length := by
      rw [← map_token_substantive, List.length_map]
      exact List.length_filter_le _ _
  have hnesting := next.openType.nesting_le
  omega

/-! ### The bounds of a run -/

/-- A run of the parser on a text ends, and it never goes behind the end of the stream. -/
structure EndsInTime (options : ParseOptions) (source : String) : Prop where
  /-- A scan that finds a token gets further in the text. -/
  advances : ∀ {cursor next : Cursor} {t : SpannedToken},
    cursor.scan options.strictNumbers = .token t next →
      cursor.position.offset < next.position.offset
  length_items_le :
    (TokenStream.ofSource options source).items.length ≤ utf8Length source.toList + 1
  /-- There are no more requests than elements, and then there is the outcome of parsing. -/
  finishes : ∃ count ≤ (TokenStream.ofSource options source).items.length,
    OnDemand.after options source count = .finished (parse options source)
  /-- Each request is for the next element, and no ending has been handed out before. -/
  requests : ∀ {count lexer state pending},
    OnDemand.after options source count = .asking lexer state pending →
      (∃ cursor, lexer = .reading options.strictNumbers cursor) ∧
        (TokenStream.ofSource options source).items[count]? = some lexer.nextToken.1
  /-- A token that is in sight at the head of a loop is read there. The run is finished with it, or
  it is not the end of the input and leads away from the head of this loop. -/
  rounds : ∀ {count lexer state pending t loop},
    OnDemand.after options source count = .asking lexer state pending →
    lexer.nextToken.1 = .ok t → t.token.isDocComment = false →
    (state.settle t).head? = some loop →
      (∃ pending', (readItem options.maxTypeDepth state (.ok t)).run pending =
        (DocumentReader.read options.maxTypeDepth (state.settle t) t).run pending') ∧
      ((∃ outcome, OnDemand.after options source (count + 1) = .finished outcome) ∨
        t.token ≠ .endOfInput ∧ ∃ lexer' next left,
          OnDemand.after options source (count + 1) = .asking lexer' next left ∧
            next.head? ≠ some loop)
  /-- Types are nested no deeper than the limit and the tokens that have been handed out allow. -/
  nesting : ∀ {count lexer state pending},
    OnDemand.after options source count = .asking lexer state pending →
      count ≤ (TokenStream.ofSource options source).tokens.length ∧
        state.openType.nesting ≤ min options.maxTypeDepth count + 1

namespace OnDemand

variable {count : Nat} {lexer : Lexer} {state : DocumentReader.State} {pending : String}

theorem awaits_of_after_eq_asking (h : after options source count = .asking lexer state pending) :
    ∃ tokens item behind, tokens.length = count ∧
      Awaits options source tokens item behind lexer state pending := by
  have hfollows := follows_after options source count
  rwa [h] at hfollows

/-- There is an element left for each request. -/
theorem lt_length_items (h : after options source count = .asking lexer state pending) :
    count < (TokenStream.ofSource options source).items.length := by
  obtain ⟨tokens, item, behind, rfl, hawaits⟩ := awaits_of_after_eq_asking h
  rw [hawaits.items_eq]
  simp

/-- At the head of a loop the end of the input finishes the run. -/
theorem after_succ_of_head? {t : SpannedToken} {loop : Loop}
    (h : after options source count = .asking lexer state pending)
    (ht : lexer.nextToken.1 = .ok t) (hdoc : t.token.isDocComment = false)
    (hhead : (state.settle t).head? = some loop) :
    (∃ outcome, after options source (count + 1) = .finished outcome) ∨
      t.token ≠ .endOfInput ∧ ∃ lexer' next left,
        after options source (count + 1) = .asking lexer' next left ∧ next.head? ≠ some loop := by
  cases hafter : after options source (count + 1) with
  | finished outcome => exact .inl ⟨outcome, rfl⟩
  | asking lexer' next left =>
    obtain ⟨tokens, item, behind, _, hawaits⟩ := awaits_of_after_eq_asking h
    obtain rfl : .ok t = item := ht.symm.trans hawaits.nextToken_eq
    rw [after, h] at hafter
    obtain ⟨hread, hmore⟩ := of_step_eq_asking hafter
    rw [ht] at hread hmore
    rcases hawaits.of_readItem_eq_ok hread with ⟨hend, hmay, _⟩ | ⟨hend, _⟩
    · exact absurd (by simp [hend, hmay]) hmore
    · have htoken : t.token ≠ .endOfInput := by simpa [Item.isEndOfInput] using hend
      obtain ⟨pending', hsettle⟩ :=
        DocumentReader.exists_run_read_settle options.maxTypeDepth state t pending
      have hleaves : (DocumentReader.read options.maxTypeDepth (state.settle t) t).Ensures _ _ :=
        DocumentReader.ensures_read_leavesHead hhead htoken
      have hnext := hleaves pending'
      rw [readItem_of_isDocComment_eq_false hdoc] at hread
      rw [hsettle, hread] at hnext
      exact .inr ⟨htoken, lexer', next, left, rfl, hnext⟩

end OnDemand

/-- Parsing always ends, and it never reads behind the end. -/
theorem parsing_ends_in_time (options : ParseOptions) (source : String) :
    EndsInTime options source where
  advances := Cursor.offset_lt_of_scan_eq_token
  length_items_le := TokenStream.length_items_le options.strictNumbers (.start source)
  finishes := by
    refine ⟨_, Nat.le_refl _, ?_⟩
    have hfollows := OnDemand.follows_after options source
      (TokenStream.ofSource options source).items.length
    cases hafter : OnDemand.after options source _ with
    | finished outcome =>
      rw [hafter] at hfollows
      exact congrArg _ hfollows
    | asking lexer state pending => exact absurd (OnDemand.lt_length_items hafter) (Nat.lt_irrefl _)
  requests h := by
    obtain ⟨tokens, item, behind, rfl, hawaits⟩ := OnDemand.awaits_of_after_eq_asking h
    obtain ⟨cursor, hlexer, _⟩ := hawaits.exists_cursor
    refine ⟨⟨cursor, hlexer⟩, ?_⟩
    rw [hawaits.items_eq, hawaits.nextToken_eq]
    simp
  rounds h ht hdoc hhead := by
    refine ⟨?_, OnDemand.after_succ_of_head? h ht hdoc hhead⟩
    obtain ⟨pending', hread⟩ :=
      DocumentReader.exists_run_read_settle options.maxTypeDepth _ _ _
    exact ⟨pending', by rw [readItem_of_isDocComment_eq_false hdoc, hread]⟩
  nesting h := by
    obtain ⟨tokens, item, behind, rfl, hawaits⟩ := OnDemand.awaits_of_after_eq_asking h
    have hless := OnDemand.lt_length_items h
    refine ⟨?_, nesting_of_readItems_eq_ok hawaits.read_eq⟩
    simpa [TokenStream.items, Nat.lt_succ_iff] using hless

/-- A typedef without a name. -/
example : OnDemand.after ⟨false, 64⟩ "typedef T" 3 =
    .finished (.error ⟨.unexpectedToken "identifier" "end of input", ⟨⟨1, 10, 9⟩, 9⟩⟩) := by
  decide +kernel

end ServiceIdl
