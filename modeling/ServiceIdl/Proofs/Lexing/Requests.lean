import Mathlib.Data.List.ReduceOption
import ServiceIdl.Proofs.Lexing.Tiling
import ServiceIdl.Token.Lexer

/-!
# A lexer that is asked in any way

A lexer can be asked for its next element in two ways, and its user may change between the two
as it likes. Whatever the requests are, the lexer hands out one element of the token stream after
the other; once the ending was handed out, one kind of request gets the ending again and the other
one gets nothing.
-/

namespace ServiceIdl

/-- The two ways to ask a lexer for its next element. -/
inductive Request where
  /-- For the next element, if the ending has not been handed out. -/
  | next
  /-- For the next element, or for the ending again. -/
  | nextToken
  deriving DecidableEq

/-- The answer to a request behind the ending of a stream. -/
def Request.behind (ending : Item) : Request → Option Item
  | next => none
  | nextToken => some ending

namespace Lexer

/-- The answer to one request, and the lexer behind it. -/
def answer (lexer : Lexer) : Request → Option Item × Lexer
  | .next => lexer.next?
  | .nextToken => (some lexer.nextToken.1, lexer.nextToken.2)

/-- The answers to requests that are made one after the other. -/
def answers (lexer : Lexer) : List Request → List (Option Item)
  | [] => []
  | request :: requests => (lexer.answer request).1 :: (lexer.answer request).2.answers requests

end Lexer

namespace TokenStream

/-- The elements of a stream as answers to requests, of whichever kind these are; the kind matters
only behind the last element. -/
def answers (stream : TokenStream) (requests : List Request) : List (Option Item) :=
  (stream.items.take requests.length).map some ++
    (requests.drop stream.items.length).map (Request.behind stream.ending.item)

theorem answers_cons (t : SpannedToken) (stream : TokenStream) (request : Request)
    (requests : List Request) :
    (stream.cons t).answers (request :: requests) = some (.ok t) :: stream.answers requests := rfl

theorem answers_ending (ending : Ending) (request : Request) (requests : List Request) :
    answers ⟨[], ending⟩ (request :: requests) =
      some ending.item :: requests.map (Request.behind ending.item) := by
  simp [answers, items]

end TokenStream

namespace Lexer

/-- Behind the ending of a stream there are no further elements. -/
theorem answers_ended (ending : Ending) (requests : List Request) :
    (ended ending).answers requests = requests.map (Request.behind ending.item) := by
  induction requests with
  | nil => rfl
  | cons request requests ih =>
    rw [answers, List.map_cons]
    cases request with
    | next => exact congrArg (none :: ·) ih
    | nextToken => exact congrArg (some ending.item :: ·) ih

/-- A lexer answers as the stream from its cursor on. -/
theorem answers_reading (strict : Bool) (cursor : Cursor) (requests : List Request) :
    (reading strict cursor).answers requests =
      (TokenStream.fromCursor strict cursor).answers requests := by
  induction requests generalizing cursor with
  | nil => simp [answers, TokenStream.answers]
  | cons request requests ih =>
    -- Both kinds of request scan once, with the same outcome.
    have hanswer : (reading strict cursor).answer request =
        (some (reading strict cursor).nextToken.1, (reading strict cursor).nextToken.2) := by
      cases request <;> rfl
    rw [answers, hanswer, nextToken, TokenStream.fromCursor_eq_scan]
    cases cursor.scan strict with
    | token t next =>
      rw [TokenStream.answers_cons, ← ih next]
    | ending ending =>
      rw [TokenStream.answers_ending, ← answers_ended]

end Lexer

/-- An answer is an element of the stream. -/
theorem TokenStream.mem_items_of_some_mem_answers {stream : TokenStream} {requests : List Request}
    {item : Item} (h : some item ∈ stream.answers requests) : item ∈ stream.items := by
  rcases List.mem_append.1 h with h | h
  · obtain ⟨_, hmem, heq⟩ := List.mem_map.1 h
    obtain rfl := Option.some.inj heq
    exact List.mem_of_mem_take hmem
  · obtain ⟨request, _, heq⟩ := List.mem_map.1 h
    cases request with
    | next => cases heq
    | nextToken =>
      obtain rfl : stream.ending.item = item := Option.some.inj heq
      exact List.mem_append_right _ List.mem_cons_self

theorem Ending.item_injective {first second : Ending} (h : first.item = second.item) :
    first = second := by
  cases first <;> cases second <;> simp_all [Ending.item]

namespace TokenStream

/-- A stream is determined by its elements. -/
theorem eq_of_items_eq {first second : TokenStream} (h : first.items = second.items) :
    first = second := by
  obtain ⟨tokens, ending⟩ := first
  obtain ⟨tokens', ending'⟩ := second
  obtain ⟨htokens, hending⟩ := List.append_inj' h rfl
  obtain rfl : tokens = tokens' := (List.map_inj_right fun _ _ => Except.ok.inj).1 htokens
  obtain rfl : ending = ending' := Ending.item_injective (List.cons.inj hending).1
  rfl

/-- Enough requests of the first kind are answered with all elements, and then with nothing. -/
theorem reduceOption_answers_replicate (stream : TokenStream) {count : Nat}
    (h : stream.items.length ≤ count) :
    (stream.answers (List.replicate count .next)).reduceOption = stream.items := by
  have hnothing : (List.replicate count Request.next).drop stream.items.length =
      List.replicate (count - stream.items.length) .next := List.drop_replicate
  rw [answers, List.length_replicate, List.take_of_length_le h, hnothing, List.map_replicate,
    Request.behind, List.reduceOption_append, List.reduceOption_replicate_none, List.append_nil]
  simp [List.reduceOption]

/-- A stream that ends with the end of the input is all tokens. -/
theorem mapM_items (stream : TokenStream) :
    stream.items.mapM id = match stream.ending with
      | .endOfInput span => .ok (stream.tokens ++ [⟨.endOfInput, span⟩])
      | .fault error => .error error := by
  have htokens : (stream.tokens.map Except.ok).mapM id =
      (pure stream.tokens : Except LexError (List SpannedToken)) := by
    rw [List.mapM_map]
    change stream.tokens.mapM (fun t => (pure t : Except LexError SpannedToken)) = _
    rw [List.mapM_pure, List.map_id']
  rw [items, List.mapM_append, htokens, pure_bind]
  cases stream.ending <;> rfl

end TokenStream

/-- For every source text there is one token stream, of tokens other than the end of the input
and an ending behind them, that its lexer hands out, in whichever ways it is asked: one element
for each request, and behind the ending nothing or the ending again. To tokenize the text is to
collect this stream up to its error, if it ends with one. -/
theorem Lexer.existsUnique_stream_answers (options : ParseOptions) (source : String) :
    ∃! stream : TokenStream,
      (∀ t ∈ stream.tokens, t.token ≠ .endOfInput) ∧
      (∀ requests, (Lexer.ofSource options source).answers requests = stream.answers requests) ∧
      tokenize options source = stream.items.mapM id := by
  refine ⟨TokenStream.ofSource options source, ⟨fun t ht hend => ?_, fun requests => ?_, ?_⟩,
    fun other ⟨_, hother, _⟩ => ?_⟩
  · have hlexeme := TokenStream.isLexeme_of_mem_ofSource ht
    rw [hend] at hlexeme
    exact hlexeme
  · exact answers_reading options.strictNumbers (.start source) requests
  · exact (TokenStream.mapM_items _).symm
  · -- Both streams are what the same requests of the first kind are answered with.
    let stream := TokenStream.ofSource options source
    let requests := List.replicate (max other.items.length stream.items.length) Request.next
    have hstream : stream.answers requests = other.answers requests := by
      rw [← hother]
      exact (answers_reading options.strictNumbers (.start source) requests).symm
    have hitems := congrArg List.reduceOption hstream
    rw [stream.reduceOption_answers_replicate (Nat.le_max_right ..),
      other.reduceOption_answers_replicate (Nat.le_max_left ..)] at hitems
    exact (TokenStream.eq_of_items_eq hitems).symm

end ServiceIdl
