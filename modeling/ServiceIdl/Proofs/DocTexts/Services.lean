import ServiceIdl.Proofs.DocTexts.Fields
import ServiceIdl.Proofs.Grammar.Services

/-!
# Doc comments in services

A function takes the doc comments that are pending in front of its first token. What is left over
in it is forgotten behind its throws list; without such a list it is forgotten one token later,
when that token has shown that there is none.
-/

namespace ServiceIdl

open Syntax

variable {docs : DocTexts} {limit place since : Nat}

theorem Syntax.Function.exists_first_word (function : Syntax.Function) :
    ∃ token rest, function.tokens = token :: rest ∧ token.isWord = true ∧
      token ≠ .keyword .throwsClause := by
  simp only [Syntax.Function.tokens]
  cases function.oneway with
  | true => exact ⟨.keyword .onewayMark, _, rfl, rfl, by simp⟩
  | false =>
    cases function.result with
    | none => exact ⟨.keyword .voidResult, _, rfl, rfl, by simp⟩
    | some type =>
      obtain ⟨token, rest, htype, hword, hstarts⟩ := type.exists_first_token
      rw [Option.elim_some, htype]
      refine ⟨token, _, rfl, hword, ?_⟩
      rintro rfl
      cases hstarts

/-- The parts of a function in order. -/
theorem Syntax.Function.tokens_eq (function : Syntax.Function) :
    function.tokens = function.head ++ (parenthesized function.arguments ++
      (optionTokens (fun fields => .keyword .throwsClause :: parenthesized fields)
        function.throws ++
          optionTokens (fun separator => [separator.token]) function.separator)) := by
  simp [tokens, head]

theorem Syntax.Function.used_extent (function : Syntax.Function) :
    function.extent.used = function.head.length + (parenthesized function.arguments).length +
      (if function.throws.isSome then 0 else 1) +
        (optionTokens (fun fields => .keyword .throwsClause :: parenthesized fields)
          function.throws).length := by
  have htokens := tokens_eq { function with separator := none }
  have hhead : head { function with separator := none } = function.head := rfl
  rw [extent, htokens, hhead]
  simp only [optionTokens, Option.elim_none, List.append_nil, List.length_append]
  omega

namespace ServiceReader

variable {service : ServiceIdl.Service}

/-- The functions of a service are complete, but for a separator behind the last of them. The
doc comments in front of the next token may be forgotten. -/
def HasRead (limit : Nat) (service : ServiceIdl.Service) (forgets : Bool) (state : State) : Prop :=
  ∀ (t : SpannedToken) (pending : String), t.isSeparator = false →
    t.token ≠ .keyword .throwsClause → (read limit state t).run pending =
      (read limit ⟨service, .function⟩ t).run (if forgets then "" else pending)

theorem hasRead_function : HasRead limit service false ⟨service, .function⟩ :=
  fun _ _ _ _ => rfl

theorem hasRead_separator : HasRead limit service false ⟨service, .separator⟩ := by
  intro t pending hseparator _
  simp [read, readSeparator, hseparator]

theorem hasRead_afterArguments (function : ServiceIdl.Function) :
    HasRead limit (addFunction service function) true ⟨service, .afterArguments function⟩ := by
  intro t pending hseparator hthrows
  simp only [read, readSeparator, hseparator, hthrows, if_false, Bool.false_eq_true]
  rfl

/-- What follows complete functions is read as at the start of a function. -/
theorem HasRead.reads {forgets : Bool} {state : State} (h : HasRead limit service forgets state)
    {token : Token} {rest : List Token} (hseparator : token.plain.isSeparator = false)
    (hthrows : token ≠ .keyword .throwsClause) {behind : Nat}
    {last : Step State ServiceIdl.Service}
    (hreads : Reads docs (read limit) place (if forgets then place + 1 else since)
      (.more ⟨service, .function⟩) (token :: rest) behind last) :
    Reads docs (read limit) place since (.more state) (token :: rest) behind last := by
  cases forgets with
  | true => exact hreads.of_head_used (h _ _ hseparator hthrows)
  | false => exact hreads.of_head fun pending => h _ pending hseparator hthrows

/-! ### One function -/

theorem reads_resultType (head : Head) (type : TypeExpr) (hdepth : type.depth ≤ limit) :
    Reads docs (read limit) place since (.more ⟨service, .resultType head TypeReader.start⟩)
      type.tokens since (.more ⟨service, .name head type.signature⟩) := by
  refine (TypeReader.reads_type type hdepth).embed_lift
    (fun state => State.mk service (.resultType head state))
    (fun type => .more ⟨service, .name head type.signature⟩) fun state t => ?_
  refine congrArg liftM (bind_eq_map fun step => ?_)
  cases step <;> rfl

theorem reads_result (head : Head) {result : Option TypeExpr} {returnType : String}
    (hreturn : result.elim (some "void") (TypeExpr.signature? limit) = some returnType) :
    Reads docs (read limit) place since (.more ⟨service, .result head⟩)
      (result.elim [.keyword .voidResult] TypeExpr.tokens) since
      (.more ⟨service, .name head returnType⟩) := by
  cases result with
  | none =>
    obtain rfl : "void" = returnType := Option.some.inj hreturn
    exact .keep rfl .refl
  | some type =>
    obtain ⟨hdepth, rfl⟩ := TypeExpr.signature?_eq_some_iff.1 hreturn
    have htype : Reads docs (read limit) place since
        (.more ⟨service, .resultType head TypeReader.start⟩) type.tokens since
        (.more ⟨service, .name head type.signature⟩) := reads_resultType head type hdepth
    obtain ⟨token, rest, htokens, _, hstarts⟩ := type.exists_first_token
    rw [Option.elim_some]
    rw [htokens] at htype ⊢
    refine htype.of_head fun pending => ?_
    -- The word for no result starts no type.
    have hvoid : token ≠ .keyword .voidResult := by
      rintro rfl
      cases hstarts
    simp [read, readResult, hvoid]

theorem reads_name (head : Head) (name returnType : String) :
    Reads docs (read limit) place since (.more ⟨service, .name head returnType⟩)
      [.identifier name] since
      (.more ⟨service, .openArguments ⟨name, head.oneway, returnType, [], [], head.docText⟩⟩) :=
  .keep rfl .refl

/-- A function takes its doc text in front of its first token. -/
theorem reads_head (function : Syntax.Function) {returnType : String}
    (hreturn : function.result.elim (some "void") (TypeExpr.signature? limit) = some returnType) :
    Reads docs (read limit) place since (.more ⟨service, .function⟩) function.head (place + 1)
      (.more ⟨service, .openArguments ⟨function.name, function.oneway, returnType, [], [],
        docs.between since (place + 1)⟩⟩) := by
  obtain ⟨oneway, result, name, _, _, _⟩ := function
  cases oneway with
  | true => exact .take rfl ((reads_result ⟨true, _⟩ hreturn).append (reads_name _ name _))
  | false =>
    have hresult : Reads docs (read limit) place (place + 1)
        (.more ⟨service, .result ⟨false, docs.between since (place + 1)⟩⟩)
        (result.elim [.keyword .voidResult] TypeExpr.tokens) (place + 1)
        (.more ⟨service, .name ⟨false, docs.between since (place + 1)⟩ returnType⟩) :=
      reads_result _ hreturn
    have hfirst : ∃ token rest, result.elim [.keyword .voidResult] TypeExpr.tokens =
        token :: rest ∧ token ≠ .symbol .rightBrace ∧ token ≠ .keyword .onewayMark := by
      cases result with
      | none => exact ⟨_, _, rfl, by simp, by simp⟩
      | some type =>
        obtain ⟨token, rest, htokens, _, hstarts⟩ := type.exists_first_token
        refine ⟨token, rest, htokens, ?_, ?_⟩ <;>
        · rintro rfl
          cases hstarts
    obtain ⟨token, rest, htokens, hbrace, honeway⟩ := hfirst
    have hread (pending : String) : (read limit ⟨service, .function⟩ token.plain).run pending =
        (read limit ⟨service, .result ⟨false, pending⟩⟩ token.plain).run "" := by
      simp only [read, readFunction, Token.token_plain, hbrace, honeway, if_false]
      rfl
    rw [htokens] at hresult
    have hbehind := (hresult.of_head_used (hread _)).append (reads_name _ name _)
    rw [← htokens] at hbehind
    exact hbehind

theorem reads_arguments (function : ServiceIdl.Function) {entries : List Syntax.Field}
    {values : List ServiceIdl.Field} (hvalues : fields? limit 1 entries = some values) :
    Reads docs (read limit) place since (.more ⟨service, .openArguments function⟩)
      (parenthesized entries) (sinceBehind Syntax.Field.extent (place + 1) since entries)
      (.more ⟨service, .afterArguments { function with
        arguments := List.zipWith Field.withDoc values
          (fieldDocs docs (place + 1) since entries) }⟩) := by
  have hfields : Reads docs (FieldListReader.read limit .rightParen) (place + 1) since
      (.more FieldListReader.start) _ _ (.done _) :=
    FieldListReader.reads_fields (.inr rfl) FieldListReader.hasRead_start hvalues
  refine .keep rfl ?_
  refine Reads.embed (fun fields => State.mk service (.arguments function fields))
    (fun arguments => Step.more (State.mk service (.afterArguments { function with arguments })))
    (fun state t => ?_) hfields
  refine bind_congr fun step => ?_
  cases step <;> rfl

/-- What is pending behind a throws list is forgotten. -/
theorem reads_throws (function : ServiceIdl.Function) {entries : List Syntax.Field}
    {values : List ServiceIdl.Field} (hvalues : fields? limit 1 entries = some values) :
    Reads docs (read limit) place since (.more ⟨service, .openThrows function⟩)
      (parenthesized entries) (place + (parenthesized entries).length)
      (.more ⟨addFunction service { function with
        throws := List.zipWith Field.withDoc values
          (fieldDocs docs (place + 1) since entries) }, .separator⟩) := by
  have hfields : Reads docs (FieldListReader.read limit .rightParen) (place + 1) since
      (.more FieldListReader.start) _ _ (.done _) :=
    FieldListReader.reads_fields (.inr rfl) FieldListReader.hasRead_start hvalues
  rw [parenthesized, List.length_cons, ← Nat.add_assoc, Nat.add_right_comm]
  refine .keep rfl ?_
  refine Reads.embed_cleared (fun fields => State.mk service (.throws function fields))
    (fun throws => Step.more (State.mk (addFunction service { function with throws }) .separator))
    (fun hinner => ?_) (fun hinner => ?_) hfields
  · simp only [read, StateT.run_bind, hinner]
    rfl
  · simp only [read, StateT.run_bind, hinner]
    rfl

theorem reads_separator (separator : Option Separator) :
    ∃ state, Reads docs (read limit) place since (.more ⟨service, .separator⟩)
        (optionTokens (fun separator => [separator.token]) separator) since (.more state) ∧
      HasRead limit service false state := by
  cases separator with
  | none => exact ⟨_, .refl, hasRead_separator⟩
  | some separator =>
    refine ⟨_, .keep ?_ .refl, hasRead_function⟩
    cases separator <;> rfl

/-- The part of a function behind its arguments. Without a throws list, the token behind this
part is read before doc comments are forgotten. -/
theorem reads_behind_arguments (docs : DocTexts) (place since : Nat) (service : ServiceIdl.Service)
    (function : ServiceIdl.Function) (hnone : function.throws = [])
    (clause : Option (List Syntax.Field)) (separator : Option Separator)
    {values : List ServiceIdl.Field} (hvalues : fields? limit 1 (clause.getD []) = some values) :
    ∃ state behind forgets, Reads docs (read limit) place since
        (.more ⟨service, .afterArguments function⟩)
        (optionTokens (fun fields => .keyword .throwsClause :: parenthesized fields) clause ++
          optionTokens (fun separator => [separator.token]) separator) behind (.more state) ∧
      HasRead limit (addFunction service { function with
        throws := List.zipWith Field.withDoc values
          (fieldDocs docs (place + 2) since (clause.getD [])) }) forgets state ∧
      forgets = (clause.isNone && separator.isNone) ∧
      (forgets = false → behind = place + (if clause.isSome then 0 else 1) +
        (optionTokens (fun fields => .keyword .throwsClause :: parenthesized fields)
          clause).length) := by
  cases clause with
  | none =>
    obtain rfl : [] = values := Option.some.inj hvalues
    have hfunction : { function with throws := [] } = function := by rw [← hnone]
    rw [List.zipWith_nil_left, hfunction]
    cases separator with
    | none => exact ⟨_, _, true, .refl, hasRead_afterArguments function, rfl, by simp⟩
    | some separator =>
      refine ⟨_, _, false, .take ?_ .refl, hasRead_function, rfl, by simp [optionTokens]⟩
      cases separator <;> rfl
  | some entries =>
    obtain ⟨state, hseparator, hstate⟩ := reads_separator separator
    have hclause : Reads docs (read limit) (place + 1) since
        (.more ⟨service, .openThrows function⟩) (parenthesized entries) _ _ :=
      reads_throws function hvalues
    refine ⟨state, _, false, .keep rfl (hclause.append hseparator), hstate, rfl, fun _ => ?_⟩
    simp only [optionTokens, Option.elim_some, List.length_cons, Option.isSome_some, if_true]
    omega

/-- A function is read to where the next one starts. -/
theorem reads_function (docs : DocTexts) (place since : Nat) (service : ServiceIdl.Service)
    {function : Syntax.Function} {value : ServiceIdl.Function}
    (hvalue : function.value? limit = some value) :
    ∃ state behind forgets, Reads docs (read limit) place since (.more ⟨service, .function⟩)
        function.tokens behind (.more state) ∧
      HasRead limit (addFunction service (value.withDocs (function.docs docs place since)))
        forgets state ∧
      (if forgets then place + function.extent.length + 1 else behind) =
        place + function.extent.used := by
  simp only [Syntax.Function.value?, Option.bind_eq_bind, Option.bind_eq_some_iff] at hvalue
  obtain ⟨returnType, hreturn, arguments, harguments, throws, hthrows, ⟨⟩⟩ := hvalue
  have hhead : Reads docs (read limit) place since (.more ⟨service, .function⟩) function.head _ _ :=
    reads_head function hreturn
  have hparenthesized : Reads docs (read limit) (place + function.head.length) (place + 1)
      (.more ⟨service, .openArguments ⟨function.name, function.oneway, returnType, [], [],
        docs.between since (place + 1)⟩⟩) (parenthesized function.arguments) _ _ :=
    reads_arguments _ harguments
  obtain ⟨state, behind, forgets, hend, hstate, hforgets, hbehind⟩ := reads_behind_arguments docs
    (place + function.head.length + (parenthesized function.arguments).length)
    (sinceBehind Syntax.Field.extent (place + function.head.length + 1) (place + 1)
      function.arguments) service
    ⟨function.name, function.oneway, returnType, List.zipWith Field.withDoc arguments
      (fieldDocs docs (place + function.head.length + 1) (place + 1) function.arguments), [],
      docs.between since (place + 1)⟩ rfl function.throws function.separator hthrows
  refine ⟨state, behind, forgets, ?_, ?_, ?_⟩
  · rw [function.tokens_eq]
    exact hhead.append (hparenthesized.append hend)
  · have hplace : place + function.head.length + (parenthesized function.arguments).length + 2 =
        place + function.head.length + 1 +
          (function.arguments.flatMap Syntax.Field.tokens).length + 3 := by
      simp only [parenthesized, List.length_cons, List.length_append, List.length_nil]
      omega
    rw [hplace] at hstate
    exact hstate
  · rw [function.used_extent]
    cases forgets with
    | true =>
      -- Without a throws list and without a separator, the function ends with its arguments.
      obtain ⟨hthrows, hseparator⟩ := Bool.and_eq_true_iff.1 hforgets.symm
      rw [Syntax.Function.extent, function.tokens_eq, Option.isNone_iff_eq_none.1 hthrows,
        Option.isNone_iff_eq_none.1 hseparator]
      simp [optionTokens]
      omega
    | false =>
      rw [hbehind rfl]
      simp
      omega

/-! ### Whole services -/

theorem reads_functions {forgets : Bool} {state : State}
    (hstate : HasRead limit service forgets state) {functions : List Syntax.Function}
    {values : List ServiceIdl.Function}
    (hvalues : functions.mapM (Syntax.Function.value? limit) = some values) :
    ∃ behind, Reads docs (read limit) place since (.more state)
      (functions.flatMap Syntax.Function.tokens ++ [.symbol .rightBrace]) behind
      (.done { service with
        functions := service.functions ++ List.zipWith Function.withDocs values
          (functionDocs docs place (if forgets then place + 1 else since) functions) }) := by
  induction functions generalizing service state forgets place since values with
  | nil =>
    obtain rfl : [] = values := Option.some.inj hvalues
    rw [List.zipWith_nil_left, List.append_nil]
    exact ⟨_, hstate.reads rfl (by simp) (.keep rfl .refl)⟩
  | cons function functions ih =>
    simp only [List.mapM_cons, Option.bind_eq_bind, Option.bind_eq_some_iff] at hvalues
    obtain ⟨value, hvalue, values, hvalues, ⟨⟩⟩ := hvalues
    obtain ⟨state', between, forgets', hreads, hstate', hused⟩ := reads_function docs place
      (if forgets then place + 1 else since) service hvalue
    have hrest : ∃ behind, Reads docs (read limit) (place + function.tokens.length) between
        (.more state') _ behind _ := ih hstate' hvalues
    have hlength : function.extent.length = function.tokens.length := rfl
    rw [← hlength, hused] at hrest
    obtain ⟨behind, hrest⟩ := hrest
    obtain ⟨token, rest, htokens, hword, hthrows⟩ := function.exists_first_word
    have hall := hreads.append hrest
    rw [htokens, List.cons_append] at hall
    refine ⟨behind, ?_⟩
    rw [List.flatMap_cons, List.append_assoc, htokens, List.cons_append]
    have hfirst := hstate.reads (Token.isSeparator_plain_of_isWord hword).1 hthrows hall
    simpa [addFunction, functionDocs, placed] using hfirst

/-- A service is read from behind its name. -/
theorem reads_service {name docText : String} (parent : Option String)
    {functions : List Syntax.Function} {values : List ServiceIdl.Function}
    (hvalues : functions.mapM (Syntax.Function.value? limit) = some values) :
    ∃ behind, Reads docs (read limit) (place + 2) since (.more (start name docText))
      (optionTokens (fun parent => [.keyword .extendsClause, .identifier parent]) parent
        ++ braced (functions.flatMap Syntax.Function.tokens)) behind
      (.done ⟨name, parent, List.zipWith Function.withDocs values
        (functionDocs docs (place + (serviceHead name parent).length) since functions),
        docText⟩) := by
  have hfunctions (first : Nat) : ∃ behind, Reads docs (read limit) first since
      (.more ⟨⟨name, parent, [], docText⟩, .function⟩) _ behind _ :=
    reads_functions hasRead_function hvalues
  cases parent with
  | none =>
    obtain ⟨behind, hreads⟩ := hfunctions (place + 3)
    exact ⟨behind, .keep rfl hreads⟩
  | some parent =>
    obtain ⟨behind, hreads⟩ := hfunctions (place + 5)
    exact ⟨behind, .keep rfl (.keep rfl (.keep rfl hreads))⟩

end ServiceReader

end ServiceIdl
