import ServiceIdl.Proofs.Grammar.Fields
import ServiceIdl.Reader.Service

/-!
# Services are read by their grammar

A service is read from behind its name up to its closing brace. That a function has no throws list
is seen at the token behind it only, which is then read as what follows the function.
-/

namespace ServiceIdl.ServiceReader

open Syntax

/-- Reads one token of a service without layout. -/
def plain? (limit : Nat) (state : State) (token : Token) :
    Option (Step State ServiceIdl.Service) :=
  (read limit state token.plain).plain?

variable {limit : Nat} {service result : ServiceIdl.Service} {tokens : List Token}

/-! ### The head of a function -/

theorem plain?_resultType {head : Head} {state : TypeReader.State} {token : Token} :
    plain? limit ⟨service, .resultType head state⟩ token =
      (TypeReader.plain? limit state token).map
        (.inside (fun state => State.mk service (.resultType head state))
          fun type => .more ⟨service, .name head type.signature⟩) := by
  refine (Reading.plain?_lift _).trans (toOption_bind_inside _ _ fun step => ?_)
  cases step <;> rfl

theorem plain?_result_eq_some_iff {head : Head} {token : Token}
    {step : Step State ServiceIdl.Service} :
    plain? limit ⟨service, .result head⟩ token = some step ↔
      (token = .keyword .voidResult ∧ .more ⟨service, .name head "void"⟩ = step) ∨
      plain? limit ⟨service, .resultType head TypeReader.start⟩ token = some step := by
  -- The word for no result starts no type, so the two cases exclude each other.
  by_cases htoken : token = .keyword .voidResult
  · subst htoken
    have hnone : plain? limit ⟨service, .resultType head TypeReader.start⟩
        (.keyword .voidResult) = none := by
      rw [plain?_resultType, TypeReader.start, TypeReader.plain?_operand_eq_none rfl]
      rfl
    rw [hnone]
    simp [plain?, read, readResult, Keyword.text]
  · simp [plain?, read, readResult, htoken]

/-- A token that is no result is refused where one is expected. -/
theorem plain?_result_eq_none {head : Head} {token : Token}
    (hvoid : token ≠ .keyword .voidResult) (htype : TypeReader.startsType token = false) :
    plain? limit ⟨service, .result head⟩ token = none := by
  apply Option.eq_none_iff_forall_ne_some.2
  intro step h
  rcases plain?_result_eq_some_iff.1 h with ⟨htoken, _⟩ | h
  · exact hvoid htoken
  · rw [plain?_resultType, TypeReader.start, TypeReader.plain?_operand_eq_none htype] at h
    cases h

theorem accepts_result_iff {head : Head} :
    Accepts (plain? limit) (.more ⟨service, .result head⟩) tokens result ↔
      ∃ (type : Option TypeExpr) (rest : List Token) (returnType : String),
        tokens = type.elim [.keyword .voidResult] TypeExpr.tokens ++ rest ∧
          type.elim (some "void") (TypeExpr.signature? limit) = some returnType ∧
            Accepts (plain? limit) (.more ⟨service, .name head returnType⟩) rest result := by
  have htype {tokens : List Token} :
      Accepts (plain? limit) (.more ⟨service, .resultType head TypeReader.start⟩) tokens result ↔
        ∃ (type : TypeExpr) (rest : List Token), tokens = type.tokens ++ rest ∧
          type.depth ≤ limit ∧
            Accepts (plain? limit) (.more ⟨service, .name head type.signature⟩) rest result :=
    TypeReader.accepts_embedded_iff _ _ fun _ _ => plain?_resultType
  rw [accepts_iff_of_or fun _ _ => plain?_result_eq_some_iff, htype]
  constructor
  · rintro (⟨_, rest, _, rfl, ⟨rfl, rfl⟩, haccepts⟩ | ⟨type, rest, rfl, hdepth, haccepts⟩)
    · exact ⟨none, rest, "void", rfl, rfl, haccepts⟩
    · exact ⟨some type, rest, type.signature, rfl, if_pos hdepth, haccepts⟩
  · rintro ⟨_ | type, rest, returnType, rfl, hreturn, haccepts⟩
    · obtain rfl : "void" = returnType := Option.some.inj hreturn
      exact .inl ⟨_, rest, _, rfl, ⟨rfl, rfl⟩, haccepts⟩
    · have hsignature : type.depth ≤ limit ∧ type.signature = returnType := by
        simpa [TypeExpr.signature?] using hreturn
      obtain ⟨hdepth, rfl⟩ := hsignature
      exact .inr ⟨type, rest, rfl, hdepth, haccepts⟩

theorem plain?_function_eq_some_iff {token : Token} {step : Step State ServiceIdl.Service} :
    plain? limit ⟨service, .function⟩ token = some step ↔
      (token = .symbol .rightBrace ∧ .done service = step ∨
        token = .keyword .onewayMark ∧ .more ⟨service, .result ⟨true, ""⟩⟩ = step) ∨
      plain? limit ⟨service, .result ⟨false, ""⟩⟩ token = some step := by
  by_cases hbrace : token = .symbol .rightBrace
  · subst hbrace
    rw [plain?_result_eq_none (by simp) rfl]
    simp [plain?, read, readFunction]
  · by_cases honeway : token = .keyword .onewayMark
    · subst honeway
      rw [plain?_result_eq_none (by simp) rfl]
      simp [plain?, read, readFunction]
    · simp [plain?, read, readFunction, hbrace, honeway]

/-- A token that starts no function is refused behind a function. -/
theorem plain?_function_eq_none {token : Token} (hbrace : token ≠ .symbol .rightBrace)
    (honeway : token ≠ .keyword .onewayMark) (hvoid : token ≠ .keyword .voidResult)
    (htype : TypeReader.startsType token = false) :
    plain? limit ⟨service, .function⟩ token = none := by
  apply Option.eq_none_iff_forall_ne_some.2
  intro step h
  rcases plain?_function_eq_some_iff.1 h with (⟨htoken, _⟩ | ⟨htoken, _⟩) | hresult
  · exact hbrace htoken
  · exact honeway htoken
  · rw [plain?_result_eq_none hvoid htype] at hresult
    cases hresult

theorem accepts_function_iff :
    Accepts (plain? limit) (.more ⟨service, .function⟩) tokens result ↔
      (tokens = [.symbol .rightBrace] ∧ service = result) ∨
      ∃ (oneway : Bool) (rest : List Token),
        tokens = (if oneway then [.keyword .onewayMark] else []) ++ rest ∧
          Accepts (plain? limit) (.more ⟨service, .result ⟨oneway, ""⟩⟩) rest result := by
  rw [accepts_iff_of_or fun _ _ => plain?_function_eq_some_iff]
  constructor
  · rintro (⟨_, rest, _, rfl, ⟨rfl, rfl⟩ | ⟨rfl, rfl⟩, haccepts⟩ | haccepts)
    · obtain ⟨rfl, rfl⟩ := accepts_done_iff.1 haccepts
      exact .inl ⟨rfl, rfl⟩
    · exact .inr ⟨true, rest, rfl, haccepts⟩
    · exact .inr ⟨false, tokens, rfl, haccepts⟩
  · rintro (⟨rfl, rfl⟩ | ⟨_ | _, rest, rfl, haccepts⟩)
    · exact .inl ⟨_, [], _, rfl, .inl ⟨rfl, rfl⟩, accepts_done_iff.2 ⟨rfl, rfl⟩⟩
    · exact .inr haccepts
    · exact .inl ⟨_, rest, _, rfl, .inr ⟨rfl, rfl⟩, haccepts⟩

theorem accepts_name_iff {oneway : Bool} {docText returnType : String} :
    Accepts (plain? limit) (.more ⟨service, .name ⟨oneway, docText⟩ returnType⟩) tokens result ↔
      ∃ name rest, tokens = .identifier name :: rest ∧
        Accepts (plain? limit)
          (.more ⟨service, .openArguments ⟨name, oneway, returnType, [], [], docText⟩⟩)
          rest result :=
  accepts_iff_of_token fun token step => by simp [plain?, read]

/-! ### Arguments and exceptions -/

/-- A field list in parentheses. -/
theorem accepts_parenthesized_iff {opening : State} (wrap : FieldListReader.State → State)
    (next : List ServiceIdl.Field → Step State ServiceIdl.Service)
    (hopening : ∀ token step, plain? limit opening token = some step ↔
      token = .symbol .leftParen ∧ .more (wrap FieldListReader.start) = step)
    (hfields : ∀ state token, plain? limit (wrap state) token =
      (FieldListReader.plain? limit .rightParen state token).map (.inside wrap next)) :
    Accepts (plain? limit) (.more opening) tokens result ↔
      ∃ (entries : List Syntax.Field) (rest : List Token) (fields : List ServiceIdl.Field),
        tokens = parenthesized entries ++ rest ∧ fields? limit 1 entries = some fields ∧
          Accepts (plain? limit) (next fields) rest result := by
  rw [accepts_iff_of_symbol hopening]
  simp only [FieldListReader.accepts_embedded_iff (.inr rfl) wrap next hfields]
  constructor
  · rintro ⟨_, rfl, entries, rest, fields, rfl, hvalues, haccepts⟩
    exact ⟨entries, rest, fields, by simp [parenthesized], hvalues, haccepts⟩
  · rintro ⟨entries, rest, fields, rfl, hvalues, haccepts⟩
    exact ⟨_, by simp [parenthesized], entries, rest, fields, rfl, hvalues, haccepts⟩

theorem plain?_arguments {function : ServiceIdl.Function} {state : FieldListReader.State}
    {token : Token} :
    plain? limit ⟨service, .arguments function state⟩ token =
      (FieldListReader.plain? limit .rightParen state token).map
        (.inside (fun state => State.mk service (.arguments function state)) fun arguments =>
          .more ⟨service, .afterArguments { function with arguments }⟩) := by
  refine Reading.plain?_bind_of_pure fun step pending => ⟨pending, ?_⟩
  cases step <;> rfl

theorem plain?_throws {function : ServiceIdl.Function} {state : FieldListReader.State}
    {token : Token} :
    plain? limit ⟨service, .throws function state⟩ token =
      (FieldListReader.plain? limit .rightParen state token).map
        (.inside (fun state => State.mk service (.throws function state)) fun throws =>
          .more ⟨addFunction service { function with throws }, .separator⟩) := by
  apply Reading.plain?_bind_of_pure
  intro step pending
  cases step with
  | more fields => exact ⟨pending, rfl⟩
  | done throws => exact ⟨"", rfl⟩

theorem accepts_arguments_iff {name returnType docText : String} {oneway : Bool} :
    Accepts (plain? limit)
        (.more ⟨service, .openArguments ⟨name, oneway, returnType, [], [], docText⟩⟩)
        tokens result ↔
      ∃ (entries : List Syntax.Field) (rest : List Token) (arguments : List ServiceIdl.Field),
        tokens = parenthesized entries ++ rest ∧ fields? limit 1 entries = some arguments ∧
          Accepts (plain? limit)
            (.more ⟨service, .afterArguments ⟨name, oneway, returnType, arguments, [], docText⟩⟩)
            rest result :=
  accepts_parenthesized_iff (fun state => State.mk service
    (.arguments ⟨name, oneway, returnType, [], [], docText⟩ state)) _
    (fun token step => by simp [plain?, read]) fun _ _ => plain?_arguments

theorem accepts_throws_iff {function : ServiceIdl.Function} :
    Accepts (plain? limit) (.more ⟨service, .openThrows function⟩) tokens result ↔
      ∃ (entries : List Syntax.Field) (rest : List Token) (throws : List ServiceIdl.Field),
        tokens = parenthesized entries ++ rest ∧ fields? limit 1 entries = some throws ∧
          Accepts (plain? limit)
            (.more ⟨addFunction service { function with throws }, .separator⟩) rest result :=
  accepts_parenthesized_iff (fun state => State.mk service (.throws function state)) _
    (fun token step => by simp [plain?, read]) fun _ _ => plain?_throws

theorem accepts_separator_iff :
    Accepts (plain? limit) (.more ⟨service, .separator⟩) tokens result ↔
      ∃ (separator : Option Separator) (rest : List Token),
        tokens = optionTokens (fun separator => [separator.token]) separator ++ rest ∧
          Accepts (plain? limit) (.more ⟨service, .function⟩) rest result := by
  refine accepts_iff_of_separator (State.mk service .function) ?_ ?_
  · intro token
    simp only [plain?, read, readSeparator]
    split <;> rfl
  · intro separator
    cases separator <;> exact plain?_function_eq_none (by decide) (by decide) (by decide) rfl

private theorem plain?_afterArguments_eq_some_iff {function : ServiceIdl.Function} {token : Token}
    {step : Step State ServiceIdl.Service} :
    plain? limit ⟨service, .afterArguments function⟩ token = some step ↔
      (token = .keyword .throwsClause ∧ .more ⟨service, .openThrows function⟩ = step) ∨
      plain? limit ⟨addFunction service function, .separator⟩ token = some step := by
  -- The keyword starts no function, so it is not read where the next one may start.
  by_cases htoken : token = .keyword .throwsClause
  · subst htoken
    have hnone : plain? limit ⟨addFunction service function, .separator⟩
        (.keyword .throwsClause) = none := by
      have hfunction : plain? limit ⟨addFunction service function, .function⟩
          (.keyword .throwsClause) = none :=
        plain?_function_eq_none (by decide) (by decide) (by decide) rfl
      exact hfunction
    rw [hnone]
    simp [plain?, read]
  · simp [plain?, read, htoken]

/-- Behind the arguments a throws list may follow. -/
theorem accepts_afterArguments_iff {name returnType docText : String} {oneway : Bool}
    {arguments : List ServiceIdl.Field} :
    Accepts (plain? limit)
        (.more ⟨service, .afterArguments ⟨name, oneway, returnType, arguments, [], docText⟩⟩)
        tokens result ↔
      ∃ (clause : Option (List Syntax.Field)) (rest : List Token) (throws : List ServiceIdl.Field),
        tokens = optionTokens (fun entries => .keyword .throwsClause :: parenthesized entries)
          clause ++ rest ∧
        fields? limit 1 (clause.getD []) = some throws ∧
          Accepts (plain? limit)
            (.more ⟨addFunction service ⟨name, oneway, returnType, arguments, throws, docText⟩,
              .separator⟩) rest result := by
  rw [accepts_iff_of_or fun _ _ => plain?_afterArguments_eq_some_iff]
  constructor
  · rintro (⟨_, _, _, rfl, ⟨rfl, rfl⟩, haccepts⟩ | haccepts)
    · obtain ⟨entries, rest, throws, rfl, hvalues, hrest⟩ := accepts_throws_iff.1 haccepts
      exact ⟨some entries, rest, throws, rfl, hvalues, hrest⟩
    · exact ⟨none, tokens, [], rfl, rfl, haccepts⟩
  · rintro ⟨_ | entries, rest, throws, rfl, hvalues, haccepts⟩
    · obtain rfl : [] = throws := Option.some.inj hvalues
      exact .inr haccepts
    · refine .inl ⟨_, _, _, rfl, ⟨rfl, rfl⟩, accepts_throws_iff.2 ?_⟩
      exact ⟨entries, rest, throws, rfl, hvalues, haccepts⟩

/-! ### Whole services -/

/-- A service with one more function. -/
def addFunction? (limit : Nat) (service : ServiceIdl.Service) (function : Syntax.Function) :
    Option ServiceIdl.Service :=
  (function.value? limit).map (addFunction service)

theorem addFunction?_eq_some_iff {function : Syntax.Function} {service' : ServiceIdl.Service} :
    addFunction? limit service function = some service' ↔ ∃ returnType arguments throws,
      function.result.elim (some "void") (TypeExpr.signature? limit) = some returnType ∧
        fields? limit 1 function.arguments = some arguments ∧
          fields? limit 1 (function.throws.getD []) = some throws ∧
            addFunction service
              ⟨function.name, function.oneway, returnType, arguments, throws, ""⟩ = service' := by
  simp [addFunction?, Syntax.Function.value?, Option.bind_eq_some_iff]

/-- At the start of a function, the service is closed or one function is read. -/
theorem accepts_entry_iff :
    Accepts (plain? limit) (.more ⟨service, .function⟩) tokens result ↔
      (tokens = [.symbol .rightBrace] ∧ service = result) ∨
      ∃ (function : Syntax.Function) (rest : List Token) (service' : ServiceIdl.Service),
        tokens = function.tokens ++ rest ∧ addFunction? limit service function = some service' ∧
          Accepts (plain? limit) (.more ⟨service', .function⟩) rest result := by
  rw [accepts_function_iff]
  refine or_congr_right ⟨?_, ?_⟩
  -- Each part is read from where the part before it ends, and put back in reverse order.
  · rintro ⟨oneway, rest, rfl, hresult⟩
    obtain ⟨type, rest, returnType, rfl, hreturn, hname⟩ := accepts_result_iff.1 hresult
    obtain ⟨name, rest, rfl, harguments⟩ := accepts_name_iff.1 hname
    obtain ⟨fields, rest, arguments, rfl, hvalues, hthrows⟩ := accepts_arguments_iff.1 harguments
    obtain ⟨clause, rest, throws, rfl, hthrown, hseparator⟩ := accepts_afterArguments_iff.1 hthrows
    obtain ⟨separator, rest, rfl, hrest⟩ := accepts_separator_iff.1 hseparator
    refine ⟨⟨oneway, type, name, fields, clause, separator⟩, rest, _, ?_, ?_, hrest⟩
    · simp [Syntax.Function.tokens]
    · exact addFunction?_eq_some_iff.2
        ⟨returnType, arguments, throws, hreturn, hvalues, hthrown, rfl⟩
  · rintro ⟨⟨oneway, type, name, fields, clause, separator⟩, rest, _, rfl, hadd, hrest⟩
    obtain ⟨returnType, arguments, throws, hreturn, hvalues, hthrown, rfl⟩ :=
      addFunction?_eq_some_iff.1 hadd
    have hseparator := accepts_separator_iff.2 ⟨separator, rest, rfl, hrest⟩
    have hthrows := accepts_afterArguments_iff.2 ⟨clause, _, throws, rfl, hthrown, hseparator⟩
    have harguments := accepts_arguments_iff.2 ⟨fields, _, arguments, rfl, hvalues, hthrows⟩
    have hname := accepts_name_iff.2 ⟨name, _, rfl, harguments⟩
    have hresult := accepts_result_iff.2 ⟨type, _, returnType, rfl, hreturn, hname⟩
    exact ⟨oneway, _, by simp [Syntax.Function.tokens], hresult⟩

theorem foldlM_addFunction? (functions : List Syntax.Function) (service : ServiceIdl.Service) :
    functions.foldlM (addFunction? limit) service =
      (functions.mapM (Syntax.Function.value? limit)).map fun values =>
        { service with functions := service.functions ++ values } := by
  induction functions generalizing service with
  | nil => simp
  | cons function functions ih =>
    rw [List.foldlM_cons, addFunction?, List.mapM_cons]
    cases function.value? limit with
    | none => rfl
    | some value =>
      simp only [Option.map_some, Option.bind_eq_bind, Option.bind_some, ih]
      cases functions.mapM (Syntax.Function.value? limit) <;> simp [addFunction]

theorem accepts_opening_iff :
    Accepts (plain? limit) (.more ⟨service, .opening⟩) tokens result ↔
      ∃ rest, tokens = .symbol .leftBrace :: rest ∧
        Accepts (plain? limit) (.more ⟨service, .function⟩) rest result :=
  accepts_iff_of_symbol fun token step => by simp [plain?, read, readOpening]

theorem accepts_parent_iff {name docText : String} {functions : List ServiceIdl.Function} :
    Accepts (plain? limit) (.more ⟨⟨name, none, functions, docText⟩, .parent⟩) tokens result ↔
      ∃ parent rest, tokens = .identifier parent :: rest ∧
        Accepts (plain? limit) (.more ⟨⟨name, some parent, functions, docText⟩, .opening⟩)
          rest result :=
  accepts_iff_of_token fun token step => by simp [plain?, read]

theorem accepts_afterName_iff {name docText : String} {functions : List ServiceIdl.Function} :
    Accepts (plain? limit) (.more ⟨⟨name, none, functions, docText⟩, .afterName⟩) tokens result ↔
      ∃ (parent : Option String) (rest : List Token),
        tokens = optionTokens (fun parent => [.keyword .extendsClause, .identifier parent]) parent
          ++ .symbol .leftBrace :: rest ∧
        Accepts (plain? limit) (.more ⟨⟨name, parent, functions, docText⟩, .function⟩)
          rest result := by
  have hmark : Accepts (plain? limit) (.more ⟨⟨name, none, functions, docText⟩, .afterName⟩)
      tokens result ↔ ∃ (mark : Option Unit) (rest : List Token),
        tokens = optionTokens (fun _ => [.keyword .extendsClause]) mark ++ rest ∧
          Accepts (plain? limit) (.more ⟨⟨name, none, functions, docText⟩,
            mark.elim .opening fun _ => .parent⟩) rest result := by
    refine accepts_iff_of_option (fun mark => State.mk ⟨name, none, functions, docText⟩
      (mark.elim .opening fun _ => .parent)) fun token step => ?_
    by_cases htoken : token = .keyword .extendsClause
    · simp [plain?, read, readOpening, htoken]
    · simp [plain?, read, htoken]
  rw [hmark]
  constructor
  · rintro ⟨_ | _, rest, htokens, haccepts⟩
    · obtain ⟨rest, rfl, hrest⟩ := accepts_opening_iff.1 haccepts
      exact ⟨none, rest, htokens, hrest⟩
    · obtain ⟨parent, rest, rfl, hopening⟩ := accepts_parent_iff.1 haccepts
      obtain ⟨rest, rfl, hrest⟩ := accepts_opening_iff.1 hopening
      exact ⟨some parent, rest, htokens, hrest⟩
  · rintro ⟨_ | parent, rest, htokens, haccepts⟩
    · exact ⟨none, _, htokens, accepts_opening_iff.2 ⟨rest, rfl, haccepts⟩⟩
    · have hopening := accepts_opening_iff.2 ⟨rest, rfl, haccepts⟩
      exact ⟨some (), _, htokens, accepts_parent_iff.2 ⟨parent, _, rfl, hopening⟩⟩

/-- A service is read from behind its name up to the brace that closes it. -/
theorem accepts_iff {name docText : String} :
    Accepts (plain? limit) (.more (start name docText)) tokens result ↔
      ∃ (parent : Option String) (functions : List Syntax.Function)
          (values : List ServiceIdl.Function),
        tokens = optionTokens (fun parent => [.keyword .extendsClause, .identifier parent]) parent
          ++ braced (functions.flatMap Syntax.Function.tokens) ∧
        functions.mapM (Syntax.Function.value? limit) = some values ∧
          ⟨name, parent, values, docText⟩ = result := by
  have hne (function : Syntax.Function) : function.tokens ≠ [] := by
    simp [Syntax.Function.tokens]
  rw [start, accepts_afterName_iff]
  constructor
  · rintro ⟨parent, _, rfl, hentry⟩
    obtain ⟨functions, _, _, rfl, hfold, rfl, rfl⟩ :=
      (accepts_list_iff (fun service => State.mk service .function) hne
        fun _ _ => accepts_entry_iff).1 hentry
    rw [foldlM_addFunction?] at hfold
    obtain ⟨values, hvalues, rfl⟩ := Option.map_eq_some_iff.1 hfold
    exact ⟨parent, functions, values, rfl, hvalues, rfl⟩
  · rintro ⟨parent, functions, values, rfl, hvalues, rfl⟩
    refine ⟨parent, _, rfl, ?_⟩
    refine (accepts_list_iff (fun service => State.mk service .function) hne
      fun _ _ => accepts_entry_iff).2 ⟨functions, _, _, rfl, ?_, rfl, rfl⟩
    rw [foldlM_addFunction?, hvalues]
    rfl

/-- A service does not end with the input. -/
theorem plain?_endOfInput (state : State) : plain? limit state .endOfInput = none := by
  have hresult (service : ServiceIdl.Service) (head : Head) :
      plain? limit ⟨service, .result head⟩ .endOfInput = none :=
    plain?_result_eq_none (by decide) rfl
  have hfunction (service : ServiceIdl.Service) :
      plain? limit ⟨service, .function⟩ .endOfInput = none :=
    plain?_function_eq_none (by decide) (by decide) (by decide) rfl
  obtain ⟨service, phase⟩ := state
  cases phase with
  | function => exact hfunction service
  | result head => exact hresult service head
  | resultType head state =>
    rw [plain?_resultType, TypeReader.plain?_endOfInput]
    rfl
  | arguments function state =>
    rw [plain?_arguments, FieldListReader.plain?_endOfInput]
    rfl
  | afterArguments function => exact hfunction (addFunction service function)
  | throws function state =>
    rw [plain?_throws, FieldListReader.plain?_endOfInput]
    rfl
  | separator => exact hfunction service
  | _ => rfl

end ServiceIdl.ServiceReader
