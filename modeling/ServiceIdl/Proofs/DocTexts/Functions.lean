import ServiceIdl.Proofs.DocTexts.Definitions

/-!
# The doc texts of functions

Where the doc comments for a function start depends on the function before it. Behind a throws
list without a separator, and behind a separator without a throws list, a function has the text
of the comments directly in front of it. In the other cases comments are lost, or are taken over
from places further ahead.
-/

namespace ServiceIdl

open Syntax

/-! ### What stands in front of a function -/

/-- The doc text of a function whose first token stands at `place`, by the function before it.
The first function gets all doc comments behind the name of the service. -/
def functionDocText (docs : DocTexts) (nameEnd place : Nat) : Option Syntax.Function → String
  | none => docs.between nameEnd (place + 1)
  | some previous =>
    match previous.throws, previous.separator with
    | none, none => ""
    | none, some _ => docs place
    | some _, none => docs place
    | some _, some _ => docs (place - 1) ++ docs place

/-- A function with its separator, which is one token. -/
theorem Syntax.Function.length_tokens (function : Syntax.Function) :
    function.tokens.length = { function with separator := none }.tokens.length +
      (if function.separator.isSome then 1 else 0) := by
  rw [function.tokens_eq, tokens_eq { function with separator := none }]
  cases function.separator <;> simp [optionTokens, head, Nat.add_assoc]

/-- The doc comments that are pending in front of the token behind a function. -/
theorem DocTexts.between_behind_function (docs : DocTexts) (function : Syntax.Function)
    (nameEnd place : Nat) :
    docs.between (place + function.extent.used) (place + function.tokens.length + 1) =
      functionDocText docs nameEnd (place + function.tokens.length) (some function) := by
  have hlength := function.length_tokens
  have hused : function.extent.used = { function with separator := none }.tokens.length +
    if function.throws.isSome then 0 else 1 := rfl
  generalize { function with separator := none }.tokens.length = signature at hlength hused
  rw [hlength, hused, functionDocText]
  cases function.throws with
  | none =>
    cases function.separator with
    | none => exact docs.between_self _
    | some separator => exact docs.between_one _
  | some throws =>
    cases function.separator with
    | none => exact docs.between_one _
    | some separator =>
      have hplace : place + signature ≤ place + signature + 1 := Nat.le_succ _
      exact (docs.between_succ hplace).trans (congrArg (· ++ _) (docs.between_one _))

theorem between_sinceBehind_functions (docs : DocTexts) (nameEnd first : Nat)
    (previous : List Syntax.Function) :
    docs.between (sinceBehind Syntax.Function.extent first nameEnd previous)
        (first + lengthOf Syntax.Function.extent previous + 1) =
      functionDocText docs nameEnd (first + lengthOf Syntax.Function.extent previous)
        previous.getLast? := by
  rcases List.eq_nil_or_concat previous with rfl | ⟨others, last, rfl⟩
  · rfl
  · have hlength : lengthOf Syntax.Function.extent (others.concat last) =
        lengthOf Syntax.Function.extent others + last.tokens.length := by
      simp [lengthOf_functions]
    rw [hlength, List.concat_eq_append, sinceBehind_concat, List.getLast?_concat, ← Nat.add_assoc]
    exact docs.between_behind_function last nameEnd _

/-! ### Where a function is found -/

theorem getElem?_of_mapM_eq_some {α β : Type} {f : α → Option β} {entries : List α}
    {values : List β} (h : entries.mapM f = some values) {i : Nat} {entry : α}
    (hentry : entries[i]? = some entry) :
    ∃ value, values[i]? = some value ∧ f entry = some value := by
  induction entries generalizing values i with
  | nil => simp at hentry
  | cons first entries ih =>
    simp only [List.mapM_cons, Option.bind_eq_bind, Option.bind_eq_some_iff] at h
    obtain ⟨value, hvalue, values, hvalues, ⟨⟩⟩ := h
    cases i with
    | zero =>
      obtain rfl : first = entry := by simpa using hentry
      exact ⟨value, rfl, hvalue⟩
    | succ i => exact ih hvalues (by simpa using hentry)

namespace Syntax

variable {limit : Nat} {docs : DocTexts} {place since : Nat}
  {document document' : ServiceIdl.Document}

def Definition.isService : Definition → Bool
  | service _ _ _ => true
  | _ => false

theorem collects_services : Collects (·.services) Definition.isService where
  empty := rfl
  header _ _ _ _ := rfl
  definition := fun {_ _ _ _ _ _ definition} h => by
    cases definition with
    | service name parent functions =>
      simp only [Definition.addDocumented?, Option.bind_eq_bind, Option.bind_eq_some_iff] at h
      obtain ⟨values, _, ⟨⟩⟩ := h
      exact ⟨_, rfl, rfl⟩
    | _ =>
      simp only [Definition.addDocumented?, Option.bind_eq_bind, Option.bind_eq_some_iff] at h
      obtain ⟨value, _, ⟨⟩⟩ := h
      exact ⟨[], (List.append_nil _).symm, rfl⟩

/-- The functions of a service that stands at `place`, each with its doc texts. -/
theorem Definition.exists_service_of_addDocumented? {name : String} {parent : Option String}
    {previous following : List Function} {function : Function}
    (h : (service name parent (previous ++ function :: following)).addDocumented? limit docs place
      since document = some document') :
    ∃ service value, document'.services = document.services ++ [service] ∧ service.name = name ∧
      function.value? limit = some value ∧
        let opening := place + (serviceHead name parent).length
        service.functions[previous.length]? =
          some (value.withDocs (function.docs docs
            (opening + (previous.flatMap Function.tokens).length)
            (sinceBehind Function.extent opening (place + 2) previous))) := by
  simp only [addDocumented?, Option.bind_eq_bind, Option.bind_eq_some_iff] at h
  obtain ⟨values, hvalues, ⟨⟩⟩ := h
  have hentry : (previous ++ function :: following)[previous.length]? = some function := by simp
  obtain ⟨value, hvalue, hfunction⟩ := getElem?_of_mapM_eq_some hvalues hentry
  refine ⟨_, value, rfl, rfl, hfunction, ?_⟩
  rw [List.getElem?_zipWith, hvalue, functionDocs, getElem?_placed, lengthOf_functions]

/-- The doc text of a function of a service that stands at `place`. -/
theorem Definition.exists_function_of_addDocumented? {name : String} {parent : Option String}
    {previous following : List Function} {function : Function}
    (h : (service name parent (previous ++ function :: following)).addDocumented? limit docs place
      since document = some document') :
    ∃ service value, document'.services = document.services ++ [service] ∧ service.name = name ∧
      service.functions[previous.length]? = some value ∧ value.name = function.name ∧
        value.docText = functionDocText docs (place + 2) (place + (serviceHead name parent).length +
          (previous.flatMap Function.tokens).length) previous.getLast? := by
  obtain ⟨service, value, hservices, hname, hvalue, hfunction⟩ :=
    Definition.exists_service_of_addDocumented? h
  refine ⟨service, _, hservices, hname, hfunction, ?_, ?_⟩
  · simp only [Function.value?, Option.bind_eq_bind, Option.bind_eq_some_iff] at hvalue
    obtain ⟨_, _, _, _, _, _, ⟨⟩⟩ := hvalue
    rfl
  · rw [← lengthOf_functions]
    exact between_sinceBehind_functions docs (place + 2) _ previous

/-- In the document every function of every service of a derivation has the doc text that the
comments and the function in front of it give it. -/
def Document.FunctionsDocumented (tree : Document) (docs : DocTexts)
    (document : ServiceIdl.Document) : Prop :=
  ∀ {first last : List Definition} {name : String} {parent : Option String}
    {previous following : List Function} {function : Function},
    tree.definitions = first ++ .service name parent (previous ++ function :: following) :: last →
    let place := (tree.headers.flatMap Header.tokens).length +
      (first.flatMap Definition.tokens).length
    ∃ service value, document.services[first.countP Definition.isService]? = some service ∧
      service.name = name ∧ service.functions[previous.length]? = some value ∧
        value.name = function.name ∧
          value.docText = functionDocText docs (place + 2)
            (place + (serviceHead name parent).length +
              (previous.flatMap Function.tokens).length) previous.getLast?

theorem Document.functionsDocumented_of_documented? {tree : Document}
    (h : tree.documented? limit docs = some document) :
    tree.FunctionsDocumented docs document := by
  intro first last name parent previous following function htree
  obtain ⟨before, after, hservice, hentry⟩ := collects_services.exists_of_documented? h htree
  obtain ⟨service, value, hafter, hname, hfunction⟩ :=
    Definition.exists_function_of_addDocumented? hservice
  exact ⟨service, value, hentry hafter, hname, hfunction⟩

end Syntax

/-! ### Texts -/

/-- The doc text of every function of a text, by what stands in front of the function. -/
theorem docTexts_of_functions {options : ParseOptions} {source : String} {document : Document}
    (h : parse options source = .ok document) :
    ∃ tree : Syntax.Document,
      tree.tokens = sentence (TokenStream.ofSource options source).tokens ∧
        tree.value? options.maxTypeDepth = some document.withoutDocTexts ∧
          tree.FunctionsDocumented (docTextsOf (TokenStream.ofSource options source).tokens)
            document := by
  obtain ⟨tree, htokens, hvalue, hdocumented⟩ := exists_documented_of_parse_eq_ok h
  exact ⟨tree, htokens, hvalue, Syntax.Document.functionsDocumented_of_documented? hdocumented⟩

/-- Behind a separator a function has its comment. -/
theorem docTexts_of_functions_behind_separator :
    ∃ tree : Syntax.Document,
      tree.tokens = sentence
        (TokenStream.ofSource ⟨false, 64⟩ "service S{void a();/** b */void b()}").tokens ∧
      tree.FunctionsDocumented
        (docTextsOf
          (TokenStream.ofSource ⟨false, 64⟩ "service S{void a();/** b */void b()}").tokens)
        { Document.empty with
          services := [⟨"S", none, [⟨"a", false, "void", [], [], ""⟩,
            ⟨"b", false, "void", [], [], "b"⟩], ""⟩] } := by
  have hparse : parse ⟨false, 64⟩ "service S{void a();/** b */void b()}" =
      .ok { Document.empty with
        services := [⟨"S", none, [⟨"a", false, "void", [], [], ""⟩,
          ⟨"b", false, "void", [], [], "b"⟩], ""⟩] } := by decide +kernel
  obtain ⟨tree, htokens, _, hdocumented⟩ := docTexts_of_functions hparse
  exact ⟨tree, htokens, hdocumented⟩

/-- The comment `b` stands in front of the second function, but is pending when the end of the
first one is found, and is forgotten there. -/
theorem doc_comment_lost_behind_function :
    parse ⟨false, 64⟩ "service S{void a()/** b */void b()}" =
        .ok { Document.empty with
          services := [⟨"S", none, [⟨"a", false, "void", [], [], ""⟩,
            ⟨"b", false, "void", [], [], ""⟩], ""⟩] } ∧
      docTextsOf (TokenStream.ofSource ⟨false, 64⟩ "service S{void a()/** b */void b()}").tokens 7 =
        "b" ∧
      (sentence (TokenStream.ofSource ⟨false, 64⟩
        "service S{void a()/** b */void b()}").tokens).drop 7 =
          [.keyword .voidResult, .identifier "b", .symbol .leftParen, .symbol .rightParen,
            .symbol .rightBrace] := by
  decide +kernel

end ServiceIdl
