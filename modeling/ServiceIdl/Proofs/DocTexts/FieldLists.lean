import ServiceIdl.Proofs.DocTexts.Functions

/-!
# The doc texts of fields

A field takes the doc comments that are pending at the colon behind its index, or at its first
token if it has none, and nothing is forgotten behind that token. So a doc comment that stands
further inside a field is pending in the next field of the list, and one that stands inside a
function in front of its arguments, or inside the last of them, in the field that comes next.
-/

namespace ServiceIdl

namespace Syntax

variable {limit : Nat} {docs : DocTexts} {place since : Nat} {document : ServiceIdl.Document}

/-! ### Field lists -/

/-- The fields of a list that starts at the place `first`, where doc comments are pending since
the place `since`. Each has the doc comments that the field in front of it does not use, and
those of its own up to the colon behind its index or in front of its first token. -/
def FieldListDocumented (docs : DocTexts) (first since : Nat) (fields : List Field)
    (values : List ServiceIdl.Field) : Prop :=
  ∀ {previous following : List Field} {field : Field}, fields = previous ++ field :: following →
    ∃ value, values[previous.length]? = some value ∧ value.name = field.name ∧
      value.docText = docs.between (sinceBehind Field.extent first since previous)
        (first + (previous.flatMap Field.tokens).length + field.extent.used)

theorem getElem?_of_fields?_eq_some {expected : Int} {fields : List Field}
    {values : List ServiceIdl.Field} (h : fields? limit expected fields = some values) {i : Nat}
    {field : Field} (hfield : fields[i]? = some field) :
    ∃ value least, values[i]? = some value ∧ field.value? limit least = some value := by
  induction fields generalizing expected values i with
  | nil => simp at hfield
  | cons first fields ih =>
    simp only [fields?, Option.bind_eq_bind, Option.bind_eq_some_iff] at h
    obtain ⟨value, hvalue, values, hvalues, ⟨⟩⟩ := h
    cases i with
    | zero =>
      obtain rfl : first = field := by simpa using hfield
      exact ⟨value, expected, rfl, hvalue⟩
    | succ i => exact ih hvalues (by simpa using hfield)

theorem fieldListDocumented_withDocs {expected : Int} {fields : List Field}
    {values : List ServiceIdl.Field} (h : fields? limit expected fields = some values) :
    FieldListDocumented docs place since fields
      (List.zipWith Field.withDoc values (fieldDocs docs place since fields)) := by
  rintro previous following field rfl
  -- The value and its doc text are found at the same place of the two lists.
  have hfield : (previous ++ field :: following)[previous.length]? = some field := by simp
  obtain ⟨value, least, hvalue, hleast⟩ := getElem?_of_fields?_eq_some h hfield
  refine ⟨value.withDoc _, ?_, ?_, rfl⟩
  · rw [List.getElem?_zipWith, hvalue, fieldDocs, getElem?_placed, lengthOf_fields]
    rfl
  · simp only [Field.value?, Option.bind_eq_bind, Option.bind_eq_some_iff] at hleast
    obtain ⟨_, _, _, _, ⟨⟩⟩ := hleast
    rfl

/-! ### Whole documents -/

theorem collects_structs : Collects (·.structs) (·.kind = .struct) where
  empty := rfl
  header _ _ _ _ := rfl
  definition := fun {_ _ _ _ _ _ definition} h => by
    cases definition <;>
    · simp only [Definition.addDocumented?, Option.bind_eq_bind, Option.bind_eq_some_iff] at h
      obtain ⟨value, _, ⟨⟩⟩ := h
      simp [Definition.kind]

theorem collects_exceptions : Collects (·.exceptions) (·.kind = .exception) where
  empty := rfl
  header _ _ _ _ := rfl
  definition := fun {_ _ _ _ _ _ definition} h => by
    cases definition <;>
    · simp only [Definition.addDocumented?, Option.bind_eq_bind, Option.bind_eq_some_iff] at h
      obtain ⟨value, _, ⟨⟩⟩ := h
      simp [Definition.kind]

namespace Document

/-- The doc texts of the fields of all structs and exceptions, and of the arguments and throws
lists of all functions. In a struct or exception, doc comments are pending since its name, in a
function since its first token, and in its throws list since the last argument uses some. -/
structure FieldsDocumented (tree : Document) (docs : DocTexts) (document : ServiceIdl.Document) :
    Prop where
  struct : ∀ {first last : List Definition} {name : String} {fields : List Field},
    tree.definitions = first ++ .struct name fields :: last →
      ∃ struct, document.structs[first.countP (·.kind = .struct)]? = some struct ∧
        struct.name = name ∧
          FieldListDocumented docs (tree.placeBehind first + 3) (tree.placeBehind first + 2) fields
            struct.fields
  exception : ∀ {first last : List Definition} {name : String} {fields : List Field},
    tree.definitions = first ++ .exception name fields :: last →
      ∃ struct, document.exceptions[first.countP (·.kind = .exception)]? = some struct ∧
        struct.name = name ∧
          FieldListDocumented docs (tree.placeBehind first + 3) (tree.placeBehind first + 2) fields
            struct.fields
  function : ∀ {first last : List Definition} {name : String} {parent : Option String}
    {previous following : List Function} {function : Function},
    tree.definitions = first ++ .service name parent (previous ++ function :: following) :: last →
      let place := tree.placeBehind first + (serviceHead name parent).length +
        (previous.flatMap Function.tokens).length
      let arguments := place + function.head.length + 1
      let throws := arguments + (function.arguments.flatMap Field.tokens).length + 3
      ∃ service value, document.services[first.countP Definition.isService]? = some service ∧
        service.name = name ∧ service.functions[previous.length]? = some value ∧
          value.name = function.name ∧
            FieldListDocumented docs arguments (place + 1) function.arguments value.arguments ∧
              FieldListDocumented docs throws
                (sinceBehind Field.extent arguments (place + 1) function.arguments)
                (function.throws.getD []) value.throws

theorem fieldsDocumented_of_documented? {tree : Document}
    (h : tree.documented? limit docs = some document) : tree.FieldsDocumented docs document where
  struct := by
    intro first last name fields htree
    obtain ⟨before, after, hstruct, hentry⟩ := collects_structs.exists_of_documented? h htree
    simp only [Definition.addDocumented?, Option.bind_eq_bind, Option.bind_eq_some_iff] at hstruct
    obtain ⟨values, hvalues, ⟨⟩⟩ := hstruct
    exact ⟨_, hentry rfl, rfl, fieldListDocumented_withDocs hvalues⟩
  exception := by
    intro first last name fields htree
    obtain ⟨before, after, hstruct, hentry⟩ := collects_exceptions.exists_of_documented? h htree
    simp only [Definition.addDocumented?, Option.bind_eq_bind, Option.bind_eq_some_iff] at hstruct
    obtain ⟨values, hvalues, ⟨⟩⟩ := hstruct
    exact ⟨_, hentry rfl, rfl, fieldListDocumented_withDocs hvalues⟩
  function := by
    intro first last name parent previous following function htree
    obtain ⟨before, after, hservice, hentry⟩ := collects_services.exists_of_documented? h htree
    obtain ⟨service, value, hafter, hname, hvalue, hfunction⟩ :=
      Definition.exists_service_of_addDocumented? hservice
    simp only [Function.value?, Option.bind_eq_bind, Option.bind_eq_some_iff] at hvalue
    obtain ⟨_, _, arguments, harguments, throws, hthrows, ⟨⟩⟩ := hvalue
    exact ⟨service, _, hentry hafter, hname, hfunction, rfl,
      fieldListDocumented_withDocs harguments, fieldListDocumented_withDocs hthrows⟩

end Document

end Syntax

/-! ### Texts -/

/-- The doc text of every field of a text, by what stands in front of the field. -/
theorem docTexts_of_fields {options : ParseOptions} {source : String} {document : Document}
    (h : parse options source = .ok document) :
    ∃ tree : Syntax.Document,
      tree.tokens = sentence (TokenStream.ofSource options source).tokens ∧
        tree.value? options.maxTypeDepth = some document.withoutDocTexts ∧
          tree.FieldsDocumented (docTextsOf (TokenStream.ofSource options source).tokens)
            document := by
  obtain ⟨tree, htokens, hvalue, hdocumented⟩ := exists_documented_of_parse_eq_ok h
  exact ⟨tree, htokens, hvalue, Syntax.Document.fieldsDocumented_of_documented? hdocumented⟩

/-- The comment behind the colon of the first field reaches the second. -/
theorem docTexts_of_fields_behind_colon :
    ∃ tree : Syntax.Document,
      tree.tokens = sentence
        (TokenStream.ofSource ⟨false, 64⟩ "struct S{1:i32/** x */a 2:i32 b}").tokens ∧
      tree.FieldsDocumented
        (docTextsOf (TokenStream.ofSource ⟨false, 64⟩ "struct S{1:i32/** x */a 2:i32 b}").tokens)
        { Document.empty with
          structs := [⟨"S", [⟨1, "a", "i32", none, false, ""⟩, ⟨2, "b", "i32", none, false, "x"⟩],
            ""⟩] } := by
  have hparse : parse ⟨false, 64⟩ "struct S{1:i32/** x */a 2:i32 b}" =
      .ok { Document.empty with
        structs := [⟨"S", [⟨1, "a", "i32", none, false, ""⟩, ⟨2, "b", "i32", none, false, "x"⟩],
          ""⟩] } := by
    decide +kernel
  obtain ⟨tree, htokens, _, hdocumented⟩ := docTexts_of_fields hparse
  exact ⟨tree, htokens, hdocumented⟩

/-- The comment `r` stands between the first token of the function and its parenthesis, and is
still pending at the first argument; the comment `t` stands inside that argument, and is still
pending at the second one. -/
theorem doc_comments_leak_inside_function :
    parse ⟨false, 64⟩ "service S{void/** r */f(1:i32/** t */a 2:i32 b)}" =
        .ok { Document.empty with
          services := [⟨"S", none, [⟨"f", false, "void",
            [⟨1, "a", "i32", none, false, "r"⟩, ⟨2, "b", "i32", none, false, "t"⟩], [], ""⟩],
            ""⟩] } ∧
      docTextsOf (TokenStream.ofSource ⟨false, 64⟩
        "service S{void/** r */f(1:i32/** t */a 2:i32 b)}").tokens 4 = "r" ∧
      docTextsOf (TokenStream.ofSource ⟨false, 64⟩
        "service S{void/** r */f(1:i32/** t */a 2:i32 b)}").tokens 9 = "t" ∧
      (sentence (TokenStream.ofSource ⟨false, 64⟩
        "service S{void/** r */f(1:i32/** t */a 2:i32 b)}").tokens).drop 3 =
          [.keyword .voidResult, .identifier "f", .symbol .leftParen, .number "1", .symbol .colon,
            .identifier "i32", .identifier "a", .number "2", .symbol .colon, .identifier "i32",
            .identifier "b", .symbol .rightParen, .symbol .rightBrace] := by
  decide +kernel

end ServiceIdl
