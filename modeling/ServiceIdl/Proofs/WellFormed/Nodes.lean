import ServiceIdl.Proofs.Parsing.Writing
import ServiceIdl.Proofs.WellFormed.Texts

/-!
# Well-formed nodes are those with a derivation

A derivation whose tokens can be written denotes a well-formed node, and for every
well-formed node there is such a derivation, which denotes it without its doc texts. The
derivation that is found states all numbers and leaves all separators out.
-/

namespace ServiceIdl

open Syntax (Literal Member fields? insertMembers? parenthesized)

variable {options : ParseOptions}

/-! ### Types and literals -/

theorem TypeExpr.isWritable_tokens_iff {strict : Bool} {type : TypeExpr} :
    IsWritable strict type.tokens ↔ type.HasIdentifiers := by
  induction type with
  | named name => simp [tokens, HasIdentifiers, Token.isLexeme_identifier_iff]
  | list element ih => simp [tokens, HasIdentifiers, ih]
  | set element ih => simp [tokens, HasIdentifiers, ih]
  | map key value ihkey ihvalue => simp [tokens, HasIdentifiers, ihkey, ihvalue]

theorem exists_type_iff (strict : Bool) {limit : Nat} {text : String} :
    (∃ type : TypeExpr, IsWritable strict type.tokens ∧ type.signature? limit = some text) ↔
      IsSignature limit text := by
  simp only [IsSignature, TypeExpr.isWritable_tokens_iff, TypeExpr.signature?_eq_some_iff]

/-! ### Fields -/

theorem isFieldList_nil (least : Int) : IsFieldList options least [] :=
  ⟨by simp, ascendFrom_nil least⟩

theorem isFieldList_cons {least : Int} {field : Field} {fields : List Field} :
    IsFieldList options least (field :: fields) ↔ field.WellFormed options ∧
      least ≤ field.index.toInt ∧ IsFieldList options (field.index.toInt + 1) fields := by
  constructor
  · rintro ⟨hwellFormed, hindices⟩
    obtain ⟨hfield, hfields⟩ := List.forall_mem_cons.1 hwellFormed
    obtain ⟨hleast, hindices⟩ := ascendFrom_cons.1 hindices
    exact ⟨hfield, hleast, hfields, hindices⟩
  · rintro ⟨hfield, hleast, hfields, hindices⟩
    exact ⟨List.forall_mem_cons.2 ⟨hfield, hfields⟩, ascendFrom_cons.2 ⟨hleast, hindices⟩⟩

theorem Syntax.Field.isWritable_tokens_iff {strict : Bool} {field : Syntax.Field} :
    IsWritable strict field.tokens ↔
      (∀ text ∈ field.index, (Token.number text).IsLexeme strict) ∧
        IsWritable strict field.type.tokens ∧ IsIdentifier field.name ∧
          ∀ literal ∈ field.default, literal.token.IsLexeme strict := by
  simp [tokens, Token.isLexeme_identifier_iff]

theorem Field.wellFormed_of_value? {expected : Int} (hexpected : 0 ≤ expected)
    {field : Syntax.Field} {value : Field}
    (hwritable : IsWritable options.strictNumbers field.tokens)
    (hvalue : field.value? options.maxTypeDepth expected = some value) :
    value.WellFormed options ∧ expected ≤ value.index.toInt := by
  obtain ⟨hindex, htype, hname, hdefault⟩ := Syntax.Field.isWritable_tokens_iff.1 hwritable
  simp only [Syntax.Field.value?, Option.bind_eq_bind, Option.bind_eq_some_iff] at hvalue
  obtain ⟨index, hnumber, signature, hsignature, ⟨⟩⟩ := hvalue
  refine ⟨⟨hname, (exists_type_iff options.strictNumbers).1 ⟨_, htype, hsignature⟩, ?_⟩,
    (exists_number?_iff options.strictNumbers hexpected).1 ⟨_, hindex, hnumber⟩⟩
  intro text htext
  obtain ⟨literal, hliteral, rfl⟩ := Option.map_eq_some_iff.1 htext
  exact isLiteral_iff.2 ⟨literal, rfl, hdefault literal hliteral⟩

theorem Field.exists_value? {expected : Int} (hexpected : 0 ≤ expected) {value : Field}
    (h : value.WellFormed options) (hindex : expected ≤ value.index.toInt) :
    ∃ field : Syntax.Field, IsWritable options.strictNumbers field.tokens ∧
      field.value? options.maxTypeDepth expected = some (value.mapLayout .plain) := by
  obtain ⟨index, name, type, defaultValue, required, docText⟩ := value
  obtain ⟨hname, htype, hdefault⟩ := h
  obtain ⟨number, hlexeme, hnumber⟩ := (exists_number?_iff options.strictNumbers hexpected).2 hindex
  obtain ⟨type, hwritable, hsignature⟩ :=
    (exists_type_iff options.strictNumbers).2 htype
  have hliteral : ∃ default : Option Literal,
      (∀ literal ∈ default, literal.token.IsLexeme options.strictNumbers) ∧
        default.map Literal.text = defaultValue := by
    cases defaultValue with
    | none => exact ⟨none, by simp, rfl⟩
    | some text =>
      obtain ⟨literal, rfl, hliteral⟩ := isLiteral_iff.1 (hdefault text rfl)
      exact ⟨some literal, by simpa using hliteral, rfl⟩
  obtain ⟨default, hliteral, rfl⟩ := hliteral
  refine ⟨⟨number, if required then some .required else none, type, name, default, none⟩, ?_, ?_⟩
  · exact Syntax.Field.isWritable_tokens_iff.2 ⟨hlexeme, hwritable, hname, hliteral⟩
  · cases required <;> simp [Syntax.Field.value?, hnumber, hsignature, Field.mapLayout,
      LayoutMap.plain]

theorem isFieldList_of_fields? {expected : Int} (hexpected : 0 ≤ expected)
    {fields : List Syntax.Field} {values : List Field}
    (hwritable : IsWritable options.strictNumbers (fields.flatMap Syntax.Field.tokens))
    (hvalues : fields? options.maxTypeDepth expected fields = some values) :
    IsFieldList options expected values := by
  induction fields generalizing expected values with
  | nil =>
    obtain rfl := Option.some.inj hvalues
    exact isFieldList_nil expected
  | cons field fields ih =>
    rw [List.flatMap_cons, isWritable_append] at hwritable
    simp only [fields?, Option.bind_eq_bind, Option.bind_eq_some_iff] at hvalues
    obtain ⟨value, hvalue, values, hvalues, ⟨⟩⟩ := hvalues
    obtain ⟨hwellFormed, hindex⟩ := Field.wellFormed_of_value? hexpected hwritable.1 hvalue
    exact isFieldList_cons.2 ⟨hwellFormed, hindex, ih (by omega) hwritable.2 hvalues⟩

theorem exists_fields? {expected : Int} (hexpected : 0 ≤ expected) {values : List Field}
    (h : IsFieldList options expected values) :
    ∃ fields : List Syntax.Field,
      IsWritable options.strictNumbers (fields.flatMap Syntax.Field.tokens) ∧
        fields? options.maxTypeDepth expected fields =
          some (values.map (·.mapLayout .plain)) := by
  induction values generalizing expected with
  | nil => exact ⟨[], isWritable_nil, rfl⟩
  | cons value values ih =>
    obtain ⟨hwellFormed, hindex, hvalues⟩ := isFieldList_cons.1 h
    obtain ⟨field, hfield, hvalue⟩ := Field.exists_value? hexpected hwellFormed hindex
    obtain ⟨fields, hfields, hrest⟩ := ih (by omega) hvalues
    refine ⟨field :: fields, isWritable_append.2 ⟨hfield, hfields⟩, ?_⟩
    have hnext : (value.mapLayout .plain).index = value.index := rfl
    simp [fields?, hvalue, hnext, hrest]

/-! ### Functions -/

theorem isWritable_parenthesized {strict : Bool} {fields : List Syntax.Field} :
    IsWritable strict (parenthesized fields) ↔
      IsWritable strict (fields.flatMap Syntax.Field.tokens) := by
  simp [parenthesized]

theorem Syntax.Function.isWritable_tokens_iff {strict : Bool} {function : Syntax.Function} :
    IsWritable strict function.tokens ↔
      (∀ type ∈ function.result, IsWritable strict type.tokens) ∧ IsIdentifier function.name ∧
        IsWritable strict (function.arguments.flatMap Syntax.Field.tokens) ∧
          ∀ fields ∈ function.throws,
            IsWritable strict (fields.flatMap Syntax.Field.tokens) := by
  have honeway : IsWritable strict (if function.oneway then [.keyword .onewayMark] else []) := by
    split <;> simp
  have hresult : IsWritable strict (function.result.elim [.keyword .voidResult] TypeExpr.tokens) ↔
      ∀ type ∈ function.result, IsWritable strict type.tokens := by
    cases function.result <;> simp
  simp [tokens, isWritable_parenthesized, honeway, hresult, Token.isLexeme_identifier_iff]

theorem Function.wellFormed_of_value? {function : Syntax.Function} {value : Function}
    (hwritable : IsWritable options.strictNumbers function.tokens)
    (hvalue : function.value? options.maxTypeDepth = some value) :
    value.WellFormed options := by
  obtain ⟨hresult, hname, harguments, hthrows⟩ :=
    Syntax.Function.isWritable_tokens_iff.1 hwritable
  simp only [Syntax.Function.value?, Option.bind_eq_bind, Option.bind_eq_some_iff] at hvalue
  obtain ⟨returnType, hreturn, arguments, hvalues, throws, hthrown, ⟨⟩⟩ := hvalue
  refine ⟨hname, ?_, isFieldList_of_fields? (by decide) harguments hvalues, ?_⟩
  · cases htype : function.result with
    | none =>
      rw [htype] at hreturn
      exact .inl (Option.some.inj hreturn).symm
    | some type =>
      rw [htype] at hreturn
      exact .inr ((exists_type_iff options.strictNumbers).1 ⟨type, hresult type htype, hreturn⟩)
  · cases hclause : function.throws with
    | none =>
      rw [hclause] at hthrown
      obtain rfl := Option.some.inj hthrown
      exact isFieldList_nil 1
    | some fields =>
      rw [hclause] at hthrown
      exact isFieldList_of_fields? (by decide) (hthrows fields hclause) hthrown

theorem Function.exists_value? {value : Function} (h : value.WellFormed options) :
    ∃ function : Syntax.Function, IsWritable options.strictNumbers function.tokens ∧
      function.value? options.maxTypeDepth = some (value.mapLayout .plain) := by
  obtain ⟨name, oneway, returnType, arguments, throws, docText⟩ := value
  obtain ⟨hname, hreturn, harguments, hthrows⟩ := h
  obtain ⟨argumentFields, harguments, hvalues⟩ := exists_fields? (by decide) harguments
  obtain ⟨throwsFields, hthrows, hthrown⟩ := exists_fields? (by decide) hthrows
  have hresult : ∃ result : Option TypeExpr,
      (∀ type ∈ result, IsWritable options.strictNumbers type.tokens) ∧
        result.elim (some "void") (TypeExpr.signature? options.maxTypeDepth) =
          some returnType := by
    rcases hreturn with rfl | hsignature
    · exact ⟨none, by simp, rfl⟩
    · obtain ⟨type, hwritable, hsignature⟩ := (exists_type_iff options.strictNumbers).2 hsignature
      exact ⟨some type, by simpa using hwritable, hsignature⟩
  obtain ⟨result, hwritable, hreturn⟩ := hresult
  refine ⟨⟨oneway, result, name, argumentFields, some throwsFields, none⟩, ?_, ?_⟩
  · refine Syntax.Function.isWritable_tokens_iff.2 ⟨hwritable, hname, harguments, ?_⟩
    simpa using hthrows
  · simp [Syntax.Function.value?, hreturn, hvalues, hthrown, Function.mapLayout, LayoutMap.plain]

theorem forall_wellFormed_of_mapM_value? {functions : List Syntax.Function}
    {values : List Function}
    (hwritable : IsWritable options.strictNumbers (functions.flatMap Syntax.Function.tokens))
    (hvalues : functions.mapM (Syntax.Function.value? options.maxTypeDepth) = some values) :
    ∀ value ∈ values, value.WellFormed options := by
  induction functions generalizing values with
  | nil =>
    obtain rfl := Option.some.inj hvalues
    simp
  | cons function functions ih =>
    rw [List.flatMap_cons, isWritable_append] at hwritable
    simp only [List.mapM_cons, Option.bind_eq_bind, Option.bind_eq_some_iff] at hvalues
    obtain ⟨value, hvalue, values, hvalues, ⟨⟩⟩ := hvalues
    have hfirst := Function.wellFormed_of_value? hwritable.1 hvalue
    exact List.forall_mem_cons.2 ⟨hfirst, ih hwritable.2 hvalues⟩

theorem exists_mapM_value? {values : List Function}
    (h : ∀ value ∈ values, value.WellFormed options) :
    ∃ functions : List Syntax.Function,
      IsWritable options.strictNumbers (functions.flatMap Syntax.Function.tokens) ∧
        functions.mapM (Syntax.Function.value? options.maxTypeDepth) =
          some (values.map (·.mapLayout .plain)) := by
  induction values with
  | nil => exact ⟨[], isWritable_nil, rfl⟩
  | cons value values ih =>
    obtain ⟨hfirst, hothers⟩ := List.forall_mem_cons.1 h
    obtain ⟨function, hfunction, hvalue⟩ := Function.exists_value? hfirst
    obtain ⟨functions, hfunctions, hvalues⟩ := ih hothers
    refine ⟨function :: functions, isWritable_append.2 ⟨hfunction, hfunctions⟩, ?_⟩
    simp [hvalue, hvalues]

/-! ### Members of enums -/

theorem Syntax.Member.isWritable_tokens_iff {strict : Bool} {member : Member} :
    IsWritable strict member.tokens ↔ IsIdentifier member.name ∧
      ∀ text ∈ member.number, (Token.number text).IsLexeme strict := by
  simp [tokens, Token.isLexeme_identifier_iff]

/-- A member whose number is greater than all others keeps an enum well formed. -/
theorem Enum.WellFormed.insert {enum : Enum} (h : enum.WellFormed) {name : String}
    (hname : IsIdentifier name) {value : Int32} (hpositive : 1 ≤ value.toInt)
    (hgreatest : ∀ member ∈ enum.members, member.value.toInt < value.toInt) :
    (enum.insert name value).WellFormed := by
  have hkept {member : EnumMember}
      (hmember : member ∈ enum.members.filter (·.name ≠ name)) :
      member ∈ enum.members ∧ member.name ≠ name := by
    simpa using List.mem_filter.1 hmember
  refine ⟨h.name, ?_, ?_, ?_, ?_⟩
  · simp only [Enum.insert, List.forall_mem_append, List.forall_mem_singleton]
    exact ⟨fun member hmember => h.memberNames member (hkept hmember).1, hname⟩
  · simp only [Enum.insert, List.map_append, List.map_singleton]
    refine List.nodup_append.2 ⟨?_, List.pairwise_singleton _ name, ?_⟩
    · exact h.distinct.sublist (List.filter_sublist.map _)
    · rintro _ hfirst _ hlast rfl
      obtain ⟨member, hmember, rfl⟩ := List.mem_map.1 hfirst
      exact (hkept hmember).2 (List.mem_singleton.1 hlast)
  · simp only [Enum.insert, List.map_append, List.map_singleton, List.forall_mem_append,
      List.forall_mem_map, List.forall_mem_singleton]
    refine ⟨fun member hmember => ?_, hpositive⟩
    exact h.values.least_le _ (List.mem_map_of_mem (hkept hmember).1)
  · simp only [Enum.insert, List.map_append, List.map_singleton]
    refine List.pairwise_append.2 ⟨?_, List.pairwise_singleton _ _, ?_⟩
    · exact h.values.ascending.sublist (List.filter_sublist.map _)
    · intro first hfirst last hlast
      obtain ⟨member, hmember, rfl⟩ := List.mem_map.1 hfirst
      rw [List.mem_singleton.1 hlast]
      exact hgreatest member (hkept hmember).1

theorem Enum.wellFormed_of_insertMembers? {expected : Int} {enum result : Enum}
    {members : List Member} (henum : enum.WellFormed) (hexpected : 1 ≤ expected)
    (hleast : ∀ member ∈ enum.members, member.value.toInt < expected)
    (hwritable : IsWritable options.strictNumbers (members.flatMap Member.tokens))
    (hvalues : insertMembers? expected enum members = some result) : result.WellFormed := by
  induction members generalizing expected enum with
  | nil =>
    obtain rfl := Option.some.inj hvalues
    exact henum
  | cons member members ih =>
    rw [List.flatMap_cons, isWritable_append] at hwritable
    obtain ⟨hname, hnumber⟩ := Syntax.Member.isWritable_tokens_iff.1 hwritable.1
    simp only [insertMembers?, Option.bind_eq_bind, Option.bind_eq_some_iff] at hvalues
    obtain ⟨value, hvalue, hvalues⟩ := hvalues
    have hle : expected ≤ value.toInt :=
      (exists_number?_iff options.strictNumbers (by omega)).1 ⟨member.number, hnumber, hvalue⟩
    have hgreatest : ∀ other ∈ enum.members, other.value.toInt < value.toInt := by
      intro other hother
      have := hleast other hother
      omega
    refine ih (henum.insert hname (by omega) hgreatest) (by omega) ?_ hwritable.2 hvalues
    simp only [Enum.insert, List.forall_mem_append, List.forall_mem_singleton]
    refine ⟨fun other hother => ?_, by omega⟩
    have := hgreatest other (List.mem_of_mem_filter hother)
    omega

theorem Enum.exists_insertMembers? {expected : Int} (hexpected : 0 ≤ expected) {enum : Enum}
    {members : List EnumMember} (hnames : ∀ member ∈ members, IsIdentifier member.name)
    (hdistinct : ((enum.members ++ members).map (·.name)).Nodup)
    (hvalues : AscendFrom expected (members.map (·.value))) :
    ∃ entries : List Member,
      IsWritable options.strictNumbers (entries.flatMap Member.tokens) ∧
        insertMembers? expected enum entries =
          some { enum with members := enum.members ++ members } := by
  induction members generalizing expected enum with
  | nil => exact ⟨[], isWritable_nil, by simp [insertMembers?]⟩
  | cons member members ih =>
    obtain ⟨hname, hnames⟩ := List.forall_mem_cons.1 hnames
    obtain ⟨hleast, hvalues⟩ := ascendFrom_cons.1 hvalues
    obtain ⟨number, hlexeme, hnumber⟩ :=
      (exists_number?_iff options.strictNumbers hexpected).2 hleast
    -- The name is new, so no earlier member goes away.
    have hnew : ∀ other ∈ enum.members, other.name ≠ member.name := by
      intro other hother
      rw [List.map_append, List.nodup_append] at hdistinct
      exact hdistinct.2.2 _ (List.mem_map_of_mem hother) _ (by simp)
    have hinsert : enum.insert member.name member.value =
        { enum with members := enum.members ++ [member] } := by
      have hfilter : enum.members.filter (·.name ≠ member.name) = enum.members :=
        List.filter_eq_self.2 fun other hother => by simpa using hnew other hother
      rw [Enum.insert, hfilter]
    have hdistinct' : (((enum.members ++ [member]) ++ members).map (·.name)).Nodup := by
      simpa using hdistinct
    obtain ⟨entries, hwritable, hentries⟩ : ∃ entries : List Member, _ ∧
        insertMembers? _ { enum with members := enum.members ++ [member] } entries = _ :=
      ih (by omega) hnames hdistinct' hvalues
    refine ⟨⟨member.name, number, none⟩ :: entries, ?_, ?_⟩
    · exact isWritable_append.2
        ⟨Syntax.Member.isWritable_tokens_iff.2 ⟨hname, hlexeme⟩, hwritable⟩
    · simp only [insertMembers?, hnumber, Option.bind_eq_bind, Option.bind_some, hinsert, hentries,
        List.append_assoc, List.singleton_append]

end ServiceIdl
