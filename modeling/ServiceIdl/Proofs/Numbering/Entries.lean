import Mathlib.Data.List.Forall2
import Mathlib.Data.List.Pairwise
import ServiceIdl.Document.Query
import ServiceIdl.Proofs.Grammar.Parsing
import ServiceIdl.Proofs.WellFormed.Texts

/-!
# The numbers of entries

The entries of a list get ascending numbers: an entry that states its number has this one, and
every other entry has the number behind that of the entry before it. In an enum a name that is
declared again keeps its last number only, which leaves the numbers ascending. So there is one
entry of each number, and in an enum one of each name.
-/

namespace ServiceIdl

/-! ### Lists of numbers -/

/-- The number behind the last one of a list, or else the least one. -/
def numberBehind (least : Int) (numbers : List Int32) : Int :=
  match numbers.getLast? with
  | none => least
  | some last => last.toInt + 1

theorem numberBehind_one (numbers : List Int32) :
    numberBehind 1 numbers = nextNumber numbers.getLast? := by
  rw [numberBehind]
  cases numbers.getLast? <;> rfl

theorem numberBehind_cons (least : Int) (number : Int32) (numbers : List Int32) :
    numberBehind least (number :: numbers) = numberBehind (number.toInt + 1) numbers := by
  rw [numberBehind, numberBehind, List.getLast?_cons]
  cases numbers.getLast? <;> rfl

/-- The numbers of entries from `least` on. Some entries state a number; the others get the
number behind the one before them. -/
structure IsNumbering (least : Int) (stated : List (Option String)) (numbers : List Int32) :
    Prop where
  length_eq : numbers.length = stated.length
  ascending : AscendFrom least numbers
  explicit : ∀ {i : Nat} {text : String} {number : Int32}, stated[i]? = some (some text) →
    numbers[i]? = some number → readInt? text.toList = some number.toInt
  implicit : ∀ {i : Nat} {number : Int32}, stated[i]? = some none → numbers[i]? = some number →
    number.toInt = numberBehind least (numbers.take i)

theorem isNumbering_nil (least : Int) : IsNumbering least [] [] where
  length_eq := rfl
  ascending := ascendFrom_nil least
  explicit := by simp
  implicit := by simp

theorem readInt?_of_number?_eq_some {expected : Int} {text : String} {number : Int32}
    (h : Syntax.number? expected (some text) = some number) :
    readInt? text.toList = some number.toInt ∧ expected ≤ number.toInt := by
  obtain ⟨hread, hexpected⟩ := Option.filter_eq_some_iff.1 h
  obtain ⟨value, hvalue, hnumber⟩ := Option.bind_eq_some_iff.1 hread
  rw [toInt_of_int32?_eq_some hnumber] at hexpected ⊢
  exact ⟨hvalue, of_decide_eq_true hexpected⟩

/-- The number of an entry goes in front of those of the entries behind it. -/
theorem IsNumbering.cons {least : Int} {entry : Option String} {number : Int32}
    {stated : List (Option String)} {numbers : List Int32}
    (hentry : Syntax.number? least entry = some number)
    (h : IsNumbering (number.toInt + 1) stated numbers) :
    IsNumbering least (entry :: stated) (number :: numbers) := by
  have hleast : least ≤ number.toInt := by
    cases entry with
    | none => exact Int.le_of_eq (toInt_of_int32?_eq_some hentry).symm
    | some text => exact (readInt?_of_number?_eq_some hentry).2
  refine ⟨by rw [List.length_cons, List.length_cons, h.length_eq],
    ascendFrom_cons.2 ⟨hleast, h.ascending⟩, ?_, ?_⟩
  · intro i text other hstated hother
    cases i with
    | zero =>
      obtain rfl : entry = some text := Option.some.inj hstated
      obtain rfl : number = other := Option.some.inj hother
      exact (readInt?_of_number?_eq_some hentry).1
    | succ i => exact h.explicit hstated hother
  · intro i other hstated hother
    cases i with
    | zero =>
      obtain rfl : entry = none := Option.some.inj hstated
      obtain rfl : number = other := Option.some.inj hother
      exact toInt_of_int32?_eq_some hentry
    | succ i =>
      rw [List.take_succ_cons, numberBehind_cons]
      exact h.implicit hstated hother

/-! ### Fields, functions and members -/

/-- The fields of a list have the numbers of their entries. -/
theorem isNumbering_of_fields? {limit : Nat} {least : Int} {entries : List Syntax.Field}
    {fields : List Field} (h : Syntax.fields? limit least entries = some fields) :
    IsNumbering least (entries.map (·.index)) (fields.map (·.index)) := by
  induction entries generalizing least fields with
  | nil =>
    obtain rfl := Option.some.inj h
    exact isNumbering_nil least
  | cons entry entries ih =>
    simp only [Syntax.fields?, Syntax.Field.value?, Option.bind_eq_bind,
      Option.bind_eq_some_iff] at h
    obtain ⟨field, ⟨index, hindex, signature, _, ⟨⟩⟩, fields, hfields, ⟨⟩⟩ := h
    exact .cons hindex (ih hfields)

/-- The members of an enum that were put in one after the other are those whose names are not
declared again. -/
theorem members_of_foldl_insert (declared : List EnumMember) (enum : Enum) :
    (declared.foldl (fun enum member => enum.insert member.name member.value) enum).members =
      enum.members.filter (fun member => ∀ other ∈ declared, member.name ≠ other.name) ++
        declared.pwFilter fun member other => member.name ≠ other.name := by
  induction declared generalizing enum with
  | nil => simp
  | cons first declared ih =>
    have hpositive : (∀ other ∈ declared.pwFilter fun member other => member.name ≠ other.name,
        first.name ≠ other.name) ↔ ∀ other ∈ declared, first.name ≠ other.name := by
      refine List.forall_mem_pwFilter ?_ first declared
      intro x y z hxz
      by_contra hboth
      obtain ⟨hxy, hyz⟩ := not_or.1 hboth
      exact hxz ((not_not.1 hxy).trans (not_not.1 hyz))
    have hkept : (enum.members.filter (·.name ≠ first.name)).filter
          (fun member => ∀ other ∈ declared, member.name ≠ other.name) =
        enum.members.filter
          fun member => ∀ other ∈ first :: declared, member.name ≠ other.name := by
      rw [List.filter_filter]
      refine List.filter_congr fun member _ => ?_
      simp [Bool.and_comm]
    have hlast (p : EnumMember → Bool) : [EnumMember.mk first.name first.value].filter p =
        if p first then [first] else [] := List.filter_cons
    rw [List.foldl_cons, ih, Enum.insert, List.filter_append, hkept, hlast, List.append_assoc]
    by_cases hdeclared : ∀ other ∈ declared, first.name ≠ other.name
    · rw [List.pwFilter_cons_of_pos (hpositive.2 hdeclared), if_pos (decide_eq_true hdeclared)]
      rfl
    · rw [List.pwFilter_cons_of_neg (mt hpositive.1 hdeclared), if_neg (by simpa using hdeclared)]
      rfl

/-- Every member that is declared has the number of its entry. -/
theorem foldl_insert_of_insertMembers? {least : Int} {entries : List Syntax.Member}
    {enum result : Enum} (h : Syntax.insertMembers? least enum entries = some result) :
    ∃ numbers, IsNumbering least (entries.map (·.number)) numbers ∧
      result = ((entries.zip numbers).map fun (entry, value) => ⟨entry.name, value⟩).foldl
        (fun enum (member : EnumMember) => enum.insert member.name member.value) enum := by
  induction entries generalizing least enum with
  | nil =>
    obtain rfl := Option.some.inj h
    exact ⟨[], isNumbering_nil least, rfl⟩
  | cons entry entries ih =>
    simp only [Syntax.insertMembers?, Option.bind_eq_bind, Option.bind_eq_some_iff] at h
    obtain ⟨number, hnumber, hrest⟩ := h
    obtain ⟨numbers, hnumbers, hresult⟩ := ih hrest
    exact ⟨number :: numbers, .cons hnumber hnumbers, hresult⟩

namespace Syntax

/-- The members that entries with these numbers declare. Of those with one name the last one
stays. -/
def declaredMembers (entries : List Member) (numbers : List Int32) : List EnumMember :=
  ((entries.zip numbers).map fun (entry, value) => EnumMember.mk entry.name value).pwFilter
    fun member other => member.name ≠ other.name

def EnumNumbered (entries : List Member) (enum : Enum) : Prop :=
  ∃ numbers, IsNumbering 1 (entries.map (·.number)) numbers ∧
    enum.members = declaredMembers entries numbers

def FieldsNumbered (entries : List Field) (fields : List ServiceIdl.Field) : Prop :=
  IsNumbering 1 (entries.map (·.index)) (fields.map (·.index))

def FunctionNumbered (entry : Function) (function : ServiceIdl.Function) : Prop :=
  FieldsNumbered entry.arguments function.arguments ∧
    FieldsNumbered (entry.throws.getD []) function.throws

theorem enumNumbered_of_insertMembers? {entries : List Member} {name docText : String}
    {enum : Enum} (h : insertMembers? 1 ⟨name, [], docText⟩ entries = some enum) :
    EnumNumbered entries enum := by
  obtain ⟨numbers, hnumbers, rfl⟩ := foldl_insert_of_insertMembers? h
  refine ⟨numbers, hnumbers, ?_⟩
  rw [members_of_foldl_insert]
  rfl

theorem functionNumbered_of_value? {limit : Nat} {entry : Function}
    {function : ServiceIdl.Function} (h : entry.value? limit = some function) :
    FunctionNumbered entry function := by
  simp only [Function.value?, Option.bind_eq_bind, Option.bind_eq_some_iff] at h
  obtain ⟨_, _, arguments, harguments, throws, hthrows, ⟨⟩⟩ := h
  exact ⟨isNumbering_of_fields? harguments, isNumbering_of_fields? hthrows⟩

theorem functionsNumbered_of_mapM {limit : Nat} {entries : List Function}
    {functions : List ServiceIdl.Function}
    (h : entries.mapM (Function.value? limit) = some functions) :
    List.Forall₂ FunctionNumbered entries functions := by
  induction entries generalizing functions with
  | nil =>
    obtain rfl := Option.some.inj h
    exact .nil
  | cons entry entries ih =>
    simp only [List.mapM_cons, Option.bind_eq_bind, Option.bind_eq_some_iff] at h
    obtain ⟨function, hfunction, functions, hfunctions, ⟨⟩⟩ := h
    exact .cons (functionNumbered_of_value? hfunction) (ih hfunctions)

/-! ### Documents -/

def Definition.enumMembers? : Definition → Option (List Member)
  | enum _ members => some members
  | _ => none

def Definition.structFields? : Definition → Option (List Field)
  | struct _ fields => some fields
  | _ => none

def Definition.exceptionFields? : Definition → Option (List Field)
  | exception _ fields => some fields
  | _ => none

def Definition.functions? : Definition → Option (List Function)
  | service _ _ functions => some functions
  | _ => none

/-- The numbers in the definitions of a document are those that the definitions of a derivation
give. -/
structure DefinitionsNumbered (definitions : List Definition) (document : ServiceIdl.Document) :
    Prop where
  enums : List.Forall₂ EnumNumbered (definitions.filterMap Definition.enumMembers?) document.enums
  structs : List.Forall₂ (fun entries struct => FieldsNumbered entries struct.fields)
    (definitions.filterMap Definition.structFields?) document.structs
  exceptions : List.Forall₂ (fun entries struct => FieldsNumbered entries struct.fields)
    (definitions.filterMap Definition.exceptionFields?) document.exceptions
  services : List.Forall₂
    (fun entries service => List.Forall₂ FunctionNumbered entries service.functions)
    (definitions.filterMap Definition.functions?) document.services

variable {limit : Nat} {definitions : List Definition} {document document' : ServiceIdl.Document}

theorem DefinitionsNumbered.addTo (h : DefinitionsNumbered definitions document)
    (header : Header) : DefinitionsNumbered definitions (header.addTo document) := by
  cases header <;> exact ⟨h.enums, h.structs, h.exceptions, h.services⟩

theorem definitionsNumbered_headers (headers : List Header) :
    DefinitionsNumbered [] (headers.foldl Header.addTo .empty) := by
  have hstart : DefinitionsNumbered [] .empty := ⟨.nil, .nil, .nil, .nil⟩
  exact List.foldlRecOn headers Header.addTo hstart fun document h header _ => h.addTo header

section

variable {α β : Type} {R : α → β → Prop} {part : Definition → Option α} {nodes : List β}
  {definition : Definition}

/-- A definition of another kind adds nothing. -/
theorem forall₂_filterMap_of_none (h : List.Forall₂ R (definitions.filterMap part) nodes)
    (hpart : part definition = none) :
    List.Forall₂ R ((definitions ++ [definition]).filterMap part) nodes := by
  rw [List.filterMap_append, List.filterMap_cons_none hpart, List.filterMap_nil, List.append_nil]
  exact h

theorem forall₂_filterMap_of_some (h : List.Forall₂ R (definitions.filterMap part) nodes)
    {entries : α} {node : β} (hpart : part definition = some entries) (hnode : R entries node) :
    List.Forall₂ R ((definitions ++ [definition]).filterMap part) (nodes ++ [node]) := by
  rw [List.filterMap_append, List.filterMap_cons_some hpart, List.filterMap_nil]
  exact List.rel_append h (.cons hnode .nil)

end

/-- A definition puts its own numbers behind the others of its kind. -/
theorem DefinitionsNumbered.addTo? (h : DefinitionsNumbered definitions document)
    {definition : Definition} (hadd : definition.addTo? limit document = some document') :
    DefinitionsNumbered (definitions ++ [definition]) document' := by
  have henums (hkind : definition.enumMembers? = none) :=
    forall₂_filterMap_of_none h.enums hkind
  have hstructs (hkind : definition.structFields? = none) :=
    forall₂_filterMap_of_none h.structs hkind
  have hexceptions (hkind : definition.exceptionFields? = none) :=
    forall₂_filterMap_of_none h.exceptions hkind
  have hservices (hkind : definition.functions? = none) :=
    forall₂_filterMap_of_none h.services hkind
  cases definition with
  | constant type name value =>
    obtain ⟨_, _, ⟨⟩⟩ := Option.bind_eq_some_iff.1 hadd
    exact ⟨henums rfl, hstructs rfl, hexceptions rfl, hservices rfl⟩
  | typedef type name =>
    obtain ⟨_, _, ⟨⟩⟩ := Option.bind_eq_some_iff.1 hadd
    exact ⟨henums rfl, hstructs rfl, hexceptions rfl, hservices rfl⟩
  | enum name members =>
    obtain ⟨enum, henum, ⟨⟩⟩ := Option.bind_eq_some_iff.1 hadd
    have hnumbered := enumNumbered_of_insertMembers? henum
    exact ⟨forall₂_filterMap_of_some h.enums rfl hnumbered, hstructs rfl, hexceptions rfl,
      hservices rfl⟩
  | struct name fields =>
    obtain ⟨values, hvalues, ⟨⟩⟩ := Option.bind_eq_some_iff.1 hadd
    have hnumbered := isNumbering_of_fields? hvalues
    exact ⟨henums rfl, forall₂_filterMap_of_some h.structs rfl hnumbered, hexceptions rfl,
      hservices rfl⟩
  | exception name fields =>
    obtain ⟨values, hvalues, ⟨⟩⟩ := Option.bind_eq_some_iff.1 hadd
    have hnumbered := isNumbering_of_fields? hvalues
    exact ⟨henums rfl, hstructs rfl, forall₂_filterMap_of_some h.exceptions rfl hnumbered,
      hservices rfl⟩
  | service name parent functions =>
    obtain ⟨values, hvalues, ⟨⟩⟩ := Option.bind_eq_some_iff.1 hadd
    have hnumbered := functionsNumbered_of_mapM hvalues
    exact ⟨henums rfl, hstructs rfl, hexceptions rfl,
      forall₂_filterMap_of_some h.services rfl hnumbered⟩

theorem DefinitionsNumbered.foldlM_addTo? {further : List Definition}
    (h : DefinitionsNumbered definitions document)
    (hadd : further.foldlM (Definition.addTo? limit) document = some document') :
    DefinitionsNumbered (definitions ++ further) document' := by
  induction further generalizing definitions document with
  | nil =>
    obtain rfl := Option.some.inj hadd
    rwa [List.append_nil]
  | cons definition further ih =>
    rw [List.foldlM_cons] at hadd
    obtain ⟨between, hdefinition, hrest⟩ := Option.bind_eq_some_iff.1 hadd
    have hfurther := ih (h.addTo? hdefinition) hrest
    rwa [List.append_assoc] at hfurther

/-- The numbers in a document that a derivation denotes are those of the derivation, whatever the
doc texts of the document are. -/
theorem Document.definitionsNumbered_of_value? {tree : Document}
    (h : tree.value? limit = some document.withoutDocTexts) :
    DefinitionsNumbered tree.definitions document := by
  obtain ⟨henums, hstructs, hexceptions, hservices⟩ :=
    (definitionsNumbered_headers tree.headers).foldlM_addTo? h
  have hfields {entries : List Field} {fields : List ServiceIdl.Field}
      (hnumbered : FieldsNumbered entries (fields.map (·.mapLayout .plain))) :
      FieldsNumbered entries fields := by
    rwa [FieldsNumbered, List.map_map] at hnumbered
  refine ⟨?_, ?_, ?_, ?_⟩
  · exact (List.forall₂_map_right_iff.1 henums).imp fun _ _ h => h
  · exact (List.forall₂_map_right_iff.1 hstructs).imp fun _ _ h => hfields h
  · exact (List.forall₂_map_right_iff.1 hexceptions).imp fun _ _ h => hfields h
  · refine (List.forall₂_map_right_iff.1 hservices).imp fun _ _ hfunctions => ?_
    refine (List.forall₂_map_right_iff.1 hfunctions).imp fun _ _ h => ?_
    exact ⟨hfields h.1, hfields h.2⟩

end Syntax

/-! ### Looking up -/

section

variable {α κ : Type}

/-- Where keys are distinct, every entry is found by its key. -/
theorem find?_eq_some_of_nodup [DecidableEq κ] (key : α → κ) {entries : List α}
    (h : (entries.map key).Nodup) {entry : α} (hmem : entry ∈ entries) :
    entries.find? (fun other => key other = key entry) = some entry := by
  induction entries with
  | nil => cases hmem
  | cons first entries ih =>
    rw [List.map_cons, List.nodup_cons] at h
    rcases List.mem_cons.1 hmem with rfl | hmem
    · exact List.find?_cons_of_pos (decide_eq_true rfl)
    · have hne : key first ≠ key entry := fun heq => h.1 (heq ▸ List.mem_map_of_mem hmem)
      rw [List.find?_cons_of_neg (by simpa using hne)]
      exact ih h.2 hmem

theorem exists_of_forall₂ {R : κ → α → Prop} {keys : List κ} {entries : List α}
    (h : List.Forall₂ R keys entries) {entry : α} (hmem : entry ∈ entries) :
    ∃ key, R key entry := by
  induction h with
  | nil => cases hmem
  | cons hfirst _ ih =>
    rcases List.mem_cons.1 hmem with rfl | hmem
    · exact ⟨_, hfirst⟩
    · exact ih hmem

end

theorem AscendFrom.nodup {least : Int} {numbers : List Int32} (h : AscendFrom least numbers) :
    numbers.Nodup := by
  refine h.ascending.imp fun hlt heq => ?_
  rw [heq] at hlt
  exact Int.lt_irrefl _ hlt

theorem AscendFrom.sublist {least : Int} {first second : List Int32}
    (h : AscendFrom least second) (hsublist : first.Sublist second) : AscendFrom least first :=
  ⟨fun number hnumber => h.least_le number (hsublist.subset hnumber),
    h.ascending.sublist hsublist⟩

/-- An index leads back to its field. -/
theorem Struct.fieldByIndex?_of_mem {least : Int} {struct : Struct}
    (h : AscendFrom least (struct.fields.map (·.index))) {field : Field}
    (hmem : field ∈ struct.fields) : struct.fieldByIndex? field.index = some field :=
  find?_eq_some_of_nodup Field.index h.nodup hmem

theorem Enum.valueOf?_of_mem {enum : Enum} (h : (enum.members.map (·.name)).Nodup)
    {member : EnumMember} (hmem : member ∈ enum.members) :
    enum.valueOf? member.name = some member.value := by
  rw [Enum.valueOf?, find?_eq_some_of_nodup EnumMember.name h hmem, Option.map_some]

/-- Members that are declared again leave the others ascending. -/
theorem Syntax.EnumNumbered.ascendFrom {entries : List Member} {enum : Enum}
    (h : EnumNumbered entries enum) :
    (enum.members.map (·.name)).Nodup ∧ AscendFrom 1 (enum.members.map (·.value)) := by
  obtain ⟨numbers, hnumbers, hmembers⟩ := h
  rw [hmembers]
  constructor
  · exact List.pairwise_map.2 (List.pairwise_pwFilter _)
  · refine hnumbers.ascending.sublist ?_
    have hvalues : ((entries.zip numbers).map fun (entry, value) =>
        EnumMember.mk entry.name value).map (·.value) = numbers := by
      have hlength : numbers.length ≤ entries.length := by
        rw [hnumbers.length_eq, List.length_map]
      rw [List.map_map]
      exact List.map_snd_zip hlength
    have hsublist : (declaredMembers entries numbers).Sublist _ := List.pwFilter_sublist _
    have hkept := hsublist.map EnumMember.value
    rwa [hvalues] at hkept

/-- The numbers of each list in a document ascend from one on, and look-ups lead back. -/
structure Document.NumbersAscend (document : Document) : Prop where
  fields : ∀ struct ∈ document.structs ++ document.exceptions,
    AscendFrom 1 (struct.fields.map (·.index)) ∧
      ∀ field ∈ struct.fields, struct.fieldByIndex? field.index = some field
  functions : ∀ service ∈ document.services, ∀ function ∈ service.functions,
    AscendFrom 1 (function.arguments.map (·.index)) ∧
      AscendFrom 1 (function.throws.map (·.index))
  enums : ∀ enum ∈ document.enums, (enum.members.map (·.name)).Nodup ∧
    AscendFrom 1 (enum.members.map (·.value)) ∧
      ∀ member ∈ enum.members, enum.valueOf? member.name = some member.value

theorem Syntax.DefinitionsNumbered.numbersAscend {definitions : List Definition}
    {document : ServiceIdl.Document} (h : DefinitionsNumbered definitions document) :
    document.NumbersAscend where
  fields struct hstruct := by
    have hnumbered : ∃ entries, FieldsNumbered entries struct.fields := by
      rcases List.mem_append.1 hstruct with hmem | hmem
      · exact exists_of_forall₂ h.structs hmem
      · exact exists_of_forall₂ h.exceptions hmem
    obtain ⟨entries, hindices⟩ := hnumbered
    exact ⟨hindices.ascending, fun field => Struct.fieldByIndex?_of_mem hindices.ascending⟩
  functions service hservice function hfunction := by
    obtain ⟨functions, hfunctions⟩ := exists_of_forall₂ h.services hservice
    obtain ⟨entry, harguments, hthrows⟩ := exists_of_forall₂ hfunctions hfunction
    exact ⟨harguments.ascending, hthrows.ascending⟩
  enums enum henum := by
    obtain ⟨entries, hentries⟩ := exists_of_forall₂ h.enums henum
    obtain ⟨hnames, hvalues⟩ := hentries.ascendFrom
    exact ⟨hnames, hvalues, fun member => Enum.valueOf?_of_mem hnames⟩

end ServiceIdl
