import ServiceIdl.Proofs.Numbering.Expectations
import ServiceIdl.Proofs.Reading.TypeUse

/-!
# The entries of an open list

While a list of fields or the members of an enum are read, the tokens up to the one that is read
next end with the entries that are complete and with a part of the next one. So what an error says
of a number holds of the entries of its own list: the expected number is the one behind the last
entry, and an entry that gets no number stands behind an entry with the greatest one.

## Main definitions

- `OpensFields`, `EndsBehindEntries`: tokens that end behind the complete entries of an open list
- `ParseFault.HoldsOf`: what a fault says of a token and of the tokens in front of it
- `ParseError.HoldsIn`: the same of one of the tokens, which stands where the error does
- `FieldListReader.State.ReadBy`, `EnumReader.State.ReadBy`: the tokens that have been read
-/

namespace ServiceIdl

open Syntax (Separator Modifier Literal Member number? optionTokens)

/-! ### One more entry -/

theorem le_of_number?_eq_some {expected : Int} {stated : Option String} {number : Int32}
    (h : number? expected stated = some number) : expected ≤ number.toInt := by
  cases stated with
  | none => exact Int.le_of_eq (toInt_of_int32?_eq_some h).symm
  | some text => exact (readInt?_of_number?_eq_some h).2

/-- The number of an entry goes behind those of the entries in front of it. -/
theorem IsNumbering.concat {least : Int} {stated : List (Option String)} {numbers : List Int32}
    (h : IsNumbering least stated numbers) {entry : Option String} {number : Int32}
    (hentry : number? (numberBehind least numbers) entry = some number) :
    IsNumbering least (stated ++ [entry]) (numbers ++ [number]) := by
  have hlength := h.length_eq
  -- An entry is the last one, or it is among the ones in front.
  have hcases {i : Nat} {other : Option String} {found : Int32}
      (hstated : (stated ++ [entry])[i]? = some other)
      (hfound : (numbers ++ [number])[i]? = some found) :
      (i < numbers.length ∧ stated[i]? = some other ∧ numbers[i]? = some found) ∨
        (i = numbers.length ∧ entry = other ∧ number = found) := by
    rcases Nat.lt_or_ge i numbers.length with hi | hi
    · rw [List.getElem?_append_left (hlength ▸ hi)] at hstated
      rw [List.getElem?_append_left hi] at hfound
      exact .inl ⟨hi, hstated, hfound⟩
    · have hbound := (List.getElem?_eq_some_iff.1 hfound).1
      rw [List.length_append, List.length_singleton] at hbound
      obtain rfl : i = numbers.length := by omega
      rw [hlength, List.getElem?_concat_length] at hstated
      rw [List.getElem?_concat_length] at hfound
      exact .inr ⟨rfl, Option.some.inj hstated, Option.some.inj hfound⟩
  refine ⟨by simp [hlength], ascendFrom_concat.2 ⟨h.ascending, le_of_number?_eq_some hentry⟩,
    fun hstated hfound => ?_, fun {i} found hstated hfound => ?_⟩
  · rcases hcases hstated hfound with ⟨_, hstated, hfound⟩ | ⟨_, rfl, rfl⟩
    · exact h.explicit hstated hfound
    · exact (readInt?_of_number?_eq_some hentry).1
  · rcases hcases hstated hfound with ⟨hi, hstated, hfound⟩ | ⟨rfl, rfl, rfl⟩
    · rw [List.take_append_of_le_length (Nat.le_of_lt hi)]
      exact h.implicit hstated hfound
    · rw [List.take_left]
      exact toInt_of_int32?_eq_some hentry

theorem IsNumbering.entries_ne_nil {α : Type} {stated : α → Option String} {entries : List α}
    {least : Int} {numbers : List Int32} (h : IsNumbering least (entries.map stated) numbers)
    (hne : numbers ≠ []) : entries ≠ [] := by
  rintro rfl
  exact hne (List.length_eq_zero_iff.1 h.length_eq)

/-! ### Open lists -/

/-- The tokens open a list of fields: the body of a struct or an exception, the arguments of a
function, or the exceptions that it throws. -/
inductive OpensFields : List Token → Prop where
  | struct (name : String) :
      OpensFields [.keyword .structDef, .identifier name, .symbol .leftBrace]
  | exception (name : String) :
      OpensFields [.keyword .exceptionDef, .identifier name, .symbol .leftBrace]
  | arguments (name : String) : OpensFields [.identifier name, .symbol .leftParen]
  | throws : OpensFields [.keyword .throwsClause, .symbol .leftParen]

/-- The tokens end behind the complete entries of a list that is still open. The entries have the
given numbers, and the last one has the given separator. -/
inductive EndsBehindEntries : IndexKind → List Token → List Int32 → Option Separator → Prop where
  | fields (before : List Token) {opening : List Token} {entries : List Syntax.Field}
      {numbers : List Int32} (hopening : OpensFields opening)
      (hnumbers : IsNumbering 1 (entries.map (·.index)) numbers) :
      EndsBehindEntries .field (before ++ opening ++ entries.flatMap Syntax.Field.tokens) numbers
        (entries.getLast?.bind (·.separator))
  | members (before : List Token) (name : String) {entries : List Member} {numbers : List Int32}
      (hnumbers : IsNumbering 1 (entries.map (·.number)) numbers) :
      EndsBehindEntries .enumValue
        (before ++ [.keyword .enumDef, .identifier name, .symbol .leftBrace] ++
          entries.flatMap Member.tokens) numbers (entries.getLast?.bind (·.separator))

namespace EndsBehindEntries

variable {kind : IndexKind} {tokens : List Token} {numbers : List Int32}
  {separator : Option Separator} {number : Int32}

/-- Behind the opening tokens of a list there is no entry yet. -/
theorem of_opensFields (before : List Token) {opening : List Token} (h : OpensFields opening) :
    EndsBehindEntries .field (before ++ opening) [] none := by
  have hnumbers : IsNumbering 1 (([] : List Syntax.Field).map (·.index)) [] := isNumbering_nil 1
  simpa using fields before h hnumbers

theorem of_enum (before : List Token) (name : String) :
    EndsBehindEntries .enumValue
      (before ++ [.keyword .enumDef, .identifier name, .symbol .leftBrace]) [] none := by
  have hnumbers : IsNumbering 1 (([] : List Member).map (·.number)) [] := isNumbering_nil 1
  simpa using members before name hnumbers

theorem ascending (h : EndsBehindEntries kind tokens numbers separator) :
    AscendFrom 1 numbers := by
  cases h with
  | fields before hopening hnumbers => exact hnumbers.ascending
  | members before name hnumbers => exact hnumbers.ascending

theorem concat_field (h : EndsBehindEntries .field tokens numbers separator)
    (entry : Syntax.Field) (hnumber : number? (numberBehind 1 numbers) entry.index = some number) :
    EndsBehindEntries .field (tokens ++ entry.tokens) (numbers ++ [number]) entry.separator := by
  cases h with
  | @fields before opening entries _ hopening hnumbers =>
    have hconcat : IsNumbering 1 ((entries ++ [entry]).map (·.index)) (numbers ++ [number]) := by
      rw [List.map_append]
      exact hnumbers.concat hnumber
    simpa using fields before hopening hconcat

theorem concat_member (h : EndsBehindEntries .enumValue tokens numbers separator)
    (entry : Member) (hnumber : number? (numberBehind 1 numbers) entry.number = some number) :
    EndsBehindEntries .enumValue (tokens ++ entry.tokens) (numbers ++ [number])
      entry.separator := by
  cases h with
  | @members before name entries _ hnumbers =>
    have hconcat : IsNumbering 1 ((entries ++ [entry]).map (·.number)) (numbers ++ [number]) := by
      rw [List.map_append]
      exact hnumbers.concat hnumber
    simpa using members before name hconcat

/-- A separator behind an entry without one is that of the entry. -/
theorem concat_separator (h : EndsBehindEntries kind tokens numbers none) (hne : numbers ≠ [])
    (separator : Separator) :
    EndsBehindEntries kind (tokens ++ [separator.token]) numbers (some separator) := by
  generalize hnone : none = last at h
  cases h with
  | @fields before opening entries _ hopening hnumbers =>
    obtain ⟨front, entry, rfl⟩ : ∃ front entry, entries = front ++ [entry] :=
      ⟨_, _, (List.dropLast_concat_getLast (hnumbers.entries_ne_nil hne)).symm⟩
    have hseparator : entry.separator = none := by simpa using hnone.symm
    have hnumbers' : IsNumbering 1 ((front ++
        [{ entry with separator := some separator }]).map Syntax.Field.index) numbers := by
      simpa using hnumbers
    have hends := fields before hopening hnumbers'
    simpa [Syntax.Field.tokens, optionTokens, hseparator] using hends
  | @members before name entries _ hnumbers =>
    obtain ⟨front, entry, rfl⟩ : ∃ front entry, entries = front ++ [entry] :=
      ⟨_, _, (List.dropLast_concat_getLast (hnumbers.entries_ne_nil hne)).symm⟩
    have hseparator : entry.separator = none := by simpa using hnone.symm
    have hnumbers' : IsNumbering 1
        ((front ++ [{ entry with separator := some separator }]).map Member.number) numbers := by
      simpa using hnumbers
    have hends := members before name hnumbers'
    simpa [Member.tokens, optionTokens, hseparator] using hends

end EndsBehindEntries

/-! ### What errors say -/

/-- What stands in an entry in front of the number that it states. -/
def IndexKind.InFrontOfNumber : IndexKind → List Token → Prop
  | .field, front => front = []
  | .enumValue, front => ∃ name, front = [.identifier name, .symbol .assign]

/-- What a fault says holds of a token and of the tokens in front of it. -/
def ParseFault.HoldsOf (limit : Nat) (tokens : List Token) (token : Token) : ParseFault → Prop
  | unexpectedToken _ found => found = token.displayName
  | indexOutOfOrder kind value expected =>
    (∃ text, token = .number text ∧ readInt32? text.toList = some value) ∧
      1 ≤ expected ∧ expected ≤ 2147483648 ∧ value.toInt < expected ∧
      ∃ before front numbers separator, tokens = before ++ front ∧ kind.InFrontOfNumber front ∧
        EndsBehindEntries kind before numbers separator ∧ expected = nextNumber numbers.getLast?
  | invalidInteger text =>
    (token = .number text ∧ readInt32? text.toList = none) ∨
      text = "2147483648" ∧ ∃ kind numbers separator,
        EndsBehindEntries kind tokens numbers separator ∧ numbers.getLast? = some 2147483647 ∧
          (separator = none → ∀ other : Separator, token ≠ other.token)
  | typeTooDeep depth =>
    depth = limit ∧
      (token = .keyword .listType ∨ token = .keyword .setType ∨ token = .keyword .mapType)
  | lexical _ => False

/-- What an error says holds of one of the tokens, and the error stands where this one does. -/
def ParseError.HoldsIn (limit : Nat) (tokens : List SpannedToken) (e : ParseError) : Prop :=
  ∃ first t rest, tokens = first ++ t :: rest ∧ t.span = e.span ∧
    e.fault.HoldsOf limit (first.map (·.token)) t.token

variable {limit : Nat} {tokens before part rest : List SpannedToken} {t : SpannedToken}

theorem holdsIn_unexpected (expected : String) :
    (t.unexpected expected).HoldsIn limit (tokens ++ [t]) :=
  ⟨tokens, t, [], rfl, rfl, rfl⟩

theorem holdsIn_typeTooDeep (h : (TypeReader.Hole.ofToken? t.token).isSome = true) :
    ParseError.HoldsIn limit (tokens ++ [t]) ⟨.typeTooDeep limit, t.span⟩ := by
  obtain ⟨hole, hhole⟩ := Option.isSome_iff_exists.1 h
  exact ⟨tokens, t, [], rfl, rfl, rfl, TypeReader.isContainer_of_ofToken? hhole⟩

theorem SpannedToken.isSeparator_iff {t : SpannedToken} :
    t.isSeparator = true ↔ ∃ separator : Separator, t.token = separator.token := by
  rw [← isSeparator_plain_iff]
  rfl

section

variable {kind : IndexKind} {numbers : List Int32} {separator : Option Separator}

/-- The number that an entry states goes on with those of the entries in front of it. -/
theorem ensures_explicitNumber_holdsIn {front behind : List Token}
    (h : EndsBehindEntries kind front numbers separator)
    (htokens : tokens.map (·.token) = front ++ behind) (hbehind : kind.InFrontOfNumber behind) :
    Ensures (fun number => ∃ text, t.token = .number text ∧
        number? (numberBehind 1 numbers) (some text) = some number)
      (ParseError.HoldsIn limit (tokens ++ t :: rest))
      (explicitNumber kind (numberBehind 1 numbers) t) := by
  unfold explicitNumber
  split
  · next text htoken =>
    split
    · next hread => exact ⟨tokens, t, rest, rfl, rfl, .inl ⟨htoken, hread⟩⟩
    · next value hread =>
      by_cases horder : value.toInt < numberBehind 1 numbers
      · rw [if_pos horder]
        obtain ⟨hleast, hgreatest⟩ := h.ascending.numberBehind_bounds
        exact ⟨tokens, t, rest, rfl, rfl, ⟨text, htoken, hread⟩, hleast, hgreatest, horder,
          front, behind, numbers, separator, htokens, hbehind, h, numberBehind_one numbers⟩
      · rw [if_neg horder]
        refine ⟨text, htoken, Option.filter_eq_some_iff.2 ⟨hread, ?_⟩⟩
        exact decide_eq_true (Int.not_lt.1 horder)
  · exact ⟨tokens, t, rest, rfl, rfl, rfl⟩

/-- An entry that states no number gets the one behind the last, if there is one. -/
theorem ensures_implicitNumber_holdsIn
    (h : EndsBehindEntries kind (tokens.map (·.token)) numbers separator)
    (hfirst : numbers ≠ [] → separator = none → ¬t.isSeparator = true) :
    Ensures (fun number => number? (numberBehind 1 numbers) none = some number)
      (ParseError.HoldsIn limit (tokens ++ t :: rest))
      (implicitNumber (numberBehind 1 numbers) t.span) := by
  unfold implicitNumber
  split
  · next value hvalue => exact hvalue
  · next hnone =>
    obtain ⟨hleast, hgreatest⟩ := h.ascending.numberBehind_bounds
    have hbehind := int32?_eq_none hleast hgreatest hnone
    -- The number behind the last one is too great, so there is a last one, and it is the greatest.
    obtain ⟨last, hlast⟩ : ∃ last, numbers.getLast? = some last := by
      refine Option.ne_none_iff_exists'.1 fun hempty => ?_
      rw [numberBehind, hempty] at hbehind
      cases hbehind
    have hgreatest : last = 2147483647 := by
      rw [numberBehind, hlast] at hbehind
      refine Int32.toInt_inj.1 ?_
      change last.toInt = 2147483647
      simp only at hbehind
      omega
    have hne : numbers ≠ [] := by
      rintro rfl
      cases hlast
    rw [hbehind]
    exact ⟨tokens, t, rest, rfl, rfl, .inr ⟨rfl, kind, numbers, separator, h, hgreatest ▸ hlast,
      fun hnone other htoken => hfirst hne hnone (SpannedToken.isSeparator_iff.2 ⟨other, htoken⟩)⟩⟩

end

theorem TypeReader.ensures_read_holdsIn {state : State} {opened : List Token}
    (h : state.ReadBy opened) :
    Ensures (ReadBehind (opened ++ [t.token])) (ParseError.HoldsIn limit (tokens ++ [t]))
      (read limit state t) :=
  .of_parts (ensures_read_readBehind h) (ensures_read holdsIn_unexpected holdsIn_typeTooDeep state)

/-! ### Lists of fields -/

namespace FieldListReader

/-- The tokens of a field in front of its type. -/
def headTokens (stated : Option String) (modifier : Option Modifier) : List Token :=
  optionTokens (fun text => [.number text, .symbol .colon]) stated ++
    optionTokens (fun modifier => [modifier.token]) modifier

/-- Of a field with an index of at least `expected` exactly the given tokens have been read. -/
def Phase.ReadBy (expected : Int) (part : List SpannedToken) : Phase → Prop
  | .start => part = []
  | .colon number => part = [number]
  | .modifier index _ => ∃ text, number? expected (some text) = some index ∧
      part.map (·.token) = headTokens (some text) none
  | .type head state => ∃ stated modifier opened, number? expected stated = some head.index ∧
      state.ReadBy opened ∧ part.map (·.token) = headTokens stated modifier ++ opened
  | .name head _ => ∃ (stated : Option String) (modifier : Option Modifier) (type : TypeExpr),
      number? expected stated = some head.index ∧
        part.map (·.token) = headTokens stated modifier ++ type.tokens
  | .afterName field => ∃ entry : Syntax.Field, number? expected entry.index = some field.index ∧
      entry.default = none ∧ entry.separator = none ∧ part.map (·.token) = entry.tokens
  | .value field => ∃ entry : Syntax.Field, number? expected entry.index = some field.index ∧
      entry.default = none ∧ entry.separator = none ∧
        part.map (·.token) = entry.tokens ++ [.symbol .assign]
  | .separator field => ∃ entry : Syntax.Field, number? expected entry.index = some field.index ∧
      entry.separator = none ∧ part.map (·.token) = entry.tokens

/-- The tokens that have been read end with the complete fields and with the part of the next one.
Another field can begin only behind a separator, or behind the opening bracket. -/
def State.ReadBy (tokens : List SpannedToken) (state : State) : Prop :=
  ∃ before part separator, before ++ part = tokens ∧
    EndsBehindEntries .field (before.map (·.token)) (state.fields.map (·.index)) separator ∧
    state.phase.ReadBy (numberBehind 1 (state.fields.map (·.index))) part ∧
    (state.phase = .start → state.fields ≠ [] → separator ≠ none)

variable {closer : Symbol} {fields : List Field} {separator : Option Separator}

theorem readBy_start {opening : List Token} (hopening : OpensFields opening)
    (h : opening <:+ tokens.map (·.token)) : start.ReadBy tokens := by
  obtain ⟨before, htokens⟩ := h
  have hends := EndsBehindEntries.of_opensFields before hopening
  rw [htokens] at hends
  exact ⟨tokens, [], none, List.append_nil tokens, hends, rfl, fun _ hne => absurd rfl hne⟩

section

variable (h : EndsBehindEntries .field (before.map (·.token)) (fields.map (·.index)) separator)

include h

theorem ensures_readType_readBy {head : Head} {type : TypeReader.State} {stated : Option String}
    {modifier : Option Modifier} {opened : List Token}
    (hnumber : number? (numberBehind 1 (fields.map (·.index))) stated = some head.index)
    (htype : type.ReadBy opened)
    (hpart : part.map (·.token) = headTokens stated modifier ++ opened) :
    Ensures (Step.GoesOnIn (State.ReadBy (before ++ part ++ [t])))
      (ParseError.HoldsIn limit (before ++ part ++ [t])) (readType limit fields head type t) := by
  have hconcat : (part ++ [t]).map (·.token) =
      headTokens stated modifier ++ (opened ++ [t.token]) := by
    rw [List.map_append, hpart, List.append_assoc]
    rfl
  refine .bind (TypeReader.ensures_read_holdsIn htype) fun step hstep => ?_
  cases step with
  | more type =>
    exact ⟨before, part ++ [t], separator, (List.append_assoc ..).symm, h,
      ⟨stated, modifier, _, hnumber, hstep, hconcat⟩, by simp⟩
  | done type =>
    have hcomplete : opened ++ [t.token] = type.tokens := hstep
    exact ⟨before, part ++ [t], separator, (List.append_assoc ..).symm, h,
      ⟨stated, modifier, type, hnumber, hcomplete ▸ hconcat⟩, by simp⟩

theorem ensures_readModifier_readBy {index : Int32} {stated : Option String} (docText : String)
    (hnumber : number? (numberBehind 1 (fields.map (·.index))) stated = some index)
    (hpart : part.map (·.token) = headTokens stated none) :
    Ensures (Step.GoesOnIn (State.ReadBy (before ++ part ++ [t])))
      (ParseError.HoldsIn limit (before ++ part ++ [t]))
      (readModifier limit fields index docText t) := by
  -- With a modifier the type starts behind it, and nothing of it has been read.
  have hmodifier (modifier : Modifier) (htoken : t.token = modifier.token) (required : Bool) :
      State.ReadBy (before ++ part ++ [t])
        ⟨fields, .type ⟨index, required, docText⟩ TypeReader.start⟩ := by
    refine ⟨before, part ++ [t], separator, (List.append_assoc ..).symm, h,
      ⟨stated, some modifier, [], hnumber, rfl, ?_⟩, by simp⟩
    rw [List.map_append, hpart, List.append_nil]
    simp [headTokens, optionTokens, htoken]
  unfold readModifier
  split
  · next htoken => exact hmodifier .required htoken true
  · next htoken => exact hmodifier .optional htoken false
  · exact ensures_readType_readBy h hnumber rfl (hpart.trans (List.append_nil _).symm)

theorem ensures_readStart_readBy
    (hfirst : fields ≠ [] → separator = none → ¬t.isSeparator = true) :
    (readStart limit closer fields t).Ensures (Step.GoesOnIn (State.ReadBy (before ++ [t])))
      (ParseError.HoldsIn limit (before ++ [t])) := by
  have hclose : (do t.expectSymbol closer; return .done fields : Reading (Step State _)).Ensures
      (Step.GoesOnIn (State.ReadBy (before ++ [t]))) (ParseError.HoldsIn limit (before ++ [t])) :=
    .bind (.lift (ensures_expectSymbol holdsIn_unexpected _)) fun _ _ => .pure trivial
  unfold readStart
  split
  · exact hclose
  · exact hclose
  · exact .pure ⟨before, [t], separator, rfl, h, rfl, by simp⟩
  · rw [expectedIndex_eq]
    refine .bind (.lift (ensures_implicitNumber_holdsIn h ?_)) fun index hindex =>
      .bind .takeDoc fun docText _ => .lift ?_
    · exact fun hne => hfirst (mt List.map_eq_nil_iff.2 hne)
    · have hread : Ensures _ (ParseError.HoldsIn limit (before ++ [] ++ [t]))
          (readModifier limit fields index docText t) :=
        ensures_readModifier_readBy h docText hindex rfl
      rwa [List.append_nil] at hread

end

theorem ensures_readSeparator_readBy
    (h : EndsBehindEntries .field (tokens.map (·.token)) (fields.map (·.index)) none)
    (hne : fields ≠ []) :
    (readSeparator limit closer fields t).Ensures (Step.GoesOnIn (State.ReadBy (tokens ++ [t])))
      (ParseError.HoldsIn limit (tokens ++ [t])) := by
  unfold readSeparator
  split
  · next hseparator =>
    obtain ⟨separator, htoken⟩ := SpannedToken.isSeparator_iff.1 hseparator
    have hconcat := h.concat_separator (mt List.map_eq_nil_iff.1 hne) separator
    rw [← htoken] at hconcat
    refine .pure ⟨tokens ++ [t], [], some separator, List.append_nil _, ?_, rfl, by simp⟩
    rw [List.map_append]
    exact hconcat
  · next hseparator => exact ensures_readStart_readBy h fun _ _ => hseparator

/-- One token is added to those that have been read, and an error says of one of them what holds. -/
theorem ensures_read_readBy {state : State} (h : state.ReadBy tokens) :
    (read limit closer state t).Ensures (Step.GoesOnIn (State.ReadBy (tokens ++ [t])))
      (ParseError.HoldsIn limit (tokens ++ [t])) := by
  obtain ⟨fields, phase⟩ := state
  obtain ⟨before, part, separator, rfl, hends, hpart, hstart⟩ := h
  have hcomplete {entry : Syntax.Field} {field : Field}
      (hindex : number? (numberBehind 1 (fields.map (·.index))) entry.index = some field.index)
      (hnone : entry.separator = none) (htokens : part.map (·.token) = entry.tokens) :
      EndsBehindEntries .field ((before ++ part).map (·.token))
        ((fields ++ [field]).map (·.index)) none := by
    rw [List.map_append, List.map_append, htokens, ← hnone]
    exact hends.concat_field entry hindex
  cases phase with
  | start =>
    obtain rfl : part = [] := hpart
    rw [List.append_nil]
    exact ensures_readStart_readBy hends fun hne hnone => absurd hnone (hstart rfl hne)
  | colon number =>
    obtain rfl : part = [number] := hpart
    refine .bind (.lift (ensures_expectSymbol holdsIn_unexpected .colon)) fun _ hcolon => ?_
    rw [expectedIndex_eq, List.append_assoc]
    have hnone : before.map (·.token) = before.map (·.token) ++ [] := (List.append_nil _).symm
    refine .bind (.lift (ensures_explicitNumber_holdsIn hends hnone rfl)) ?_
    rintro index ⟨text, htoken, hindex⟩
    refine .bind .takeDoc fun docText _ => .pure ?_
    refine ⟨before, [number, t], separator, by simp, hends, ⟨text, hindex, ?_⟩, by simp⟩
    simp [headTokens, optionTokens, htoken, hcolon]
  | modifier index docText =>
    obtain ⟨text, hindex, htokens⟩ := hpart
    exact .lift (ensures_readModifier_readBy hends docText hindex htokens)
  | type head type =>
    obtain ⟨stated, modifier, opened, hindex, htype, htokens⟩ := hpart
    exact .lift (ensures_readType_readBy hends hindex htype htokens)
  | name head signature =>
    obtain ⟨stated, modifier, type, hindex, htokens⟩ := hpart
    refine .bind (.lift (ensures_expectIdentifier holdsIn_unexpected)) fun name hname =>
      .pure ⟨before, part ++ [t], separator, (List.append_assoc ..).symm, hends, ?_, by simp⟩
    refine ⟨⟨stated, modifier, type, name, none, none⟩, hindex, rfl, rfl, ?_⟩
    simp [htokens, hname, headTokens, Syntax.Field.tokens, optionTokens]
  | afterName field =>
    obtain ⟨entry, hindex, hdefault, hnone, htokens⟩ := hpart
    simp only [read]
    split
    · next hassign =>
      refine .pure ⟨before, part ++ [t], separator, (List.append_assoc ..).symm, hends,
        ⟨entry, hindex, hdefault, hnone, ?_⟩, by simp⟩
      rw [List.map_append, htokens, List.map_singleton, hassign]
    · exact ensures_readSeparator_readBy (hcomplete hindex hnone htokens) (by simp)
  | value field =>
    obtain ⟨entry, hindex, hdefault, hnone, htokens⟩ := hpart
    refine .bind (.lift (ensures_expectLiteral holdsIn_unexpected)) fun text hliteral => .pure ?_
    obtain ⟨literal, htoken⟩ : ∃ literal : Literal, t.token = literal.token := by
      rcases hliteral with htoken | htoken
      · exact ⟨.number text, htoken⟩
      · exact ⟨.string text, htoken⟩
    refine ⟨before, part ++ [t], separator, (List.append_assoc ..).symm, hends,
      ⟨{ entry with default := some literal }, hindex, hnone, ?_⟩, by simp⟩
    rw [List.map_append, htokens]
    simp [Syntax.Field.tokens, optionTokens, hdefault, hnone, htoken]
  | separator field =>
    obtain ⟨entry, hindex, hnone, htokens⟩ := hpart
    exact ensures_readSeparator_readBy (hcomplete hindex hnone htokens) (by simp)

end FieldListReader

/-! ### Members of enums -/

namespace EnumReader

/-- The tokens end behind the entries of an enum. A name that is declared again takes its member
away, but the last member is the one of the last entry. -/
def EndsBehindMembers (enum : Enum) (tokens : List Token) (numbers : List Int32)
    (separator : Option Separator) : Prop :=
  EndsBehindEntries .enumValue tokens numbers separator ∧
    numbers.getLast? = enum.members.getLast?.map (·.value)

/-- Exactly the given tokens have been read, up to some point inside an enum. -/
def State.ReadBy (tokens : List SpannedToken) : State → Prop
  | .opening enum => enum.members = [] ∧
      ∃ name, [.keyword .enumDef, .identifier name] <:+ tokens.map (·.token)
  | .member enum => ∃ numbers separator,
      EndsBehindMembers enum (tokens.map (·.token)) numbers separator
  | .afterName enum name span => ∃ before named numbers separator, before ++ [named] = tokens ∧
      named.span = span ∧ named.token = .identifier name ∧
        EndsBehindMembers enum (before.map (·.token)) numbers separator
  | .value enum name => ∃ before numbers separator,
      tokens.map (·.token) = before ++ [.identifier name, .symbol .assign] ∧
        EndsBehindMembers enum before numbers separator
  | .separator enum => ∃ numbers, numbers ≠ [] ∧
      EndsBehindMembers enum (tokens.map (·.token)) numbers none

variable {enum : Enum} {numbers : List Int32} {separator : Option Separator}

theorem EndsBehindMembers.expectedValue_eq {tokens : List Token}
    (h : EndsBehindMembers enum tokens numbers separator) :
    expectedValue enum = numberBehind 1 numbers := by
  rw [expectedValue, ← h.2, numberBehind_one]

/-- The entry of a member goes behind the others. -/
theorem EndsBehindMembers.insert {tokens : List Token}
    (h : EndsBehindMembers enum tokens numbers separator) (entry : Member) {number : Int32}
    (hnumber : number? (numberBehind 1 numbers) entry.number = some number) :
    EndsBehindMembers (enum.insert entry.name number) (tokens ++ entry.tokens)
      (numbers ++ [number]) entry.separator :=
  ⟨h.1.concat_member entry hnumber, by simp [Enum.insert]⟩

theorem ensures_readMember_readBy
    (h : EndsBehindMembers enum (tokens.map (·.token)) numbers separator) :
    Ensures (Step.GoesOnIn (State.ReadBy (tokens ++ [t])))
      (ParseError.HoldsIn limit (tokens ++ [t])) (readMember enum t) := by
  unfold readMember
  split
  · next name htoken => exact ⟨tokens, t, numbers, separator, rfl, rfl, htoken, h⟩
  · exact .bind (ensures_expectSymbol holdsIn_unexpected _) fun _ _ => trivial

theorem ensures_readSeparator_readBy
    (h : EndsBehindMembers enum (tokens.map (·.token)) numbers none) (hne : numbers ≠ []) :
    Ensures (Step.GoesOnIn (State.ReadBy (tokens ++ [t])))
      (ParseError.HoldsIn limit (tokens ++ [t])) (readSeparator enum t) := by
  unfold readSeparator
  split
  · next hseparator =>
    obtain ⟨separator, htoken⟩ := SpannedToken.isSeparator_iff.1 hseparator
    refine ⟨numbers, some separator, ?_, h.2⟩
    rw [List.map_append, List.map_singleton, htoken]
    exact h.1.concat_separator hne separator
  · exact ensures_readMember_readBy h

/-- One token is added to those that have been read, and an error says of one of them what holds. -/
theorem ensures_read_readBy {state : State} (h : state.ReadBy tokens) :
    Ensures (Step.GoesOnIn (State.ReadBy (tokens ++ [t])))
      (ParseError.HoldsIn limit (tokens ++ [t])) (read state t) := by
  cases state with
  | opening enum =>
    obtain ⟨hnone, name, before, htokens⟩ := h
    refine .bind (ensures_expectSymbol holdsIn_unexpected .leftBrace) fun _ hbrace => ?_
    refine ⟨[], none, ?_, by rw [hnone]; rfl⟩
    rw [List.map_append, ← htokens, List.map_singleton, hbrace, List.append_assoc]
    exact .of_enum before name
  | member enum =>
    obtain ⟨numbers, separator, hends⟩ := h
    exact ensures_readMember_readBy hends
  | afterName enum name span =>
    obtain ⟨before, named, numbers, separator, rfl, rfl, hname, hends⟩ := h
    simp only [read]
    split
    · next hassign => exact ⟨_, numbers, separator, by simp [hname, hassign], hends⟩
    · -- The complaint would be about the name, although the token behind it has been read.
      have hnamed : ¬named.isSeparator = true := by simp [SpannedToken.isSeparator, hname]
      rw [hends.expectedValue_eq, List.append_assoc]
      refine .bind (ensures_implicitNumber_holdsIn hends.1 fun _ _ => hnamed)
        fun number hnumber => ?_
      have hinsert : EndsBehindMembers (enum.insert name number) ((before ++ [named]).map (·.token))
          (numbers ++ [number]) none := by
        simpa [Member.tokens, optionTokens, hname] using hends.insert ⟨name, none, none⟩ hnumber
      rw [← List.append_assoc]
      exact ensures_readSeparator_readBy hinsert (by simp)
  | value enum name =>
    obtain ⟨before, numbers, separator, htokens, hends⟩ := h
    simp only [read]
    rw [hends.expectedValue_eq]
    refine .bind (ensures_explicitNumber_holdsIn hends.1 htokens ⟨name, rfl⟩) ?_
    rintro number ⟨text, htoken, hnumber⟩
    have hinsert := hends.insert ⟨name, some text, none⟩ hnumber
    refine ⟨numbers ++ [number], by simp, ?_⟩
    simpa [Member.tokens, optionTokens, htokens, htoken] using hinsert
  | separator enum =>
    obtain ⟨numbers, hne, hends⟩ := h
    exact ensures_readSeparator_readBy hends hne

end EnumReader

end ServiceIdl
