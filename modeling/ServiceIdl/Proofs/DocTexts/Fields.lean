import ServiceIdl.Proofs.DocTexts.Reads
import ServiceIdl.Proofs.Grammar.Definitions

/-!
# Doc comments in field lists

A field takes the doc comments that are pending where its index is known, at the colon or at its
first token. Those between its other tokens stay pending for the next field.
-/

namespace ServiceIdl

open Syntax

variable {σ τ α β : Type} {docs : DocTexts} {limit place since : Nat}

/-- A reader that is embedded without looking at doc texts. -/
theorem Reads.embed_lift {read : σ → SpannedToken → Reading (Step σ α)}
    {inner : τ → SpannedToken → Except ParseError (Step τ β)} (wrap : τ → σ)
    (next : β → Step σ α) (hread : ∀ state t, read (wrap state) t =
      liftM ((inner state t).map (.inside wrap next)))
    {first last : Step τ β} {tokens : List Token} {since' : Nat}
    (h : Reads docs (fun state t => liftM (inner state t)) place since first tokens since' last) :
    Reads docs read place since (first.inside wrap next) tokens since'
      (last.inside wrap next) := by
  refine h.embed wrap next fun state t => ?_
  rw [hread]
  cases inner state t <;> rfl

/-- What is done with a step without failing. -/
theorem bind_eq_map {first : Except ParseError α} {next : α → Except ParseError β} {f : α → β}
    (h : ∀ a, next a = .ok (f a)) : first >>= next = first.map f := by
  cases first with
  | error e => rfl
  | ok a => exact h a

/-- The tokens of a type are passed over. -/
theorem TypeReader.reads_type (type : TypeExpr) (hdepth : type.depth ≤ limit) :
    Reads docs (fun state t => liftM (read limit state t)) place since (.more start) type.tokens
      since (.done type) :=
  .of_accepts (fun _ _ => rfl) (accepts_start_iff.2 ⟨rfl, hdepth⟩)

/-! ### First tokens -/

/-- Keywords and identifiers, with one of which every type, field without index, and function
starts. -/
def Token.isWord : Token → Bool
  | .keyword _ | .identifier _ => true
  | _ => false

theorem TypeExpr.exists_first_token (type : TypeExpr) :
    ∃ token rest, type.tokens = token :: rest ∧ token.isWord = true ∧
      TypeReader.startsType token = true := by
  cases type <;> exact ⟨_, _, rfl, rfl, rfl⟩

theorem Syntax.Field.exists_first_word {field : Syntax.Field} (h : field.index = none) :
    ∃ token rest, field.tokens = token :: rest ∧ token.isWord = true := by
  obtain ⟨token, rest, htype, hword, _⟩ := field.type.exists_first_token
  simp only [Syntax.Field.tokens, h, htype]
  cases field.modifier with
  | none => exact ⟨token, _, rfl, hword⟩
  | some modifier => exact ⟨modifier.token, _, rfl, by cases modifier <;> rfl⟩

theorem Token.isSeparator_plain_of_isWord {token : Token} (h : token.isWord = true) :
    token.plain.isSeparator = false ∧ token ≠ .symbol .assign := by
  cases token with
  | keyword | identifier => simp [SpannedToken.isSeparator]
  | _ => cases h

namespace FieldListReader

variable {closer : Symbol} {fields : List ServiceIdl.Field}

/-- Some fields are complete, but for a default value or a separator behind the last of them. -/
def HasRead (limit : Nat) (closer : Symbol) (fields : List ServiceIdl.Field) (state : State) :
    Prop :=
  ∀ t : SpannedToken, t.isSeparator = false → t.token ≠ .symbol .assign →
    read limit closer state t = readStart limit closer fields t

theorem hasRead_start : HasRead limit closer fields ⟨fields, .start⟩ :=
  fun _ _ _ => rfl

theorem hasRead_separator (field : ServiceIdl.Field) :
    HasRead limit closer (fields ++ [field]) ⟨fields, .separator field⟩ := by
  intro t hseparator _
  simp [read, readSeparator, hseparator]

theorem hasRead_afterName (field : ServiceIdl.Field) :
    HasRead limit closer (fields ++ [field]) ⟨fields, .afterName field⟩ := by
  intro t hseparator hassign
  simp [read, readSeparator, hseparator, hassign]

/-! ### One field -/

theorem reads_separator (field : ServiceIdl.Field) (separator : Option Separator) :
    ∃ state, Reads docs (read limit closer) place since (.more ⟨fields, .separator field⟩)
        (optionTokens (fun separator => [separator.token]) separator) since (.more state) ∧
      HasRead limit closer (fields ++ [field]) state := by
  cases separator with
  | none => exact ⟨_, .refl, hasRead_separator field⟩
  | some separator =>
    refine ⟨_, .keep ?_ .refl, hasRead_start⟩
    cases separator <;> rfl

theorem reads_default {index : Int32} {required : Bool} {name signature docText : String}
    (default : Option Literal) (separator : Option Separator) :
    ∃ state, Reads docs (read limit closer) place since
        (.more ⟨fields, .afterName ⟨index, name, signature, none, required, docText⟩⟩)
        (optionTokens (fun literal => [.symbol .assign, literal.token]) default ++
          optionTokens (fun separator => [separator.token]) separator) since (.more state) ∧
      HasRead limit closer
        (fields ++ [⟨index, name, signature, default.map Literal.text, required, docText⟩])
        state := by
  cases default with
  | none =>
    cases separator with
    | none => exact ⟨_, .refl, hasRead_afterName _⟩
    | some separator =>
      refine ⟨_, .keep ?_ .refl, hasRead_start⟩
      cases separator <;> rfl
  | some literal =>
    obtain ⟨state, hseparator, hstate⟩ := reads_separator
      ⟨index, name, signature, some literal.text, required, docText⟩ separator
    refine ⟨state, .keep rfl (.keep ?_ hseparator), hstate⟩
    cases literal <;> rfl

theorem reads_type (head : Head) (type : TypeExpr) (hdepth : type.depth ≤ limit) :
    Reads docs (read limit closer) place since (.more ⟨fields, .type head TypeReader.start⟩)
      type.tokens since (.more ⟨fields, .name head type.signature⟩) := by
  refine (TypeReader.reads_type type hdepth).embed_lift
    (fun state => State.mk fields (.type head state))
    (fun type => .more ⟨fields, .name head type.signature⟩) fun state t => ?_
  refine congrArg liftM (bind_eq_map fun step => ?_)
  cases step <;> rfl

theorem reads_modifier (index : Int32) (docText : String) (modifier : Option Modifier)
    (type : TypeExpr) (hdepth : type.depth ≤ limit) :
    Reads docs (read limit closer) place since (.more ⟨fields, .modifier index docText⟩)
      (optionTokens (fun modifier => [modifier.token]) modifier ++ type.tokens) since
      (.more ⟨fields, .name ⟨index, modifier = some .required, docText⟩ type.signature⟩) := by
  cases modifier with
  | none =>
    have htype : Reads docs (read limit closer) place since
        (.more ⟨fields, .type ⟨index, false, docText⟩ TypeReader.start⟩) type.tokens since
        (.more ⟨fields, .name ⟨index, false, docText⟩ type.signature⟩) :=
      reads_type ⟨index, false, docText⟩ type hdepth
    obtain ⟨token, rest, htokens, _, hstarts⟩ := type.exists_first_token
    rw [htokens] at htype
    rw [optionTokens, Option.elim_none, List.nil_append, htokens]
    refine htype.of_head fun pending => ?_
    -- The words that may stand in front of a type start none.
    have hrequired : token ≠ .keyword .requiredMark := by
      rintro rfl
      cases hstarts
    have hoptional : token ≠ .keyword .optionalMark := by
      rintro rfl
      cases hstarts
    simp [read, readModifier]
  | some modifier =>
    cases modifier with
    | required => exact .keep rfl (reads_type ⟨index, true, docText⟩ type hdepth)
    | optional => exact .keep rfl (reads_type ⟨index, false, docText⟩ type hdepth)

/-- The part of a field behind its index. -/
theorem reads_behind_index (docs : DocTexts) (place since : Nat) (closer : Symbol)
    (fields : List ServiceIdl.Field) (index : Int32) (docText : String) (field : Syntax.Field)
    (hdepth : field.type.depth ≤ limit) :
    ∃ state, Reads docs (read limit closer) place since (.more ⟨fields, .modifier index docText⟩)
        { field with index := none }.tokens since (.more state) ∧
      HasRead limit closer (fields ++ [⟨index, field.name, field.type.signature,
        field.default.map Literal.text, field.modifier = some .required, docText⟩]) state := by
  obtain ⟨state, hdefault, hstate⟩ := reads_default field.default field.separator
  refine ⟨state, ?_, hstate⟩
  have htokens : { field with index := none }.tokens =
      optionTokens (fun modifier => [modifier.token]) field.modifier ++ field.type.tokens ++
        .identifier field.name ::
          (optionTokens (fun literal => [.symbol .assign, literal.token]) field.default ++
            optionTokens (fun separator => [separator.token]) field.separator) := by
    rw [List.append_assoc]
    rfl
  rw [htokens]
  exact (reads_modifier index docText field.modifier field.type hdepth).append (.keep rfl hdefault)

/-- Where a field starts with a word, it takes the doc comments in front of that word. -/
theorem run_read_implicit {state : State} (hstate : HasRead limit closer fields state)
    {index : Int32} (hindex : number? (expectedIndex fields) none = some index) {token : Token}
    (htoken : token.isWord = true) (pending : String) :
    (read limit closer state token.plain).run pending =
      (read limit closer ⟨fields, .modifier index pending⟩ token.plain).run "" := by
  obtain ⟨hseparator, hassign⟩ := Token.isSeparator_plain_of_isWord htoken
  have himplicit : implicitNumber (expectedIndex fields) token.plain.span = .ok index :=
    eq_ok_of_toOption (toOption_implicitNumber.trans hindex)
  rw [hstate _ hseparator hassign]
  cases token with
  | keyword | identifier =>
    simp only [readStart, Token.token_plain, himplicit]
    rfl
  | _ => cases htoken

/-- A field is read to where the next one starts. -/
theorem reads_field {state : State} (hstate : HasRead limit closer fields state)
    {field : Syntax.Field} {value : ServiceIdl.Field}
    (hvalue : field.value? limit (expectedIndex fields) = some value) :
    ∃ state', Reads docs (read limit closer) place since (.more state) field.tokens
        (place + field.extent.used) (.more state') ∧
      HasRead limit closer (fields ++ [value.withDoc (field.docText docs place since)]) state' := by
  simp only [Syntax.Field.value?, Option.bind_eq_bind, Option.bind_eq_some_iff] at hvalue
  obtain ⟨index, hindex, signature, hsignature, ⟨⟩⟩ := hvalue
  obtain ⟨hdepth, rfl⟩ := TypeExpr.signature?_eq_some_iff.1 hsignature
  obtain ⟨number, modifier, type, name, default, separator⟩ := field
  cases number with
  | none =>
    obtain ⟨state', hreads, hstate'⟩ := reads_behind_index docs place (place + 1) closer fields
      index (docs.between since (place + 1)) ⟨none, modifier, type, name, default, separator⟩ hdepth
    have hfirst : Syntax.Field.index ⟨none, modifier, type, name, default, separator⟩ = none := rfl
    obtain ⟨token, rest, htokens, hword⟩ := Syntax.Field.exists_first_word hfirst
    refine ⟨state', ?_, hstate'⟩
    rw [htokens] at hreads ⊢
    exact hreads.of_head_used (run_read_implicit hstate hindex hword _)
  | some text =>
    obtain ⟨state', hreads, hstate'⟩ := reads_behind_index docs (place + 2) (place + 2) closer
      fields index (docs.between since (place + 2))
      ⟨some text, modifier, type, name, default, separator⟩ hdepth
    have hnumber : explicitNumber .field (expectedIndex fields) (Token.number text).plain =
        .ok index := eq_ok_of_toOption (toOption_explicitNumber_eq_some_iff.2 ⟨text, rfl, hindex⟩)
    have hcolon : Reads docs (read limit closer) (place + 1) since
        (.more ⟨fields, .colon (Token.number text).plain⟩)
        (.symbol .colon :: Syntax.Field.tokens ⟨none, modifier, type, name, default, separator⟩)
        (place + 2) (.more state') := by
      refine .take ?_ hreads
      simp only [read, hnumber]
      rfl
    refine ⟨state', .keep ?_ hcolon, hstate'⟩
    rw [hstate _ rfl (by simp)]
    rfl

/-! ### Whole lists -/

theorem reads_fields (hcloser : closer = .rightBrace ∨ closer = .rightParen) {state : State}
    (hstate : HasRead limit closer fields state) {entries : List Syntax.Field}
    {values : List ServiceIdl.Field}
    (hvalues : fields? limit (expectedIndex fields) entries = some values) :
    Reads docs (read limit closer) place since (.more state)
      (entries.flatMap Syntax.Field.tokens ++ [.symbol closer])
      (sinceBehind Syntax.Field.extent place since entries)
      (.done (fields ++ List.zipWith Field.withDoc values (fieldDocs docs place since entries))) := by
  induction entries generalizing fields state place since values with
  | nil =>
    obtain rfl := Option.some.inj hvalues
    have hread (pending : String) : (read limit closer state (Token.symbol closer).plain).run
        pending = .ok (.done fields, pending) := by
      rcases hcloser with rfl | rfl <;> rw [hstate _ rfl (by simp)] <;> rfl
    rw [List.zipWith_nil_left, List.append_nil]
    exact .keep (hread _) .refl
  | cons entry entries ih =>
    simp only [fields?, Option.bind_eq_bind, Option.bind_eq_some_iff] at hvalues
    obtain ⟨value, hvalue, values, hvalues, ⟨⟩⟩ := hvalues
    obtain ⟨state', hreads, hstate'⟩ := reads_field hstate hvalue
    have hexpected : expectedIndex (fields ++ [value.withDoc (entry.docText docs place since)]) =
        value.index.toInt + 1 := expectedIndex_append _
    rw [← hexpected] at hvalues
    have hrest := hreads.append (ih hstate' hvalues)
    rw [List.flatMap_cons, List.append_assoc]
    rw [List.append_assoc] at hrest
    exact hrest

end FieldListReader

/-! ### Structs and exceptions -/

/-- A struct is read from behind its name. -/
theorem StructReader.reads_struct {name docText : String} {entries : List Syntax.Field}
    {values : List Field} (hvalues : fields? limit 1 entries = some values) :
    Reads docs (read limit) place since (.more (start name docText))
      (braced (entries.flatMap Syntax.Field.tokens))
      (sinceBehind Syntax.Field.extent (place + 1) since entries)
      (.done ⟨name, List.zipWith Field.withDoc values (fieldDocs docs (place + 1) since entries),
        docText⟩) := by
  have hfields : Reads docs (FieldListReader.read limit .rightBrace) (place + 1) since
      (.more FieldListReader.start) _ _ (.done _) :=
    FieldListReader.reads_fields (.inl rfl) FieldListReader.hasRead_start hvalues
  refine .keep rfl ?_
  refine Reads.embed (State.fields name docText)
    (fun fields => Step.done (Struct.mk name fields docText)) (fun state t => ?_) hfields
  refine bind_congr fun step => ?_
  cases step <;> rfl

end ServiceIdl
