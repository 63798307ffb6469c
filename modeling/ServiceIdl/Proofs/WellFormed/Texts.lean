import Mathlib.Data.List.DropRight
import ServiceIdl.Proofs.Lexing.Rendering
import ServiceIdl.Proofs.WellFormed.Document

/-!
# Texts in well-formed documents

The literals, include paths and numbers of a well-formed document are those that some token
gives.
-/

namespace ServiceIdl

/-! ### Literals -/

/-- The text of a token is read back as this token alone if and only if it is a lexeme. -/
theorem tokenize_eq_singleton_iff {options : ParseOptions} {token : Token} :
    (tokenize options token.text).map (·.map (·.token)) = .ok [token, .endOfInput] ↔
      token.IsLexeme options.strictNumbers := by
  constructor
  · intro h
    rw [tokenize] at h
    cases hending : (TokenStream.ofSource options token.text).ending with
    | fault error =>
      rw [hending] at h
      cases h
    | endOfInput span =>
      rw [hending] at h
      have htokens : (TokenStream.ofSource options token.text).tokens.map (·.token) ++
          [Token.endOfInput] = [token] ++ [.endOfInput] :=
        List.map_append.symm.trans (Except.ok.inj h)
      have htokens := List.append_cancel_right htokens
      have htoken : token ∈ (TokenStream.ofSource options token.text).tokens.map (·.token) := by
        simp [htokens]
      obtain ⟨t, ht, rfl⟩ := List.mem_map.1 htoken
      exact TokenStream.isLexeme_of_mem_ofSource ht
  · intro h
    have hentries : ∀ entry ∈ [(token, ([] : List Char))],
        entry.1.IsLexeme options.strictNumbers ∧ IsClosedTrivia entry.2 := by
      simpa using ⟨h, IsClosedTrivia.nil⟩
    obtain ⟨tokens, span, htiling, htokens⟩ :=
      exists_tiling_renderTokens hentries (by simp) .nil Position.start
    have hrender : [] ++ renderTokens [(token, [])] = token.text.toList := by simp [renderTokens]
    rw [hrender] at htiling
    have hstream : TokenStream.ofSource options token.text = ⟨tokens, .endOfInput span⟩ :=
      TokenStream.tiling_iff.1 htiling
    rw [tokenize, hstream]
    simp only [Except.map, List.map_append, List.map_cons, List.map_nil, htokens,
      List.cons_append, List.nil_append]

theorem isLiteral_iff {options : ParseOptions} {text : String} :
    IsLiteral options text ↔ ∃ literal : Syntax.Literal, literal.text = text ∧
      literal.token.IsLexeme options.strictNumbers := by
  have htext (literal : Syntax.Literal) : literal.text = literal.token.text := by
    cases literal <;> rfl
  constructor
  · rintro ⟨literal, rfl, h⟩
    rw [htext] at h
    exact ⟨literal, rfl, tokenize_eq_singleton_iff.1 h⟩
  · rintro ⟨literal, rfl, h⟩
    refine ⟨literal, rfl, ?_⟩
    rw [htext]
    exact tokenize_eq_singleton_iff.2 h

/-! ### Include paths -/

section Trim

variable {p : Char → Bool} {c : Char} {text : List Char}

theorem trim_eq_rdropWhile (p : Char → Bool) (text : List Char) :
    trim p text = (text.dropWhile p).rdropWhile p := rfl

theorem trim_cons (h : p c = true) (text : List Char) : trim p (c :: text) = trim p text := by
  rw [trim, List.dropWhile_cons_of_pos h, trim]

theorem trim_concat (h : p c = true) (text : List Char) : trim p (text ++ [c]) = trim p text := by
  rw [trim_eq_rdropWhile, trim_eq_rdropWhile, List.dropWhile_append]
  split
  · next hempty =>
    rw [List.isEmpty_iff.1 hempty, List.dropWhile_cons_of_pos h, List.dropWhile_nil]
  · exact List.rdropWhile_concat_pos _ _ _ h

/-- Nothing is trimmed from a text whose ends are to be kept. -/
theorem trim_eq_self (hfirst : ∀ c, text.head? = some c → p c = false)
    (hlast : ∀ c, text.getLast? = some c → p c = false) : trim p text = text := by
  have hdrop : text.dropWhile p = text := by
    cases text with
    | nil => rfl
    | cons c text => exact List.dropWhile_cons_of_neg (by simp [hfirst c rfl])
  rw [trim_eq_rdropWhile, hdrop, List.rdropWhile_eq_self_iff]
  intro hne
  simp [hlast _ (List.getLast?_eq_getLast_of_ne_nil hne)]

theorem eq_false_of_head?_trim (h : (trim p text).head? = some c) : p c = false := by
  obtain ⟨rest, hrest⟩ := List.rdropWhile_prefix p (text.dropWhile p)
  have hhead : (text.dropWhile p).head? = some c := by
    rw [← hrest, List.head?_append, ← trim_eq_rdropWhile, h]
    rfl
  exact eq_false_of_head?_dropWhile hhead

theorem eq_false_of_getLast?_trim (h : (trim p text).getLast? = some c) : p c = false := by
  have hne : trim p text ≠ [] := by
    intro hnil
    simp [hnil] at h
  have hlast := List.rdropWhile_last_not p (text.dropWhile p) hne
  rw [List.getLast?_eq_getLast_of_ne_nil hne] at h
  obtain rfl := Option.some.inj h
  exact Bool.eq_false_iff.2 hlast

theorem mem_of_mem_trim (h : c ∈ trim p text) : c ∈ text :=
  (List.dropWhile_sublist p).subset ((List.rdropWhile_prefix p _).subset h)

end Trim

/-- A path can be written between quotes if and only if it is what is left of some string when
its quotes are trimmed. -/
theorem isIncludePath_iff {path : String} :
    IsIncludePath path ↔ ∃ literal : String, IsQuoted literal.toList ∧
      String.ofList (trim isQuote literal.toList) = path := by
  constructor
  · rintro ⟨hstart, hstop, honeKind⟩
    have hquote : ∃ quote, isQuote quote = true ∧ quote ∉ path.toList := by
      rcases honeKind with h | h
      · exact ⟨'"', rfl, h⟩
      · exact ⟨'\'', rfl, h⟩
    obtain ⟨quote, hisQuote, hnotMem⟩ := hquote
    refine ⟨String.ofList (quote :: (path.toList ++ [quote])), ?_, ?_⟩
    · exact ⟨quote, path.toList, String.toList_ofList, hisQuote, hnotMem⟩
    · rw [String.toList_ofList, trim_cons hisQuote, trim_concat hisQuote,
        trim_eq_self hstart hstop, String.ofList_toList]
  · rintro ⟨literal, ⟨quote, body, hliteral, hisQuote, hnotMem⟩, rfl⟩
    rw [hliteral, trim_cons hisQuote, trim_concat hisQuote]
    refine ⟨fun c hc => ?_, fun c hc => ?_, ?_⟩
    · rw [String.toList_ofList] at hc
      exact eq_false_of_head?_trim hc
    · rw [String.toList_ofList] at hc
      exact eq_false_of_getLast?_trim hc
    · have htrim : quote ∉ (String.ofList (trim isQuote body)).toList := by
        rw [String.toList_ofList]
        exact fun hmem => hnotMem (mem_of_mem_trim hmem)
      rcases isQuote_cases hisQuote with rfl | rfl
      · exact .inl htrim
      · exact .inr htrim

/-! ### Numbers -/

theorem int32?_toInt (value : Int32) : int32? value.toInt = some value := by
  have hrange : Int32.minValue.toInt ≤ value.toInt ∧ value.toInt ≤ Int32.maxValue.toInt :=
    ⟨Int32.minValue_le_toInt value, Int32.toInt_le value⟩
  rw [int32?, if_pos hrange, Int32.ofInt_toInt]

/-- A natural number in decimal digits. -/
def decimal (n : Nat) : List Char := Nat.toDigits 10 n

theorem isDigits_decimal (n : Nat) : IsDigits (decimal n) :=
  ⟨Nat.toDigits_ne_nil, fun _ hc => Nat.isDigit_of_mem_toDigits (by decide) (by decide) hc⟩

theorem isNumber_of_isDigits {text : List Char} (h : IsDigits text) : IsNumber text := by
  obtain ⟨hne, hdigits⟩ := h
  obtain ⟨first, rest, rfl⟩ := List.exists_cons_of_ne_nil hne
  obtain ⟨hfirst, hrest⟩ := List.forall_mem_cons.1 hdigits
  exact ⟨first, rest, rfl, by simp [isNumberStart, hfirst],
    fun c hc => by simp [isNumberPart, hrest c hc]⟩

theorem isStrictNumber_of_isDigits {text : List Char} (h : IsDigits text) : IsStrictNumber text :=
  ⟨[], text, [], by simp, .inl rfl, h, .inl rfl⟩

theorem readInt?_decimal (n : Nat) : readInt? (decimal n) = some (n : Int) := by
  have hdigits := isDigits_decimal n
  have hunsigned : unsigned (decimal n) = decimal n := by
    simpa using unsigned_append (.inl rfl) hdigits []
  have hsign : (decimal n).head? ≠ some '-' := by
    intro hhead
    have hdigit := hdigits.2 '-' (List.mem_of_head? hhead)
    cases hdigit
  have hvalue : digitsValue (decimal n) = n := Nat.ofDigitChars_toDigits (by decide) (by decide)
  simp only [readInt?, hunsigned, isDigits_iff.2 hdigits, if_true, if_neg hsign, hvalue]

/-- An entry can be given every number that its place allows. -/
theorem exists_number?_iff (strict : Bool) {expected : Int} (hexpected : 0 ≤ expected)
    {value : Int32} :
    (∃ number : Option String, (∀ text ∈ number, (Token.number text).IsLexeme strict) ∧
      Syntax.number? expected number = some value) ↔ expected ≤ value.toInt := by
  constructor
  · rintro ⟨_ | text, _, hvalue⟩
    · exact Int.le_of_eq (toInt_of_int32?_eq_some hvalue).symm
    · exact of_decide_eq_true (Option.filter_eq_some_iff.1 hvalue).2
  · intro h
    have hdigits := isDigits_decimal value.toInt.toNat
    refine ⟨some (String.ofList (decimal value.toInt.toNat)), ?_, ?_⟩
    · rintro _ ⟨⟩
      rw [Token.IsLexeme, String.toList_ofList]
      exact ⟨isNumber_of_isDigits hdigits, fun _ => isStrictNumber_of_isDigits hdigits⟩
    · have htoNat : (value.toInt.toNat : Int) = value.toInt :=
        Int.toNat_of_nonneg (Int.le_trans hexpected h)
      have hread : readInt32? (decimal value.toInt.toNat) = some value := by
        rw [readInt32?, readInt?_decimal, Option.bind_some, htoNat, int32?_toInt]
      rw [Syntax.number?, String.toList_ofList, hread, Option.filter_some, if_pos (by simpa)]

theorem ascendFrom_nil (least : Int) : AscendFrom least [] :=
  ⟨by simp, .nil⟩

theorem ascendFrom_cons {least : Int} {number : Int32} {numbers : List Int32} :
    AscendFrom least (number :: numbers) ↔
      least ≤ number.toInt ∧ AscendFrom (number.toInt + 1) numbers := by
  constructor
  · rintro ⟨hleast, hascending⟩
    obtain ⟨hnumber, _⟩ := List.forall_mem_cons.1 hleast
    obtain ⟨hbehind, hascending⟩ := List.pairwise_cons.1 hascending
    exact ⟨hnumber, hbehind, hascending⟩
  · rintro ⟨hnumber, hbehind, hascending⟩
    refine ⟨List.forall_mem_cons.2 ⟨hnumber, fun other hother => ?_⟩, ?_⟩
    · have := hbehind other hother
      omega
    · exact List.pairwise_cons.2 ⟨hbehind, hascending⟩

end ServiceIdl
