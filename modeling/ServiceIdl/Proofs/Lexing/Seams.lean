import ServiceIdl.Proofs.Parsing.Concatenation
import ServiceIdl.Proofs.Parsing.Origins
import ServiceIdl.Token.Lexer

/-!
# The seam between two texts

Where a text without a lexical fault ends, the lexer has nothing left over: whatever stands there, a
line comment, a number or a word, a line feed ends it too. So what the lexer hands out for a text
and a further one behind a line feed is what it hands out for the one and then, further down, what
it hands out for the other, up to a fault if the second text has one.
-/

namespace ServiceIdl

/-- The same error with a number of further lines and bytes before it. -/
def LexError.shift (lines bytes : Nat) (error : LexError) : LexError :=
  ⟨error.fault, error.span.shift lines bytes⟩

variable {options : ParseOptions} {first second : String} {tokens : List SpannedToken}

namespace TokenStream

/-- The ending of the first of two streams is dropped. -/
theorem items_append (first second : TokenStream) :
    (first.append second).items = first.items.dropLast ++ second.items := by
  have hfirst : first.items.dropLast = first.tokens.map .ok := List.dropLast_concat
  rw [hfirst]
  simp only [items, append, List.map_append, List.append_assoc]

theorem ofSource_of_tokenize (h : tokenize options first = .ok tokens) :
    (∃ span, (ofSource options first).ending = .endOfInput span) ∧
      (ofSource options first).tokens = tokens.dropLast := by
  obtain ⟨span, hending, rfl⟩ := tokenize_eq_ok_iff.1 h
  exact ⟨⟨span, hending⟩, List.dropLast_concat.symm⟩

end TokenStream

/-- A text whose stream goes on with that of another text, further down, has its tokens or its
fault. -/
theorem tokenize_append {source : String} {stream : TokenStream} {lines bytes : Nat}
    (h : TokenStream.ofSource options source =
      stream.append ((TokenStream.ofSource options second).shift lines bytes)) :
    tokenize options source =
      match tokenize options second with
      | .ok further => .ok (stream.tokens ++ further.map (·.shift lines bytes))
      | .error error => .error (error.shift lines bytes) := by
  rw [tokenize, tokenize, h]
  cases hending : (TokenStream.ofSource options second).ending with
  | fault error =>
    simp [TokenStream.append, TokenStream.shift, hending, Ending.shift, LexError.shift]
  | endOfInput span =>
    simp [TokenStream.append, TokenStream.shift, hending, Ending.shift, SpannedToken.shift]

/-- What is handed out for two texts with a line feed between them, of which the first has no
lexical fault, is what is handed out for the first one up to its ending, and then what is handed out
for the second one. This stands further down by the lines and the bytes of the first text and of the
line feed, and in the same columns, its ending included. -/
theorem Lexer.drain_append_newline (h : tokenize options first = .ok tokens) (second : String) :
    (Lexer.ofSource options (first ++ "\n" ++ second)).drain.1 =
      (Lexer.ofSource options first).drain.1.dropLast ++
        (Lexer.ofSource options second).drain.1.map
          (Item.shift (first.toList.count '\n' + 1) (utf8Length first.toList + 1)) ∧
    tokenize options (first ++ "\n" ++ second) =
      match tokenize options second with
      | .ok further => .ok (tokens.dropLast ++
          further.map (·.shift (first.toList.count '\n' + 1) (utf8Length first.toList + 1)))
      | .error error =>
        .error (error.shift (first.toList.count '\n' + 1) (utf8Length first.toList + 1)) := by
  obtain ⟨⟨span, hending⟩, htokens⟩ := TokenStream.ofSource_of_tokenize h
  have hstream : TokenStream.ofSource options (first ++ "\n" ++ second) = _ :=
    TokenStream.ofSource_append_newline hending
  constructor
  · change (TokenStream.ofSource options (first ++ "\n" ++ second)).items =
      (TokenStream.ofSource options first).items.dropLast ++
        (TokenStream.ofSource options second).items.map _
    rw [hstream, TokenStream.items_append, TokenStream.items_shift]
  · rw [tokenize_append hstream, htokens]

/-- A line comment at the end of the first text, and a string that stays open in the second. -/
theorem Lexer.drain_append_newline_open_string :
    tokenize ⟨false, 64⟩ "a //c" =
        .ok [⟨.identifier "a", ⟨⟨1, 1, 0⟩, 1⟩⟩, ⟨.endOfInput, ⟨⟨1, 6, 5⟩, 5⟩⟩] ∧
      tokenize ⟨false, 64⟩ " 'b" = .error ⟨.unterminatedString, ⟨⟨1, 2, 1⟩, 3⟩⟩ ∧
      tokenize ⟨false, 64⟩ ("a //c" ++ "\n" ++ " 'b") =
        .error ⟨.unterminatedString, ⟨⟨2, 2, 7⟩, 9⟩⟩ ∧
      (Lexer.ofSource ⟨false, 64⟩ ("a //c" ++ "\n" ++ " 'b")).drain.1 =
        [.ok ⟨.identifier "a", ⟨⟨1, 1, 0⟩, 1⟩⟩,
          .error ⟨.unterminatedString, ⟨⟨2, 2, 7⟩, 9⟩⟩] := by
  have hfirst : tokenize ⟨false, 64⟩ "a //c" =
      .ok [⟨.identifier "a", ⟨⟨1, 1, 0⟩, 1⟩⟩, ⟨.endOfInput, ⟨⟨1, 6, 5⟩, 5⟩⟩] := by decide +kernel
  have hsecond : tokenize ⟨false, 64⟩ " 'b" = .error ⟨.unterminatedString, ⟨⟨1, 2, 1⟩, 3⟩⟩ := by
    decide +kernel
  obtain ⟨hdrain, htokenize⟩ := Lexer.drain_append_newline hfirst " 'b"
  refine ⟨hfirst, hsecond, ?_, ?_⟩
  · rw [htokenize, hsecond]
    rfl
  · rw [hdrain]
    decide +kernel

end ServiceIdl
