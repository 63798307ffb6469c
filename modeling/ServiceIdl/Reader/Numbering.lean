import ServiceIdl.Reader.Basic
import ServiceIdl.Text.Numeral

/-!
# Ascending numbers

The fields of a list and the members of an enum have ascending numbers from one on.
An entry may state its number, which may skip numbers, or get the next one.
-/

namespace ServiceIdl

/-- The least number allowed behind the last entry of a list. -/
def nextNumber (last : Option Int32) : Int :=
  match last with
  | none => 1
  | some number => number.toInt + 1

/-- The number that an entry states by a token. -/
def explicitNumber (kind : IndexKind) (expected : Int) (t : SpannedToken) :
    Except ParseError Int32 :=
  match t.token with
  | .number text =>
    match readInt32? text.toList with
    | none => .error ⟨.invalidInteger text, t.span⟩
    | some value =>
      if value.toInt < expected then .error ⟨.indexOutOfOrder kind value expected, t.span⟩
      else .ok value
  | _ => .error (t.unexpected "integer")

/-- The number of an entry that states none, if it fits into 32 bits. -/
def implicitNumber (expected : Int) (span : Span) : Except ParseError Int32 :=
  match int32? expected with
  | some value => .ok value
  | none => .error ⟨.invalidInteger (toString expected), span⟩

end ServiceIdl
