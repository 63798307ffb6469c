import ServiceIdl.Text.Position

/-!
# Stretches of a text by byte offsets

Spans are measured in bytes of the UTF-8 encoding, so cutting a text at an
offset succeeds only between two characters.
-/

namespace ServiceIdl

/-- Splits a text behind its first `count` bytes. There is no result if the text
is shorter, or if the cut would fall inside a character. -/
def splitBytes? : Nat → List Char → Option (List Char × List Char)
  | 0, text => some ([], text)
  | _ + 1, [] => none
  | count + 1, c :: text =>
    if c.utf8Size ≤ count + 1 then
      (splitBytes? (count + 1 - c.utf8Size) text).map fun (first, rest) => (c :: first, rest)
    else none

/-- A text splits behind `count` bytes into the parts of which the first has that length. -/
theorem splitBytes?_eq_some_iff {count : Nat} {text first rest : List Char} :
    splitBytes? count text = some (first, rest) ↔
      text = first ++ rest ∧ utf8Length first = count := by
  fun_induction splitBytes? count text generalizing first rest with
  | case1 text =>
    constructor
    · rintro ⟨⟩
      exact ⟨rfl, rfl⟩
    · rintro ⟨rfl, hlength⟩
      cases first with
      | nil => rfl
      | cons c first =>
        have hpos := c.utf8Size_pos
        rw [utf8Length_cons] at hlength
        omega
  | case2 count =>
    constructor
    · rintro ⟨⟩
    · rintro ⟨happend, hlength⟩
      obtain ⟨rfl, rfl⟩ := List.append_eq_nil_iff.1 happend.symm
      simp at hlength
  | case3 count c text hle ih =>
    rw [Option.map_eq_some_iff]
    constructor
    · rintro ⟨⟨head, tail⟩, hsplit, heq⟩
      obtain ⟨rfl, rfl⟩ := Prod.mk.inj heq
      obtain ⟨rfl, hlength⟩ := ih.1 hsplit
      refine ⟨rfl, ?_⟩
      rw [utf8Length_cons]
      omega
    · rintro ⟨happend, hlength⟩
      cases first with
      | nil => simp at hlength
      | cons d first =>
        obtain ⟨rfl, rfl⟩ := List.cons.inj happend
        rw [utf8Length_cons] at hlength
        exact ⟨(first, rest), ih.2 ⟨rfl, by omega⟩, rfl⟩
  | case4 count c text hle =>
    constructor
    · rintro ⟨⟩
    · rintro ⟨happend, hlength⟩
      cases first with
      | nil => simp at hlength
      | cons d first =>
        obtain ⟨rfl, rfl⟩ := List.cons.inj happend
        rw [utf8Length_cons] at hlength
        omega

/-- The characters between two byte offsets, if the offsets are in order, inside
the text, and between characters. -/
def slice? (text : List Char) (start stop : Nat) : Option (List Char) :=
  if start ≤ stop then do
    let (_, tail) ← splitBytes? start text
    let (middle, _) ← splitBytes? (stop - start) tail
    return middle
  else none

/-- The characters from `start` to `stop` are the part of the text behind `start` bytes
that ends `stop` bytes behind the beginning. -/
theorem slice?_eq_some_iff {text middle : List Char} {start stop : Nat} :
    slice? text start stop = some middle ↔
      ∃ first rest, text = first ++ middle ++ rest ∧ utf8Length first = start ∧
        utf8Length first + utf8Length middle = stop := by
  unfold slice?
  constructor
  · intro h
    split at h
    · next hle =>
      obtain ⟨⟨first, tail⟩, hfirst, h⟩ := Option.bind_eq_some_iff.1 h
      obtain ⟨⟨part, rest⟩, hpart, h⟩ := Option.bind_eq_some_iff.1 h
      obtain rfl := Option.some.inj h
      obtain ⟨rfl, hstart⟩ := splitBytes?_eq_some_iff.1 hfirst
      obtain ⟨rfl, hstop⟩ := splitBytes?_eq_some_iff.1 hpart
      exact ⟨first, rest, (List.append_assoc ..).symm, hstart, by omega⟩
    · simp at h
  · rintro ⟨first, rest, rfl, rfl, rfl⟩
    have hfirst : splitBytes? (utf8Length first) (first ++ middle ++ rest) =
        some (first, middle ++ rest) :=
      splitBytes?_eq_some_iff.2 ⟨List.append_assoc .., rfl⟩
    have hmiddle : splitBytes? (utf8Length first + utf8Length middle - utf8Length first)
        (middle ++ rest) = some (middle, rest) :=
      splitBytes?_eq_some_iff.2 ⟨rfl, by omega⟩
    rw [if_pos (Nat.le_add_right ..), hfirst]
    simp only [Option.bind_eq_bind, Option.bind_some, hmiddle, pure]

end ServiceIdl
