import Mathlib.Data.List.TakeWhile
import ServiceIdl.Token.Piece

/-!
# Comments

Line comments run up to the end of their line, block comments up to their first end.
The forms are said here without the scanner, by what a text starts and ends with.
-/

namespace ServiceIdl

/-- A comment up to the end of its line, which is not part of it. -/
def IsLineComment (text : List Char) : Prop :=
  (['#'] <+: text ∨ ['/', '/'] <+: text) ∧ ∀ c ∈ text, isLineEnd c = false

/-- A text that starts with the end of a line, or is empty. -/
def EndsLine (text : List Char) : Prop :=
  ∀ c, text.head? = some c → isLineEnd c = true

/-- A comment with its delimiters. The first end at byte offset two or later, which is
behind the opening, is the end of the whole. -/
structure IsBlockComment (text : List Char) : Prop where
  opening : ['/', '*'] <+: text
  closing : ∃ before, text = before ++ ['*', '/'] ∧ 2 ≤ utf8Length before
  closesOnce : ∀ before behind, text = before ++ '*' :: '/' :: behind →
    2 ≤ utf8Length before → behind = []

/-- A block comment that documents something: it opens with two stars, neither of which
belongs to its end. -/
structure IsDocComment (text : List Char) : Prop extends IsBlockComment text where
  twoStars : ['/', '*', '*'] <+: text
  fiveBytes : 5 ≤ utf8Length text

/-- A block comment without an end. -/
structure IsOpenComment (text : List Char) : Prop where
  opening : ['/', '*'] <+: text
  neverCloses : ∀ before behind, text = before ++ '*' :: '/' :: behind → utf8Length before < 2

/-- The part of a block comment between its delimiters: no end stands before the last one. -/
def IsCommentBody (body : List Char) : Prop :=
  ∀ before behind, body ++ ['*', '/'] = before ++ '*' :: '/' :: behind → behind = []

/-- A prefix of two bytes or more covers the opening of a comment. -/
private theorem eq_opening_append {before rest tail : List Char}
    (h : before ++ rest = '/' :: '*' :: tail) (hlength : 2 ≤ utf8Length before) :
    ∃ body, before = '/' :: '*' :: body ∧ body ++ rest = tail := by
  match before with
  | [] => simp at hlength
  | [c] =>
    obtain ⟨rfl, _⟩ := List.cons.inj h
    have hsize : utf8Length ['/'] = 1 := rfl
    omega
  | c :: d :: body =>
    simp only [List.cons_append, List.cons.injEq] at h
    obtain ⟨rfl, rfl, htail⟩ := h
    exact ⟨body, rfl, htail⟩

/-- The opening of a comment takes two bytes. -/
private theorem two_le_utf8Length_opening (body : List Char) :
    2 ≤ utf8Length ('/' :: '*' :: body) := by
  have hslash : ('/' : Char).utf8Size = 1 := rfl
  have hstar : ('*' : Char).utf8Size = 1 := rfl
  simp only [utf8Length_cons]
  omega

/-- A block comment is its opening, a body, and its end. -/
theorem isBlockComment_iff {text : List Char} :
    IsBlockComment text ↔
      ∃ body, text = '/' :: '*' :: (body ++ ['*', '/']) ∧ IsCommentBody body := by
  constructor
  · rintro ⟨⟨tail, rfl⟩, ⟨before, hbefore, hlength⟩, hfirst⟩
    obtain ⟨body, rfl, htail⟩ := eq_opening_append hbefore.symm hlength
    refine ⟨body, hbefore, fun first behind happend => ?_⟩
    refine hfirst ('/' :: '*' :: first) behind ?_ (two_le_utf8Length_opening first)
    rw [hbefore, List.cons_append, List.cons_append, happend]
    rfl
  · rintro ⟨body, rfl, hbody⟩
    refine ⟨⟨body ++ ['*', '/'], rfl⟩, ⟨'/' :: '*' :: body, rfl, two_le_utf8Length_opening body⟩,
      fun before behind happend hlength => ?_⟩
    obtain ⟨first, rfl, hfirst⟩ := eq_opening_append happend.symm hlength
    exact hbody first behind hfirst.symm

/-- A block comment documents something exactly if its body starts with a star. -/
theorem isDocComment_iff {body : List Char} (hbody : IsCommentBody body) :
    IsDocComment ('/' :: '*' :: (body ++ ['*', '/'])) ↔ body.head? = some '*' := by
  have hblock := isBlockComment_iff.2 ⟨body, rfl, hbody⟩
  cases body with
  | nil =>
    refine iff_of_false (fun hdoc => ?_) (by simp)
    have hlength : utf8Length ('/' :: '*' :: ([] ++ ['*', '/'])) = 4 := rfl
    have := hdoc.fiveBytes
    omega
  | cons c body =>
    constructor
    · rintro ⟨_, ⟨tail, htail⟩, _⟩
      simp only [List.cons_append, List.nil_append, List.cons.injEq, true_and] at htail
      rw [List.head?_cons, ← htail.1]
    · intro hstar
      obtain rfl : c = '*' := by simpa using hstar
      refine ⟨hblock, ⟨body ++ ['*', '/'], rfl⟩, ?_⟩
      have hslash : ('/' : Char).utf8Size = 1 := rfl
      have hstar : ('*' : Char).utf8Size = 1 := rfl
      simp only [List.cons_append, utf8Length_cons, utf8Length_append, utf8Length_nil]
      omega

/-- An open comment is an opening without an end behind it. -/
theorem isOpenComment_iff {text : List Char} :
    IsOpenComment text ↔ ∃ body, text = '/' :: '*' :: body ∧
      ∀ before behind, body ≠ before ++ '*' :: '/' :: behind := by
  constructor
  · rintro ⟨⟨body, rfl⟩, hnever⟩
    refine ⟨body, rfl, ?_⟩
    rintro before behind rfl
    have hlength := two_le_utf8Length_opening before
    have := hnever ('/' :: '*' :: before) behind rfl
    omega
  · rintro ⟨body, rfl, hbody⟩
    refine ⟨⟨body, rfl⟩, fun before behind happend => ?_⟩
    by_contra hlength
    obtain ⟨first, rfl, hfirst⟩ := eq_opening_append happend.symm (by omega)
    exact hbody first behind hfirst.symm

/-- No end stands before the last one if the first character is dropped. -/
private theorem IsCommentBody.tail {c : Char} {body : List Char}
    (h : IsCommentBody (c :: body)) : IsCommentBody body := by
  intro before behind happend
  exact h (c :: before) behind (by rw [List.cons_append, happend, List.cons_append])

/-- A body may start with any character that does not make an end with the next one. -/
private theorem IsCommentBody.cons {c : Char} {body : List Char} (h : IsCommentBody body)
    (hc : ¬(c = '*' ∧ body.head? = some '/')) : IsCommentBody (c :: body) := by
  intro before behind happend
  cases before with
  | nil =>
    cases body with
    | nil => simp at happend
    | cons d body =>
      simp only [List.cons_append, List.nil_append, List.cons.injEq] at happend
      exact absurd ⟨happend.1, congrArg some happend.2.1⟩ hc
  | cons d before => exact h before behind (List.cons.inj happend).2

private theorem isCommentBody_nil : IsCommentBody [] := by
  intro before behind happend
  have hlength := congrArg List.length happend
  simp only [List.nil_append, List.length_append, List.length_cons, List.length_nil] at hlength
  exact List.length_eq_zero_iff.1 (by omega)

/-- An end cannot stand across the last character of a body. -/
private theorem IsCommentBody.not_end {body tail rest : List Char} (h : IsCommentBody body)
    (happend : '*' :: '/' :: tail = body ++ '*' :: '/' :: rest) : body = [] ∧ tail = rest := by
  match body with
  | [] => exact ⟨rfl, by simpa using happend⟩
  | [c] => simp at happend
  | c :: d :: body =>
    simp only [List.cons_append, List.cons.injEq] at happend
    obtain ⟨rfl, rfl, _⟩ := happend
    have hnil := h [] (body ++ ['*', '/']) rfl
    simp at hnil

namespace Piece

/-- The cut behind a comment is at the first end. -/
theorem splitCommentEnd?_eq_some_iff {text body rest : List Char} :
    splitCommentEnd? text = some (body, rest) ↔
      text = body ++ '*' :: '/' :: rest ∧ IsCommentBody body := by
  fun_induction splitCommentEnd? text generalizing body rest with
  | case1 => simp
  | case2 tail =>
    constructor
    · rintro ⟨⟩
      exact ⟨rfl, isCommentBody_nil⟩
    · rintro ⟨happend, hbody⟩
      obtain ⟨rfl, rfl⟩ := hbody.not_end happend
      rfl
  | case3 c text hnot ih =>
    rw [Option.map_eq_some_iff]
    constructor
    · rintro ⟨⟨first, tail⟩, hsplit, heq⟩
      obtain ⟨rfl, rfl⟩ := Prod.mk.inj heq
      obtain ⟨rfl, hfirst⟩ := ih.1 hsplit
      refine ⟨rfl, hfirst.cons ?_⟩
      rintro ⟨rfl, hhead⟩
      cases first with
      | nil => simp at hhead
      | cons d first =>
        obtain rfl : d = '/' := by simpa using hhead
        exact hnot _ rfl rfl
    · rintro ⟨happend, hbody⟩
      cases body with
      | nil =>
        obtain ⟨rfl, rfl⟩ := List.cons.inj happend
        exact absurd rfl (hnot rest rfl)
      | cons d body =>
        simp only [List.cons_append, List.cons.injEq] at happend
        obtain ⟨rfl, happend⟩ := happend
        exact ⟨(body, rest), ih.2 ⟨happend, hbody.tail⟩, rfl⟩

/-- There is no cut exactly if there is no end. -/
theorem splitCommentEnd?_eq_none_iff {text : List Char} :
    splitCommentEnd? text = none ↔ ∀ before behind, text ≠ before ++ '*' :: '/' :: behind := by
  fun_induction splitCommentEnd? text with
  | case1 => simp
  | case2 tail =>
    refine iff_of_false (by simp) fun h => ?_
    exact h [] tail rfl
  | case3 c text hnot ih =>
    rw [Option.map_eq_none_iff, ih]
    constructor
    · intro h before behind happend
      cases before with
      | nil =>
        obtain ⟨rfl, rfl⟩ := List.cons.inj happend
        exact hnot behind rfl rfl
      | cons d before => exact h before behind (List.cons.inj happend).2
    · rintro h before behind rfl
      exact h (c :: before) behind rfl

end Piece

end ServiceIdl
