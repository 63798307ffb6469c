/-!
# Namespaces of a document

A document names at most one namespace for each scope. The scopes are kept in
ascending order, so two documents that name the same namespaces are equal.
-/

namespace ServiceIdl

/-- A namespace for some scopes, as pairs of a scope and its namespace. -/
structure Namespaces where
  /-- The pairs. -/
  entries : List (String × String)
  /-- Scopes ascend, so none occurs twice. -/
  ascending : entries.Pairwise fun first second => first.1 < second.1
  deriving DecidableEq

namespace Namespaces

/-- No namespace for any scope. -/
def empty : Namespaces := ⟨[], .nil⟩

/-- An entry put into its place among others, in exchange for one of its scope. -/
def insertEntry (scope name : String) : List (String × String) → List (String × String)
  | [] => [(scope, name)]
  | entry :: entries =>
    if scope < entry.1 then (scope, name) :: entry :: entries
    else if scope = entry.1 then (scope, name) :: entries
    else entry :: insertEntry scope name entries

theorem mem_insertEntry {scope name : String} {entries : List (String × String)}
    {entry : String × String} (h : entry ∈ insertEntry scope name entries) :
    entry = (scope, name) ∨ entry ∈ entries := by
  induction entries with
  | nil => simpa [insertEntry] using h
  | cons first others ih =>
    unfold insertEntry at h
    split at h
    · simpa using h
    · split at h
      · rcases List.mem_cons.1 h with h | h
        · exact .inl h
        · exact .inr (List.mem_cons_of_mem _ h)
      · rcases List.mem_cons.1 h with h | h
        · exact .inr (h ▸ List.mem_cons_self)
        · exact (ih h).imp_right (List.mem_cons_of_mem _)

private theorem lt_of_not_lt_of_ne {first second : String} (hlt : ¬first < second)
    (hne : ¬first = second) : second < first := by
  refine String.not_le.1 fun hle => ?_
  exact hne (String.le_antisymm hle (String.not_lt.1 hlt))

private theorem pairwise_insertEntry (scope name : String) {entries : List (String × String)}
    (h : entries.Pairwise fun first second => first.1 < second.1) :
    (insertEntry scope name entries).Pairwise fun first second => first.1 < second.1 := by
  induction entries with
  | nil => exact List.pairwise_singleton _ _
  | cons first others ih =>
    obtain ⟨hfirst, hothers⟩ := List.pairwise_cons.1 h
    unfold insertEntry
    split
    · next hlt =>
      refine List.pairwise_cons.2 ⟨fun entry hmem => ?_, h⟩
      rcases List.mem_cons.1 hmem with rfl | hmem
      · exact hlt
      · exact String.lt_trans hlt (hfirst entry hmem)
    · next hlt =>
      split
      · next heq =>
        exact List.pairwise_cons.2 ⟨fun entry hmem => heq ▸ hfirst entry hmem, hothers⟩
      · next hne =>
        refine List.pairwise_cons.2 ⟨fun entry hmem => ?_, ih hothers⟩
        rcases mem_insertEntry hmem with rfl | hmem
        · exact lt_of_not_lt_of_ne hlt hne
        · exact hfirst entry hmem

/-- Writes the namespace of a scope; an earlier one is forgotten. -/
def insert (scope name : String) (namespaces : Namespaces) : Namespaces :=
  ⟨insertEntry scope name namespaces.entries, pairwise_insertEntry scope name namespaces.ascending⟩

/-- The namespace of a scope, if one is written. -/
def get? (namespaces : Namespaces) (scope : String) : Option String :=
  (namespaces.entries.find? (·.1 = scope)).map (·.2)

/-- After a namespace was written for a scope, that scope has it and the other scopes
have what they had. -/
theorem get?_insert (scope name : String) (namespaces : Namespaces) (other : String) :
    (namespaces.insert scope name).get? other =
      if scope = other then some name else namespaces.get? other := by
  obtain ⟨entries, _⟩ := namespaces
  simp only [insert, get?]
  induction entries with
  | nil =>
    by_cases h : scope = other <;> simp [insertEntry, h]
  | cons first others ih =>
    rename_i hascending
    have ih := ih (List.pairwise_cons.1 hascending).2
    unfold insertEntry
    split
    · by_cases h : scope = other <;> simp [h]
    · split
      · next heq =>
        by_cases h : scope = other
        · simp [h]
        · simp [h, ← heq]
      · next hne =>
        by_cases h : first.1 = other
        · have hscope : ¬scope = other := fun hs => hne (hs.trans h.symm)
          simp [h, hscope]
        · simpa [List.find?_cons, h] using ih

end Namespaces

end ServiceIdl
