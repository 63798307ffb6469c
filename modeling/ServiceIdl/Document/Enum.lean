import ServiceIdl.Document.Basic

/-!
# Members of an enum

An enum is a list of members with distinct names. A member that is inserted goes
to the end, and an earlier member of its name goes away.
-/

namespace ServiceIdl.Enum

/-- An enum without members. -/
def empty : Enum := ⟨"", [], ""⟩

/-- Appends a member in exchange for an earlier one of its name. -/
def insert (enum : Enum) (name : String) (value : Int32) : Enum :=
  { enum with members := enum.members.filter (·.name ≠ name) ++ [⟨name, value⟩] }

/-- The number of a name. -/
def valueOf? (enum : Enum) (name : String) : Option Int32 :=
  (enum.members.find? (·.name = name)).map (·.value)

private theorem find?_filter_name_ne (members : List EnumMember) (name other : String) :
    (members.filter (·.name ≠ name)).find? (·.name = other) =
      if name = other then none else members.find? (·.name = other) := by
  induction members with
  | nil => simp
  | cons member members ih =>
    rw [List.filter_cons]
    by_cases hname : member.name = name
    · have hdrop : ¬decide (member.name ≠ name) = true := by simp [hname]
      rw [if_neg hdrop, ih]
      by_cases h : name = other
      · rw [if_pos h, if_pos h]
      · have hother : ¬member.name = other := fun ho => h (hname.symm.trans ho)
        simp [h, hother]
    · have hkeep : decide (member.name ≠ name) = true := by simp [hname]
      rw [if_pos hkeep, List.find?_cons, List.find?_cons, ih]
      by_cases h : member.name = other
      · have hne : ¬name = other := fun ho => hname (h.trans ho.symm)
        simp [h, hne]
      · simp [h]

/-- After a member was inserted, its name has its number and the other names have what
they had. -/
theorem valueOf?_insert (enum : Enum) (name : String) (value : Int32) (other : String) :
    (enum.insert name value).valueOf? other =
      if name = other then some value else enum.valueOf? other := by
  simp only [insert, valueOf?, List.find?_append, find?_filter_name_ne]
  by_cases h : name = other <;> simp [h]

end ServiceIdl.Enum
