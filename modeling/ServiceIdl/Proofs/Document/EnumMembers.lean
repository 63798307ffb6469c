import Mathlib.Data.List.Induction
import Mathlib.Data.List.Pairwise
import ServiceIdl.Document.Enum

/-!
# Members that are put in one after the other

An enum to which members are given one after the other remembers, for each name, the last of them,
and lists what it remembers in the order in which it came. So the insertions themselves say what the
enum is: a member of it is an insertion behind which there is no other one of its name.
-/

namespace ServiceIdl

/-- The members are put in one after the other. -/
def Enum.insertAll (enum : Enum) (insertions : List EnumMember) : Enum :=
  insertions.foldl (fun enum member => enum.insert member.name member.value) enum

/-- At a place among the insertions there is the last one of a name. -/
def IsLastInsertion (insertions : List EnumMember) (place : Nat) (member : EnumMember) : Prop :=
  insertions[place]? = some member ∧
    ∀ later other, place < later → insertions[later]? = some other → other.name ≠ member.name

variable {insertions : List EnumMember} {place : Nat} {member : EnumMember}

/-! ### The last insertion of a name -/

/-- One more insertion is the last one of its name, and changes nothing for the other names. -/
theorem isLastInsertion_concat_iff {added : EnumMember} :
    IsLastInsertion (insertions ++ [added]) place member ↔
      IsLastInsertion insertions place member ∧ member.name ≠ added.name ∨
        place = insertions.length ∧ member = added := by
  have hadded : (insertions ++ [added])[insertions.length]? = some added := by simp
  constructor
  · rintro ⟨hplace, hlater⟩
    rcases Nat.lt_trichotomy place insertions.length with hlt | rfl | hgt
    · rw [List.getElem?_append_left hlt] at hplace
      refine .inl ⟨⟨hplace, fun later other hless hother => ?_⟩, ?_⟩
      · obtain ⟨hbound, _⟩ := List.getElem?_eq_some_iff.1 hother
        exact hlater later other hless (by rwa [List.getElem?_append_left hbound])
      · exact (hlater _ added hlt hadded).symm
    · exact .inr ⟨rfl, Option.some.inj (hplace.symm.trans hadded)⟩
    · obtain ⟨hbound, _⟩ := List.getElem?_eq_some_iff.1 hplace
      rw [List.length_append, List.length_singleton] at hbound
      omega
  · rintro (⟨⟨hplace, hlater⟩, hname⟩ | ⟨rfl, rfl⟩)
    · obtain ⟨hbound, _⟩ := List.getElem?_eq_some_iff.1 hplace
      refine ⟨by rwa [List.getElem?_append_left hbound], fun later other hless hother => ?_⟩
      by_cases hold : later < insertions.length
      · rw [List.getElem?_append_left hold] at hother
        exact hlater later other hless hother
      · obtain ⟨hlast, _⟩ := List.getElem?_eq_some_iff.1 hother
        rw [List.length_append, List.length_singleton] at hlast
        obtain rfl : later = insertions.length := by omega
        obtain rfl := Option.some.inj (hadded.symm.trans hother)
        exact hname.symm
    · refine ⟨hadded, fun later other hless hother => ?_⟩
      obtain ⟨hbound, _⟩ := List.getElem?_eq_some_iff.1 hother
      rw [List.length_append, List.length_singleton] at hbound
      omega

/-- A name has one last insertion at most. -/
theorem IsLastInsertion.place_eq {place' : Nat} {other : EnumMember}
    (h : IsLastInsertion insertions place member) (h' : IsLastInsertion insertions place' other)
    (hname : member.name = other.name) : place = place' := by
  rcases Nat.lt_trichotomy place place' with hlt | heq | hgt
  · exact absurd hname.symm (h.2 place' other hlt h'.1)
  · exact heq
  · exact absurd hname (h'.2 place member hgt h.1)

/-- A name that is inserted has a last insertion. -/
theorem exists_isLastInsertion_iff (insertions : List EnumMember) (name : String) :
    (∃ place member, IsLastInsertion insertions place member ∧ member.name = name) ↔
      name ∈ insertions.map (·.name) := by
  induction insertions using List.reverseRecOn with
  | nil => simp [IsLastInsertion]
  | append_singleton insertions added ih =>
    rw [List.map_append, List.mem_append, List.map_singleton, List.mem_singleton, ← ih]
    simp only [isLastInsertion_concat_iff]
    constructor
    · rintro ⟨place, member, ⟨hlast, _⟩ | ⟨_, rfl⟩, rfl⟩
      · exact .inl ⟨place, member, hlast, rfl⟩
      · exact .inr rfl
    · rintro (⟨place, member, hlast, rfl⟩ | rfl)
      · by_cases hname : member.name = added.name
        · exact ⟨_, added, .inr ⟨rfl, rfl⟩, hname.symm⟩
        · exact ⟨place, member, .inl ⟨hlast, hname⟩, rfl⟩
      · exact ⟨_, added, .inr ⟨rfl, rfl⟩, rfl⟩

/-! ### What an enum remembers -/

namespace Enum

/-- The members of an enum are the last insertions of their names, in the order in which these
were made, and each name has the number of its last insertion. -/
structure Remembers (insertions : List EnumMember) (enum : Enum) : Prop where
  mem_iff : ∀ member, member ∈ enum.members ↔ ∃ place, IsLastInsertion insertions place member
  ordered : enum.members.Pairwise fun first second => ∃ place place', place < place' ∧
    IsLastInsertion insertions place first ∧ IsLastInsertion insertions place' second
  valueOf?_eq : ∀ name value, enum.valueOf? name = some value ↔
    ∃ place, IsLastInsertion insertions place ⟨name, value⟩

theorem remembers_nil {enum : Enum} (h : enum.members = []) : enum.Remembers [] where
  mem_iff := by simp [h, IsLastInsertion]
  ordered := by simp [h]
  valueOf?_eq := by simp [valueOf?, h, IsLastInsertion]

namespace Remembers

variable {enum : Enum} {added : EnumMember}

/-- One more insertion is remembered instead of an earlier one of its name. -/
theorem insert (h : enum.Remembers insertions) :
    (enum.insert added.name added.value).Remembers (insertions ++ [added]) where
  mem_iff member := by
    simp only [Enum.insert, isLastInsertion_concat_iff, List.mem_append, List.mem_filter,
      List.mem_singleton, decide_eq_true_eq, h.mem_iff, exists_or, exists_and_right, ne_eq,
      exists_eq, true_and]
  ordered := by
    have hkept {place : Nat} {member : EnumMember} (hlast : IsLastInsertion insertions place member)
        (hname : member.name ≠ added.name) :
        IsLastInsertion (insertions ++ [added]) place member :=
      isLastInsertion_concat_iff.2 (.inl ⟨hlast, hname⟩)
    refine List.pairwise_append.2 ⟨?_, List.pairwise_singleton _ _, ?_⟩
    · rw [List.pairwise_filter]
      refine h.ordered.imp ?_
      rintro first second ⟨place, place', hless, hfirst, hsecond⟩ hname hname'
      exact ⟨place, place', hless, hkept hfirst (of_decide_eq_true hname),
        hkept hsecond (of_decide_eq_true hname')⟩
    · intro first hfirst second hsecond
      obtain rfl : second = added := List.mem_singleton.1 hsecond
      obtain ⟨hmem, hname⟩ := List.mem_filter.1 hfirst
      obtain ⟨place, hlast⟩ := (h.mem_iff first).1 hmem
      obtain ⟨hbound, _⟩ := List.getElem?_eq_some_iff.1 hlast.1
      exact ⟨place, insertions.length, hbound, hkept hlast (of_decide_eq_true hname),
        isLastInsertion_concat_iff.2 (.inr ⟨rfl, rfl⟩)⟩
  valueOf?_eq name value := by
    obtain ⟨addedName, addedValue⟩ := added
    rw [valueOf?_insert]
    simp only [isLastInsertion_concat_iff, EnumMember.mk.injEq]
    by_cases hname : addedName = name
    · subst hname
      simp [eq_comm]
    · rw [if_neg hname, h.valueOf?_eq]
      simp [Ne.symm hname]

theorem mem_names_iff (h : enum.Remembers insertions) (name : String) :
    name ∈ enum.members.map (·.name) ↔ name ∈ insertions.map (·.name) := by
  rw [← exists_isLastInsertion_iff insertions, List.mem_map]
  simp only [h.mem_iff]
  constructor
  · rintro ⟨member, ⟨place, hlast⟩, hname⟩
    exact ⟨place, member, hlast, hname⟩
  · rintro ⟨place, member, hlast, hname⟩
    exact ⟨member, ⟨place, hlast⟩, hname⟩

/-- No name has two members. -/
theorem nodup_names (h : enum.Remembers insertions) : (enum.members.map (·.name)).Nodup := by
  refine List.pairwise_map.2 (h.ordered.imp ?_)
  rintro first second ⟨place, place', hless, hfirst, hsecond⟩ hname
  exact absurd (hfirst.place_eq hsecond hname) (Nat.ne_of_lt hless)

/-- Only a name that was never inserted has no number. -/
theorem valueOf?_eq_none_iff (h : enum.Remembers insertions) (name : String) :
    enum.valueOf? name = none ↔ name ∉ insertions.map (·.name) := by
  rw [← exists_isLastInsertion_iff insertions, Option.eq_none_iff_forall_ne_some]
  simp only [ne_eq, h.valueOf?_eq]
  constructor
  · rintro hnone ⟨place, member, hlast, rfl⟩
    exact hnone member.value ⟨place, hlast⟩
  · rintro hnone value ⟨place, hlast⟩
    exact hnone ⟨place, ⟨name, value⟩, hlast, rfl⟩

/-- What holds of each insertion and every later one holds of each member and every later one. -/
theorem pairwise_members {R : EnumMember → EnumMember → Prop} (h : enum.Remembers insertions)
    (hinsertions : insertions.Pairwise R) : enum.members.Pairwise R := by
  refine h.ordered.imp ?_
  rintro first second ⟨place, place', hless, ⟨hfirst, _⟩, ⟨hsecond, _⟩⟩
  obtain ⟨hbound, rfl⟩ := List.getElem?_eq_some_iff.1 hfirst
  obtain ⟨hbound', rfl⟩ := List.getElem?_eq_some_iff.1 hsecond
  exact List.pairwise_iff_getElem.1 hinsertions place place' hbound hbound' hless

end Remembers

/-- However many members are put into an enum without members, it remembers the last of each
name. -/
theorem remembers_insertAll {enum : Enum} (h : enum.members = [])
    (insertions : List EnumMember) : (enum.insertAll insertions).Remembers insertions := by
  induction insertions using List.reverseRecOn with
  | nil => exact remembers_nil h
  | append_singleton insertions added ih =>
    rw [insertAll, List.foldl_append]
    exact ih.insert

/-- An enum that starts without members is an ordered map in which the last write wins: it has one
member for each name that was inserted, with the number of the last insertion of the name, in the
order of these insertions, and a name is looked up as it was inserted last. If the numbers that were
inserted ascend, then so do those of the members. -/
theorem insertAll_last_wins (name docText : String) (insertions : List EnumMember) :
    let enum := insertAll ⟨name, [], docText⟩ insertions
    ((enum.members.map (·.name)).Nodup ∧
      ∀ name, name ∈ enum.members.map (·.name) ↔ name ∈ insertions.map (·.name)) ∧
    enum.Remembers insertions ∧
    (∀ name, enum.valueOf? name = none ↔ name ∉ insertions.map (·.name)) ∧
    (insertions.Pairwise (·.value < ·.value) → enum.members.Pairwise (·.value < ·.value)) := by
  have h : (insertAll ⟨name, [], docText⟩ insertions).Remembers insertions :=
    remembers_insertAll rfl insertions
  exact ⟨⟨h.nodup_names, h.mem_names_iff⟩, h, h.valueOf?_eq_none_iff, h.pairwise_members⟩

/-- A name that is inserted again, with ascending numbers. -/
theorem insertAll_last_wins_again :
    (insertAll empty [⟨"B", 1⟩, ⟨"A", 2⟩, ⟨"B", 3⟩]).members = [⟨"A", 2⟩, ⟨"B", 3⟩] ∧
      [EnumMember.mk "B" 1, ⟨"A", 2⟩, ⟨"B", 3⟩].Pairwise (·.value < ·.value) ∧
      (insertAll empty [⟨"B", 1⟩, ⟨"A", 2⟩, ⟨"B", 3⟩]).members.Pairwise (·.value < ·.value) := by
  have hascending : [EnumMember.mk "B" 1, ⟨"A", 2⟩, ⟨"B", 3⟩].Pairwise (·.value < ·.value) := by
    decide
  exact ⟨by decide, hascending, (insertAll_last_wins "" "" _).2.2.2 hascending⟩

end Enum

end ServiceIdl
