import Mathlib.Data.List.Basic

/-! The pieces of a list that is cut at a sign, by what stands around them, and the
last item with a property. -/
namespace OpenVibeHost.Pieces

variable {α : Type*} [BEq α] [LawfulBEq α]

/-- What stands before a piece, and what stands after one. -/
def Begins (c : α) (before : List α) : Prop := before = [] ∨ ∃ more, before = more ++ [c]

def Ends (c : α) (after : List α) : Prop := after = [] ∨ ∃ more, after = c :: more

theorem splitOn_shape (c : α) (text : List α) : ∃ first later, text.splitOn c = first :: later ∧
    (∃ after, text = first ++ after ∧ Ends c after) ∧
    ∀ part ∈ later, ∃ before after, text = before ++ c :: (part ++ after) ∧ Ends c after := by
  induction text with
  | nil => exact ⟨[], [], rfl, ⟨[], rfl, .inl rfl⟩, fun part among => absurd among List.not_mem_nil⟩
  | cons d rest ih =>
    obtain ⟨first, later, split, ⟨after, whole, ends⟩, each⟩ := ih
    rw [List.splitOn_cons_eq_if_modifyHead]
    by_cases sep : (d == c) = true
    · obtain rfl : d = c := by simpa using sep
      rw [if_pos sep, split]
      refine ⟨[], first :: later, rfl, ⟨d :: rest, rfl, .inr ⟨rest, rfl⟩⟩, fun part among => ?_⟩
      rcases List.mem_cons.1 among with rfl | among
      · exact ⟨[], after, by rw [whole]; rfl, ends⟩
      · obtain ⟨before, after, whole, ends⟩ := each part among
        exact ⟨d :: before, after, by rw [whole]; rfl, ends⟩
    · rw [if_neg sep, split, List.modifyHead_cons]
      refine ⟨d :: first, later, rfl, ⟨after, by rw [whole]; rfl, ends⟩, fun part among => ?_⟩
      obtain ⟨before, after, whole, ends⟩ := each part among
      exact ⟨d :: before, after, by rw [whole]; rfl, ends⟩

theorem mem_splitOn_of {c : α} {part before after : List α} (plain : c ∉ part) (begins : Begins c before)
    (ends : Ends c after) : part ∈ (before ++ part ++ after).splitOn c := by
  have alone : part ∈ part.splitOn c := by rw [List.splitOn_eq_singleton plain]; exact List.mem_singleton_self _
  have ended : part ∈ (part ++ after).splitOn c := by
    rcases ends with rfl | ⟨more, rfl⟩
    · rwa [List.append_nil]
    · rw [List.splitOn_append_cons_self]
      exact List.mem_append_left _ alone
  rcases begins with rfl | ⟨more, rfl⟩
  · exact ended
  · rw [List.append_assoc, List.append_assoc, List.singleton_append, List.splitOn_append_cons_self]
    exact List.mem_append_right _ ended

theorem mem_tail_splitOn_of {c : α} {part before after : List α} (plain : c ∉ part) (ends : Ends c after) :
    part ∈ ((before ++ c :: (part ++ after)).splitOn c).tail := by
  have ended := @mem_splitOn_of _ _ _ c part [] after plain (.inl rfl) ends
  rw [List.splitOn_append_cons_self]
  obtain ⟨first, later, split, -⟩ := splitOn_shape c before
  rw [split]
  exact List.mem_append_right _ ended

theorem of_mem_tail {c : α} {part text : List α} (among : part ∈ (text.splitOn c).tail) :
    ∃ before after, text = before ++ c :: (part ++ after) ∧ Ends c after := by
  obtain ⟨first, later, split, -, each⟩ := splitOn_shape c text
  rw [split] at among
  exact each part among

theorem of_mem_splitOn {c : α} {part text : List α} (among : part ∈ text.splitOn c) :
    ∃ before after, text = before ++ part ++ after ∧ Begins c before ∧ Ends c after := by
  obtain ⟨first, later, split, ⟨after, whole, ends⟩, each⟩ := splitOn_shape c text
  rw [split] at among
  rcases List.mem_cons.1 among with rfl | among
  · exact ⟨[], after, whole, .inl rfl, ends⟩
  · obtain ⟨before, after, whole, ends⟩ := each part among
    exact ⟨before ++ [c], after, by rw [whole]; simp, .inr ⟨before, rfl⟩, ends⟩

theorem splitOn_append_of_not_mem {c : α} {first later : List α} (plain : c ∉ first) :
    (first ++ later).splitOn c = (later.splitOn c).modifyHead (first ++ ·) := by
  induction first with
  | nil =>
    obtain ⟨head, tail, split, -⟩ := splitOn_shape c later
    simp [split]
  | cons d first ih =>
    obtain ⟨other, plain⟩ := not_or.1 (fun h => plain (List.mem_cons.2 h))
    rw [List.cons_append, List.splitOn_cons_eq_if_modifyHead, if_neg (by simpa using Ne.symm other), ih plain,
      List.modifyHead_modifyHead]
    rfl

/-- Where there is one, there is a last one. -/
theorem exists_last {α : Type*} {p : α → Prop} {l : List α} (some_one : ∃ a ∈ l, p a) :
    ∃ before a after, l = before ++ a :: after ∧ p a ∧ ∀ b ∈ after, ¬ p b := by
  induction l with
  | nil => exact absurd some_one (by simp)
  | cons first rest ih =>
    by_cases later : ∃ a ∈ rest, p a
    · obtain ⟨before, a, after, rfl, this, none⟩ := ih later
      exact ⟨first :: before, a, after, rfl, this, none⟩
    · obtain ⟨a, among, this⟩ := some_one
      rcases List.mem_cons.1 among with rfl | inRest
      · exact ⟨[], a, rest, rfl, this, fun b isLater holds => later ⟨b, isLater, holds⟩⟩
      · exact absurd ⟨a, inRest, this⟩ later

end OpenVibeHost.Pieces
