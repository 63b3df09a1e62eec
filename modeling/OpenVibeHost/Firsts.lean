import Mathlib.Data.List.Sort

/-! The item of a list that comes first in the order of a key, of those with one key the one that stands first. It has
a quality just where an item with the quality comes before every item without. -/
namespace OpenVibeHost.Firsts

variable {α κ : Type} [LinearOrder κ] (key : α → κ)

/-- The item comes before all others. -/
def Leads (items : List α) (m : α) : Prop :=
  ∃ before after, items = before ++ m :: after ∧ (∀ b ∈ before, key m < key b) ∧ ∀ b ∈ after, key m ≤ key b

/-- An item with the quality comes before every item without. -/
def LedBy (quality : α → Prop) (items : List α) : Prop :=
  ∃ before a after, items = before ++ a :: after ∧ quality a ∧ (∀ b ∈ before, ¬ quality b → key a < key b) ∧
    ∀ b ∈ after, ¬ quality b → key a ≤ key b

variable {key} {items : List α} {m : α}

/-- The head of the sorted list comes before all others. -/
theorem head_leads (first : (items.insertionSort fun a b => key a ≤ key b).head? = some m) : Leads key items m := by
  induction items generalizing m with
  | nil => cases first
  | cons a rest ih =>
    rw [List.insertionSort_cons] at first
    cases sorted : rest.insertionSort fun a b => key a ≤ key b with
    | nil =>
      rw [sorted] at first
      cases first
      have none_left : rest = [] := List.length_eq_zero_iff.mp (by
        rw [← List.length_insertionSort (fun a b => key a ≤ key b) rest, sorted, List.length_nil])
      exact ⟨[], rest, rfl, by simp, by simp [none_left]⟩
    | cons h more =>
      obtain ⟨before, after, rfl, below, least⟩ := ih (by rw [sorted]; rfl)
      rw [sorted, List.orderedInsert_cons] at first
      by_cases le : key a ≤ key h
      · rw [if_pos le] at first
        cases first
        refine ⟨[], _, rfl, by simp, fun b mem => ?_⟩
        rcases List.mem_append.mp mem with early | late
        · exact le.trans (below b early).le
        · rcases List.mem_cons.mp late with rfl | later
          · exact le
          · exact le.trans (least b later)
      · rw [if_neg le] at first
        cases first
        refine ⟨a :: before, after, rfl, fun b mem => ?_, least⟩
        rcases List.mem_cons.mp mem with rfl | early
        · exact not_le.mp le
        · exact below b early

theorem Leads.mem (leads : Leads key items m) : m ∈ items := by
  obtain ⟨before, after, rfl, -⟩ := leads
  exact List.mem_append_right _ List.mem_cons_self

theorem Leads.least (leads : Leads key items m) : ∀ b ∈ items, key m ≤ key b := by
  obtain ⟨before, after, rfl, below, least⟩ := leads
  intro b mem
  rcases List.mem_append.mp mem with early | late
  · exact (below b early).le
  · rcases List.mem_cons.mp late with rfl | later
    · exact le_rfl
    · exact least b later

theorem Leads.quality_iff (leads : Leads key items m) (quality : α → Prop) :
    quality m ↔ LedBy key quality items := by
  constructor
  · obtain ⟨before, after, rfl, below, least⟩ := leads
    exact fun holds => ⟨before, m, after, rfl, holds, fun b mem _ => below b mem, fun b mem _ => least b mem⟩
  · rintro ⟨before, a, after, split, holds, below, least⟩
    by_contra without
    have le := leads.least a (split ▸ List.mem_append_right _ List.mem_cons_self)
    obtain ⟨before', after', split', below', -⟩ := leads
    -- The one without stands after the one with, so it does not come before it.
    rcases List.append_eq_append_iff.mp (split.symm.trans split') with ⟨between, rfl, rest⟩ | ⟨between, rfl, rest⟩
    · cases between with
      | nil => exact without ((List.cons.inj rest).1 ▸ holds)
      | cons b between =>
        obtain ⟨rfl, rfl⟩ := List.cons.inj rest
        exact absurd (below' a (by simp)) (not_lt.mpr (least m (by simp) without))
    · cases between with
      | nil => exact without ((List.cons.inj rest).1 ▸ holds)
      | cons b between =>
        obtain ⟨rfl, -⟩ := List.cons.inj rest
        exact absurd (below m (by simp) without) (not_lt.mpr le)

end OpenVibeHost.Firsts
