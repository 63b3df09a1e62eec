import Mathlib.Data.List.Nodup
import Mathlib.Data.List.Basic

/-! Tables with a primary key: rows under ids that are pairwise distinct. -/
namespace OpenVibeHost

/-- A table of rows `ρ` by their id. -/
structure Table (ρ : Type) where
  entries : List (String × ρ)
  distinct : (entries.map (·.1)).Nodup

namespace Table

variable {ρ : Type}

def empty : Table ρ := ⟨[], List.nodup_nil⟩

/-- The row with an id. -/
def get (table : Table ρ) (id : String) : Option ρ :=
  (table.entries.find? (·.1 = id)).map (·.2)

/-- The first row that satisfies `wanted`, with its id. -/
def find (table : Table ρ) (wanted : ρ → Bool) : Option (String × ρ) :=
  table.entries.find? fun entry => wanted entry.2

/-- UPDATE … WHERE id = …. -/
def set (table : Table ρ) (id : String) (row : ρ) : Table ρ where
  entries := table.entries.map fun entry => if entry.1 = id then (id, row) else entry
  distinct := by
    have same : ((fun entry : String × ρ => entry.1) ∘ fun entry : String × ρ =>
        if entry.1 = id then (id, row) else entry) = (·.1) := by
      funext entry
      by_cases h : entry.1 = id <;> simp [h]
    rw [List.map_map, same]
    exact table.distinct

/-- INSERT of a row; none where its id is taken. -/
def add (table : Table ρ) (id : String) (row : ρ) : Option (Table ρ) :=
  if taken : id ∈ table.entries.map (·.1) then none
  else some
    { entries := table.entries ++ [(id, row)]
      distinct := by
        rw [List.map_append, List.nodup_append]
        refine ⟨table.distinct, List.nodup_singleton _, ?_⟩
        rintro a mem b last rfl
        simp only [List.map_cons, List.map_nil, List.mem_singleton] at last
        exact taken (last ▸ mem) }

variable {table table' : Table ρ} {id other : String} {row new : ρ} {wanted : ρ → Bool}

theorem mem_of_get (found : table.get id = some row) : (id, row) ∈ table.entries := by
  simp only [get, Option.map_eq_some_iff] at found
  obtain ⟨⟨key, value⟩, first, rfl⟩ := found
  have at_id : key = id := by simpa using List.find?_some first
  exact at_id ▸ List.mem_of_find?_eq_some first

/-- A row is the one its id gets. -/
theorem get_of_mem (mem : (id, row) ∈ table.entries) : table.get id = some row := by
  have distinct := table.distinct
  unfold get
  generalize table.entries = entries at mem distinct ⊢
  induction entries with
  | nil => cases mem
  | cons entry rest ih =>
    rw [List.map_cons, List.nodup_cons] at distinct
    by_cases here : entry.1 = id
    · have first : entry = (id, row) := by
        rcases List.mem_cons.mp mem with same | later
        · exact same.symm
        · have again : id ∈ rest.map (·.1) := List.mem_map.mpr ⟨_, later, rfl⟩
          exact absurd (here ▸ again) distinct.1
      simp [first]
    · have later : (id, row) ∈ rest := (List.mem_cons.mp mem).resolve_left fun same => here (same ▸ rfl)
      simpa [List.find?_cons, here] using ih later distinct.2

theorem get_of_find (found : table.find wanted = some (id, row)) :
    table.get id = some row ∧ wanted row = true :=
  ⟨get_of_mem (List.mem_of_find?_eq_some found), by simpa using List.find?_some found⟩

theorem get_set (there : table.get id = some row) : (table.set id new).get id = some new := by
  apply get_of_mem
  simp only [set, List.mem_map]
  exact ⟨(id, row), mem_of_get there, by simp⟩

theorem get_set_ne (ne : other ≠ id) : (table.set id new).get other = table.get other := by
  have same : ((fun entry : String × ρ => decide (entry.1 = other)) ∘ fun entry : String × ρ =>
      if entry.1 = id then (id, new) else entry) = fun entry => decide (entry.1 = other) := by
    funext entry
    by_cases h : entry.1 = id <;> simp [h]
  simp only [get, set, List.find?_map, same, Option.map_map]
  cases first : table.entries.find? fun entry => entry.1 = other with
  | none => rfl
  | some entry =>
    have at_other : entry.1 = other := by simpa using List.find?_some first
    simp [at_other, ne]

/-- A row that is set stays the one found, where it still satisfies what is looked for. -/
theorem find_set (found : table.find wanted = some (id, row)) (still : wanted new = true) :
    (table.set id new).find wanted = some (id, new) := by
  have distinct := table.distinct
  unfold find at found ⊢
  unfold set
  dsimp only
  generalize table.entries = entries at found distinct ⊢
  induction entries with
  | nil => cases found
  | cons entry rest ih =>
    rw [List.map_cons, List.nodup_cons] at distinct
    rw [List.find?_cons] at found
    by_cases here : wanted entry.2 = true
    · rw [here] at found
      cases found
      simp [still]
    · simp only [here] at found
      have later : id ∈ rest.map (·.1) := List.mem_map.mpr ⟨_, List.mem_of_find?_eq_some found, rfl⟩
      have other : entry.1 ≠ id := fun same => distinct.1 (same ▸ later)
      simp only [List.map_cons, if_neg other, List.find?_cons, here]
      exact ih found distinct.2

theorem get_add (added : table.add id row = some table') : table'.get id = some row := by
  unfold add at added
  split at added
  · cases added
  · cases added
    exact get_of_mem (List.mem_append_right _ List.mem_cons_self)

theorem get_add_ne (added : table.add id row = some table') (ne : other ≠ id) :
    table'.get other = table.get other := by
  unfold add at added
  split at added
  · cases added
  · cases added
    have none_of : ¬ id = other := fun same => ne same.symm
    simp [get, List.find?_append, none_of]

theorem get_before_add (added : table.add id row = some table') : table.get id = none := by
  unfold add at added
  split at added
  · cases added
  · rename_i fresh
    simp only [get, Option.map_eq_none_iff, List.find?_eq_none, decide_eq_true_eq]
    rintro entry mem rfl
    exact fresh (List.mem_map.mpr ⟨entry, mem, rfl⟩)

/-- An id that no row has can be added. -/
theorem add_of_get_none (absent : table.get id = none) : ∃ table', table.add id row = some table' := by
  have fresh : id ∉ table.entries.map (·.1) := by
    intro taken
    obtain ⟨entry, mem, rfl⟩ := List.mem_map.mp taken
    have found : table.get entry.1 = some entry.2 := get_of_mem mem
    cases absent.symm.trans found
  unfold add
  rw [dif_neg fresh]
  exact ⟨_, rfl⟩

theorem find_add (added : table.add id row = some table') (absent : table.find wanted = none)
    (satisfies : wanted row = true) : table'.find wanted = some (id, row) := by
  unfold add at added
  split at added
  · cases added
  · cases added
    unfold find at absent ⊢
    simp [List.find?_append, absent, satisfies]

end Table

end OpenVibeHost
