import Mathlib.Data.List.Nodup
import Mathlib.Data.List.Basic
import Mathlib.Data.List.Induction

/-! Maps that remember the order in which their keys came, as JavaScript's `Map` does, and maps of a bounded size that
make room by dropping the key that came first. -/
namespace OrderedMaps

/-- Entries under distinct keys, the oldest first. -/
structure OrderedMap (α β : Type*) where
  entries : List (α × β)
  distinct : (entries.map Prod.fst).Nodup

namespace OrderedMap

variable {α β : Type*}

def empty : OrderedMap α β := ⟨[], List.nodup_nil⟩

def size (m : OrderedMap α β) : Nat := m.entries.length

/-- Without the key that came first. -/
def dropOldest (m : OrderedMap α β) : OrderedMap α β where
  entries := m.entries.tail
  distinct := by
    rw [List.map_tail]
    exact m.distinct.sublist (List.tail_sublist _)

theorem mem_dropOldest {m : OrderedMap α β} {entry : α × β} (mem : entry ∈ m.dropOldest.entries) : entry ∈ m.entries :=
  List.mem_of_mem_tail mem

theorem size_dropOldest (m : OrderedMap α β) : m.dropOldest.size = m.size - 1 := List.length_tail

variable [DecidableEq α]

def get (m : OrderedMap α β) (key : α) : Option β := m.entries.lookup key

/-- A key that is there keeps its place. -/
def set (m : OrderedMap α β) (key : α) (value : β) : OrderedMap α β where
  entries :=
    if key ∈ m.entries.map Prod.fst then m.entries.map fun entry => if entry.1 = key then (key, value) else entry
    else m.entries ++ [(key, value)]
  distinct := by
    split
    · have same : (Prod.fst ∘ fun entry : α × β => if entry.1 = key then (key, value) else entry) = Prod.fst := by
        funext entry
        by_cases here : entry.1 = key <;> simp [here]
      rw [List.map_map, same]
      exact m.distinct
    · rename_i free
      rw [List.map_append, List.nodup_append]
      refine ⟨m.distinct, List.nodup_singleton _, ?_⟩
      rintro a mem b last rfl
      simp only [List.map_cons, List.map_nil, List.mem_singleton] at last
      exact free (last ▸ mem)

/-- Sets a key; a map of `limit` entries drops its oldest one first. -/
def put (limit : Nat) (m : OrderedMap α β) (key : α) (value : β) : OrderedMap α β :=
  (if limit ≤ m.size then m.dropOldest else m).set key value

variable {m : OrderedMap α β} {key other : α} {value found : β} {entry : α × β} {limit : Nat}

theorem mem_of_get (got : m.get key = some found) : (key, found) ∈ m.entries := by
  unfold get at got
  generalize m.entries = entries at got ⊢
  induction entries with
  | nil => cases got
  | cons first rest ih =>
    rw [List.lookup_cons] at got
    by_cases here : key = first.1
    · simp only [here, beq_self_eq_true, Option.some.injEq] at got
      exact here ▸ got ▸ List.mem_cons_self
    · simp only [beq_eq_false_iff_ne.2 here] at got
      exact List.mem_cons_of_mem _ (ih (by simpa using got))

theorem mem_set (mem : entry ∈ (m.set key value).entries) : entry = (key, value) ∨ entry ∈ m.entries := by
  simp only [set] at mem
  split at mem
  · obtain ⟨old, there, same⟩ := List.mem_map.mp mem
    split at same
    · exact .inl same.symm
    · exact .inr (same ▸ there)
  · rcases List.mem_append.mp mem with old | new
    · exact .inr old
    · exact .inl (List.mem_singleton.mp new)

/-- What is in a map after a `put` was put or was in it before. -/
theorem mem_put (mem : entry ∈ (m.put limit key value).entries) : entry = (key, value) ∨ entry ∈ m.entries := by
  rcases mem_set mem with new | old
  · exact .inl new
  · split at old
    · exact .inr (mem_dropOldest old)
    · exact .inr old

theorem size_set_le (m : OrderedMap α β) (key : α) (value : β) : (m.set key value).size ≤ m.size + 1 := by
  unfold set size
  dsimp only
  split <;> simp

/-- A map that is never over its limit is not over it after a `put`. -/
theorem size_put_le (positive : 0 < limit) (within : m.size ≤ limit) : (m.put limit key value).size ≤ limit := by
  unfold put
  split
  · have left := size_set_le m.dropOldest key value
    rw [size_dropOldest] at left
    omega
  · have left := size_set_le m key value
    omega

theorem lookup_replaced {entries : List (α × β)} (there : key ∈ entries.map Prod.fst) :
    (entries.map fun entry => if entry.1 = key then (key, value) else entry).lookup key = some value := by
  induction entries with
  | nil => simp at there
  | cons first rest ih =>
    rw [List.map_cons, List.lookup_cons]
    by_cases here : first.1 = key
    · simp [here]
    · have later : key ∈ rest.map Prod.fst := by
        rw [List.map_cons, List.mem_cons] at there
        exact there.resolve_left (Ne.symm here)
      simp only [if_neg here, beq_eq_false_iff_ne.2 (Ne.symm here)]
      exact ih later

theorem lookup_kept (entries : List (α × β)) (ne : other ≠ key) :
    (entries.map fun entry => if entry.1 = key then (key, value) else entry).lookup other = entries.lookup other := by
  induction entries with
  | nil => rfl
  | cons first rest ih =>
    rw [List.map_cons, List.lookup_cons, List.lookup_cons, ih]
    by_cases here : first.1 = key
    · rw [if_pos here, here]
      simp only [beq_eq_false_iff_ne.2 ne]
    · rw [if_neg here]

theorem get_set (m : OrderedMap α β) (key other : α) (value : β) :
    (m.set key value).get other = if other = key then some value else m.get other := by
  unfold get set
  dsimp only
  split
  · rename_i there
    split
    · rename_i same
      rw [same, lookup_replaced there]
    · rename_i ne
      exact lookup_kept m.entries ne
  · rename_i free
    have none : m.entries.lookup key = none := by
      refine List.lookup_eq_none_iff.mpr fun entry mem => ?_
      simpa using fun eq : key = entry.1 => free (eq ▸ List.mem_map_of_mem mem)
    rw [List.lookup_append]
    by_cases same : other = key
    · rw [same, none]
      simp
    · simp [same, List.lookup_cons, beq_eq_false_iff_ne.2 same]

/-- What is found under a key is what is in the map. -/
theorem get_eq_some_iff : m.get key = some found ↔ (key, found) ∈ m.entries := by
  refine ⟨mem_of_get, fun mem => ?_⟩
  have distinct := m.distinct
  unfold get
  generalize m.entries = entries at mem distinct ⊢
  induction entries with
  | nil => cases mem
  | cons first rest ih =>
    rw [List.map_cons, List.nodup_cons] at distinct
    rw [List.lookup_cons]
    rcases List.mem_cons.mp mem with rfl | later
    · simp
    · have ne : key ≠ first.1 := fun eq => distinct.1 (eq ▸ List.mem_map_of_mem later)
      simp only [beq_eq_false_iff_ne.2 ne]
      exact ih later distinct.2

/-- The map of pairs that are set one after the other. -/
def ofPairs (pairs : List (α × β)) : OrderedMap α β := pairs.foldl (fun m pair => m.set pair.1 pair.2) empty

/-- Under each key is the value that came last for it. -/
theorem get_ofPairs (pairs : List (α × β)) (key : α) : (ofPairs pairs).get key = pairs.reverse.lookup key := by
  induction pairs using List.reverseRecOn with
  | nil => rfl
  | append_singleton first pair ih =>
    rw [List.reverse_append, List.reverse_singleton, List.singleton_append, List.lookup_cons, ← ih, ofPairs,
      List.foldl_append, List.foldl_cons, List.foldl_nil, ← ofPairs, get_set]
    by_cases same : key = pair.1
    · simp [same]
    · simp only [if_neg same, beq_eq_false_iff_ne.2 same]

end OrderedMap

end OrderedMaps
