import Mathlib.Order.Lattice

/-! A register of observations, each made at a time: one replaces the current one unless
that is later. What is kept depends on which observations came, not on their order and
not on how often they came. -/
namespace OpenVibeHost.Observations

variable {ο τ : Type} [LinearOrder τ] (time : ο → τ)

/-- An observation replaces the current one unless that is later. -/
def keep (current : Option ο) (o : ο) : Option ο :=
  match current with
  | none => some o
  | some c => if time o < time c then some c else some o

/-- What is kept once all have come. -/
def kept (current : Option ο) (os : List ο) : Option ο := os.foldl (keep time) current

variable {time} {current : Option ο} {newest o : ο} {os : List ο}

theorem keep_newest (latest : ∀ c, current = some c → time c ≤ time newest) :
    keep time current newest = some newest := by
  cases current with
  | none => rfl
  | some c => simp [keep, not_lt.mpr (latest c rfl)]

theorem keep_cases (current : Option ο) (o : ο) : keep time current o = current ∨ keep time current o = some o := by
  cases current with
  | none => exact .inr rfl
  | some c =>
    by_cases older : time o < time c
    · exact .inl (by simp [keep, older])
    · exact .inr (by simp [keep, older])

/-- The newest observation stays, where no other has its time. -/
theorem kept_of_current (latest : ∀ o ∈ os, time o ≤ time newest)
    (alone : ∀ o ∈ os, time o = time newest → o = newest) : kept time (some newest) os = some newest := by
  induction os with
  | nil => rfl
  | cons o rest ih =>
    have here : keep time (some newest) o = some newest := by
      by_cases older : time o < time newest
      · simp [keep, older]
      · have same := alone o List.mem_cons_self (le_antisymm (latest o List.mem_cons_self) (not_lt.mp older))
        simp [keep, same]
    unfold kept at ih ⊢
    rw [List.foldl_cons, here]
    exact ih (fun o mem => latest o (List.mem_cons_of_mem _ mem))
      fun o mem => alone o (List.mem_cons_of_mem _ mem)

/-- Whatever the order and the repetition, the newest observation is kept. -/
theorem kept_newest (latest : ∀ o ∈ os, time o ≤ time newest)
    (alone : ∀ o ∈ os, time o = time newest → o = newest) (there : newest ∈ os)
    (start : ∀ c, current = some c → time c ≤ time newest) : kept time current os = some newest := by
  induction os generalizing current with
  | nil => cases there
  | cons o rest ih =>
    have later := fun o mem => latest o (List.mem_cons_of_mem _ mem)
    have apart := fun o mem => alone o (List.mem_cons_of_mem _ mem)
    by_cases here : o = newest
    · subst here
      unfold kept
      rw [List.foldl_cons, keep_newest start]
      exact kept_of_current later apart
    · have mem : newest ∈ rest := (List.mem_cons.mp there).resolve_left fun same => here same.symm
      refine ih later apart mem fun c same => ?_
      rcases @keep_cases _ _ _ time current o with kept | kept
      · exact start c (kept.symm.trans same)
      · cases kept.symm.trans same
        exact latest o List.mem_cons_self

end OpenVibeHost.Observations
