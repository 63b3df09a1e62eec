import Mathlib.Data.List.Sort

/-! Recorded changes of a value. In the order of their times they form a chain where
each starts from the value the one before it led to, and the last one led to the
current value. A change recorded later than all others keeps the chain. -/
namespace OpenVibeHost.Histories

variable {ρ β τ : Type} [LinearOrder τ] (time : ρ → τ) (before after : ρ → β)

/-- The changes in the order of their times. -/
def ordered (changes : List ρ) : List ρ := changes.insertionSort fun c d => time c ≤ time d

/-- A chain of changes that leads to the current value. -/
def Linked : List ρ → Option β → Prop
  | [], _ => True
  | [c], current => some (after c) = current
  | c :: d :: rest, current => after c = before d ∧ Linked (d :: rest) current

instance decidableLinked [DecidableEq β] : ∀ changes current, Decidable (Linked before after changes current)
  | [], _ => isTrue trivial
  | [c], current => inferInstanceAs (Decidable (some (after c) = current))
  | c :: d :: rest, current =>
    have : Decidable (Linked before after (d :: rest) current) := decidableLinked (d :: rest) current
    inferInstanceAs (Decidable (after c = before d ∧ Linked before after (d :: rest) current))

variable {time before after} {changes : List ρ} {c : ρ} {current : β}

/-- A chain goes on from the current value. -/
theorem Linked.append (linked : Linked before after changes (some current)) (starts : before c = current) :
    Linked before after (changes ++ [c]) (some (after c)) := by
  induction changes with
  | nil => rfl
  | cons first rest ih =>
    cases rest with
    | nil => exact ⟨(Option.some.inj linked).trans starts.symm, rfl⟩
    | cons second rest => exact ⟨linked.1, ih linked.2⟩

theorem orderedInsert_append {a : ρ} (before_c : time a ≤ time c) (sorted : List ρ) :
    List.orderedInsert (fun c d => time c ≤ time d) a (sorted ++ [c]) =
      List.orderedInsert (fun c d => time c ≤ time d) a sorted ++ [c] := by
  induction sorted with
  | nil => simp [before_c]
  | cons b rest ih =>
    by_cases here : time a ≤ time b
    · simp [here]
    · simp [here, ih]

/-- A change no earlier than all others comes last. -/
theorem ordered_append (later : ∀ d ∈ changes, time d ≤ time c) :
    ordered time (changes ++ [c]) = ordered time changes ++ [c] := by
  induction changes with
  | nil => rfl
  | cons a rest ih =>
    have rest_first := ih fun d mem => later d (List.mem_cons_of_mem a mem)
    unfold ordered at rest_first ⊢
    rw [List.cons_append, List.insertionSort_cons, rest_first,
      orderedInsert_append (later a List.mem_cons_self), List.insertionSort_cons]

/-- A change recorded later than all others, from the current value, keeps the chain. -/
theorem linked_record (linked : Linked before after (ordered time changes) (some current))
    (later : ∀ d ∈ changes, time d < time c) (starts : before c = current) :
    Linked before after (ordered time (changes ++ [c])) (some (after c)) := by
  rw [ordered_append fun d mem => (later d mem).le]
  exact linked.append starts

theorem linked_none : Linked before after changes none → changes = [] := by
  intro linked
  induction changes with
  | nil => rfl
  | cons first rest ih =>
    cases rest with
    | nil => cases linked
    | cons second rest => cases ih linked.2

end OpenVibeHost.Histories
