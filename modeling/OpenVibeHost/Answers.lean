import Mathlib.Data.List.Forall2

/-! What a program in `Except` answered says of its parts: every one of them answered as well. -/
namespace OpenVibeHost.Answers

variable {ε α β : Type}

theorem bind_ok {answer : Except ε α} {rest : α → Except ε β} {result : β} :
    answer >>= rest = .ok result ↔ ∃ a, answer = .ok a ∧ rest a = .ok result := by
  cases answer with
  | ok a => exact ⟨fun h => ⟨a, rfl, h⟩, fun ⟨_, same, h⟩ => Except.ok.inj same ▸ h⟩
  | error fault => exact ⟨fun h => (nomatch h), fun ⟨_, h, _⟩ => (nomatch h)⟩

theorem map_ok {answer : Except ε α} {f : α → β} {result : β} :
    answer.map f = .ok result ↔ ∃ a, answer = .ok a ∧ f a = result := by
  cases answer with
  | ok a => exact ⟨fun h => ⟨a, rfl, Except.ok.inj h⟩, fun ⟨_, same, h⟩ => Except.ok.inj same ▸ congrArg _ h⟩
  | error fault => exact ⟨fun h => (nomatch h), fun ⟨_, h, _⟩ => (nomatch h)⟩

theorem exists_ok {answer : Except ε α} (ok : answer.isOk = true) : ∃ a, answer = .ok a := by
  cases answer with
  | ok a => exact ⟨a, rfl⟩
  | error _ => exact nomatch ok

/-- What is paired with an item of the second list is an item of the first. -/
theorem exists_pair {R : α → β → Prop} {items : List α} {results : List β} (pairs : List.Forall₂ R items results)
    {b : β} (member : b ∈ results) : ∃ a ∈ items, R a b := by
  induction pairs with
  | nil => exact nomatch member
  | cons related _ ih =>
    rcases List.mem_cons.mp member with rfl | member
    · exact ⟨_, List.mem_cons_self, related⟩
    · obtain ⟨a, within, related⟩ := ih member
      exact ⟨a, List.mem_cons_of_mem _ within, related⟩

/-- The answers about a list are those about its items, in their order. -/
theorem mapM_ok_iff {f : α → Except ε β} {items : List α} {results : List β} :
    items.mapM f = .ok results ↔ List.Forall₂ (fun a b => f a = .ok b) items results := by
  induction items generalizing results with
  | nil =>
    rw [List.forall₂_nil_left_iff]
    exact ⟨fun same => (Except.ok.inj same).symm, fun same => same ▸ rfl⟩
  | cons a items ih =>
    rw [List.mapM_cons, bind_ok, List.forall₂_cons_left_iff]
    constructor
    · rintro ⟨first, ran, mapped⟩
      obtain ⟨later, rest, done⟩ := bind_ok.mp mapped
      exact ⟨first, later, ran, ih.mp rest, (Except.ok.inj done).symm⟩
    · rintro ⟨first, later, ran, rest, rfl⟩
      exact ⟨first, ran, bind_ok.mpr ⟨later, ih.mpr rest, rfl⟩⟩

/-- Each answer about a list is the answer about one of its items. -/
theorem mapM_ok {f : α → Except ε β} {items : List α} {results : List β} (mapped : items.mapM f = .ok results)
    {b : β} (member : b ∈ results) : ∃ a ∈ items, f a = .ok b :=
  exists_pair (mapM_ok_iff.mp mapped) member

end OpenVibeHost.Answers
