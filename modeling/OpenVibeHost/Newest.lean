import Mathlib.Data.Finset.Card
import Mathlib.Data.Finset.Image
import Mathlib.Data.Finset.Max
import Mathlib.Data.List.Sort

/-! The newest of each of the last few classes. Things in a linear order, newest
last, are sorted into classes; what is kept is the newest thing of each of the
`n` classes that come last. Thinning a set to a part that still holds all of
these changes nothing for the things that stay, so keeping composes over time. -/
namespace OpenVibeHost.Newest

variable {α β : Type*} [LinearOrder α] [DecidableEq β]

def newer (s : Finset α) (x : α) : Finset α := s.filter (x < ·)

omit [DecidableEq β] in
@[simp] theorem mem_newer {s : Finset α} {x y : α} : y ∈ newer s x ↔ y ∈ s ∧ x < y := by
  simp [newer]

/-- `x` is the newest of its class, and fewer than `n` classes have newer things. -/
def Latest (f : α → β) (n : ℕ) (s : Finset α) (x : α) : Prop :=
  x ∈ s ∧ f x ∉ (newer s x).image f ∧ ((newer s x).image f).card < n

theorem Latest.of_subset {f : α → β} {n : ℕ} {k s : Finset α} {x : α}
    (latest : Latest f n s x) (part : k ⊆ s) (member : x ∈ k) : Latest f n k x := by
  obtain ⟨-, newest, few⟩ := latest
  have fewer : (newer k x).image f ⊆ (newer s x).image f :=
    Finset.image_subset_image (Finset.filter_subset_filter _ part)
  exact ⟨member, fun same => newest (fewer same), (Finset.card_le_card fewer).trans_lt few⟩

/-- A part that holds the latest of the whole has no others among its own latest. -/
theorem Latest.of_thinned {f : α → β} {n : ℕ} {k s : Finset α} {x : α}
    (latest : Latest f n k x) (part : k ⊆ s) (holds : ∀ y, Latest f n s y → y ∈ k) :
    Latest f n s x := by
  obtain ⟨member, newest, few⟩ := latest
  suffices same : (newer s x).image f ⊆ (newer k x).image f from
    ⟨part member, fun there => newest (same there), (Finset.card_le_card same).trans_lt few⟩
  -- The newest thing whose class the part has lost would itself be among the latest.
  by_contra lost
  have found : ((newer s x).filter (f · ∉ (newer k x).image f)).Nonempty := by
    obtain ⟨class', there, gone⟩ := Finset.not_subset.mp lost
    obtain ⟨y, member, rfl⟩ := Finset.mem_image.mp there
    exact ⟨y, Finset.mem_filter.mpr ⟨member, gone⟩⟩
  obtain ⟨y, chosen, greatest⟩ := Finset.exists_max_image _ id found
  obtain ⟨later, gone⟩ := Finset.mem_filter.mp chosen
  obtain ⟨inside, after⟩ := mem_newer.mp later
  have above : (newer s y).image f ⊆ (newer k x).image f := by
    intro c there
    obtain ⟨z, member, rfl⟩ := Finset.mem_image.mp there
    obtain ⟨zInside, zAfter⟩ := mem_newer.mp member
    by_contra missing
    have bound := greatest z (Finset.mem_filter.mpr
      ⟨mem_newer.mpr ⟨zInside, after.trans zAfter⟩, missing⟩)
    exact absurd zAfter (not_lt.mpr bound)
  have kept : y ∈ k := holds y ⟨inside, fun same => gone (above same),
    (Finset.card_le_card above).trans_lt few⟩
  exact gone (Finset.mem_image_of_mem f (mem_newer.mpr ⟨kept, after⟩))

/-- What came before may be thinned to its latest before more is added. -/
theorem latest_thinned_union_iff {f : α → β} {n : ℕ} {k s t : Finset α} {x : α} (part : k ⊆ s)
    (holds : ∀ y, Latest f n s y → y ∈ k) (member : x ∈ k ∪ t) :
    Latest f n (k ∪ t) x ↔ Latest f n (s ∪ t) x := by
  have wider : k ∪ t ⊆ s ∪ t := Finset.union_subset_union_left part
  refine ⟨fun latest => latest.of_thinned wider ?_, fun latest => latest.of_subset wider member⟩
  intro y latest'
  rcases Finset.mem_union.mp latest'.1 with old | new
  · exact Finset.mem_union_left _ (holds y (latest'.of_subset Finset.subset_union_left old))
  · exact Finset.mem_union_right _ new

/-! ### Classes in order -/

section Ordered
variable {γ : Type*} [LinearOrder γ]

/-- `x` is the newest of its class, one of the last `n` classes that there are. -/
def NewestOfLast (g : α → γ) (n : ℕ) (s : Finset α) (x : α) : Prop :=
  x ∈ s ∧ (∀ y ∈ s, g y = g x → y ≤ x) ∧ ((s.image g).filter (g x < ·)).card < n

omit [LinearOrder α] [LinearOrder γ] in
theorem card_image_eq_of_same [DecidableEq γ] {f : α → β} {g : α → γ} {s : Finset α}
    (same : ∀ x ∈ s, ∀ y ∈ s, f x = f y ↔ g x = g y) : (s.image f).card = (s.image g).card := by
  have first : ((s.image fun x => (f x, g x)).image Prod.fst).card = (s.image fun x => (f x, g x)).card := by
    refine Finset.card_image_of_injOn fun a inside b inside' equal => ?_
    obtain ⟨x, member, rfl⟩ := Finset.mem_image.mp (Finset.mem_coe.mp inside)
    obtain ⟨y, member', rfl⟩ := Finset.mem_image.mp (Finset.mem_coe.mp inside')
    exact Prod.ext equal ((same x member y member').mp equal)
  have second : ((s.image fun x => (f x, g x)).image Prod.snd).card = (s.image fun x => (f x, g x)).card := by
    refine Finset.card_image_of_injOn fun a inside b inside' equal => ?_
    obtain ⟨x, member, rfl⟩ := Finset.mem_image.mp (Finset.mem_coe.mp inside)
    obtain ⟨y, member', rfl⟩ := Finset.mem_image.mp (Finset.mem_coe.mp inside')
    exact Prod.ext ((same x member y member').mpr equal) equal
  rw [Finset.image_image] at first second
  exact first.trans second.symm

/-- Classes that come one after another may be counted as they come. -/
theorem latest_iff_newestOfLast {f : α → β} {g : α → γ} {n : ℕ} {s : Finset α} {x : α}
    (same : ∀ x ∈ s, ∀ y ∈ s, f x = f y ↔ g x = g y) (mono : ∀ x ∈ s, ∀ y ∈ s, x ≤ y → g x ≤ g y) :
    Latest f n s x ↔ NewestOfLast g n s x := by
  refine and_congr_right fun member => ?_
  have newest : f x ∉ (newer s x).image f ↔ ∀ y ∈ s, g y = g x → y ≤ x := by
    simp only [Finset.mem_image, mem_newer, not_exists, not_and, and_imp]
    refine forall₂_congr fun y inside => ?_
    rw [same y inside x member]
    exact ⟨fun none equal => not_lt.mp fun less => none less equal, fun le less equal => absurd less (not_lt.mpr (le equal))⟩
  rw [newest]
  refine and_congr_right fun last => ?_
  have above : (newer s x).image g = (s.image g).filter (g x < ·) := by
    ext c
    simp only [Finset.mem_image, mem_newer, Finset.mem_filter]
    constructor
    · rintro ⟨y, ⟨inside, less⟩, rfl⟩
      refine ⟨⟨y, inside, rfl⟩, lt_of_le_of_ne (mono x member y inside less.le) fun equal => ?_⟩
      exact absurd less (not_lt.mpr (last y inside equal.symm))
    · rintro ⟨⟨y, inside, rfl⟩, less⟩
      refine ⟨y, ⟨inside, ?_⟩, rfl⟩
      by_contra before
      exact absurd less (not_lt.mpr (mono y inside x member (not_lt.mp before)))
  have inside {y : α} (newer' : y ∈ newer s x) : y ∈ s := (mem_newer.mp newer').1
  rw [← above, card_image_eq_of_same fun y one z two => same y (inside one) z (inside two)]

end Ordered

/-! ### Lists, newest first -/

/-- Where a list has the newest first, what stands before a thing is what is newer. -/
theorem newer_of_split {before after : List α} {x : α}
    (sorted : (before ++ x :: after).Pairwise (· > ·)) :
    newer (before ++ x :: after).toFinset x = before.toFinset := by
  obtain ⟨-, tail, cross⟩ := List.pairwise_append.mp sorted
  ext y
  simp only [mem_newer, List.mem_toFinset, List.mem_append, List.mem_cons]
  constructor
  · rintro ⟨earlier | rfl | later, newer'⟩
    · exact earlier
    · exact absurd newer' (lt_irrefl y)
    · exact absurd newer' (not_lt.mpr (List.rel_of_pairwise_cons tail later).le)
  · intro earlier
    exact ⟨.inl earlier, cross y earlier x (by simp)⟩

/-- The first `n` of a list with the newest first are those with fewer than `n` newer. -/
theorem mem_take_iff {l : List α} (sorted : l.Pairwise (· > ·)) (n : ℕ) (x : α) :
    x ∈ l.take n ↔ x ∈ l ∧ (newer l.toFinset x).card < n := by
  constructor
  · intro first
    have member := List.mem_of_mem_take first
    refine ⟨member, ?_⟩
    obtain ⟨before, after, split⟩ := List.append_of_mem first
    have whole : l = before ++ x :: (after ++ l.drop n) := by
      conv_lhs => rw [← List.take_append_drop n l, split]
      simp
    have few : before.length < n := by
      have bound := List.length_take_le n l
      rw [split, List.length_append, List.length_cons] at bound
      omega
    rw [whole, newer_of_split (whole ▸ sorted)]
    exact (List.toFinset_card_le before).trans_lt few
  · rintro ⟨member, few⟩
    obtain ⟨before, after, rfl⟩ := List.append_of_mem member
    rw [newer_of_split sorted, List.toFinset_card_of_nodup] at few
    · rw [List.take_append, List.mem_append]
      refine .inr ?_
      obtain ⟨m, more⟩ : ∃ m, n - before.length = m + 1 := ⟨n - before.length - 1, by omega⟩
      simp [more]
    · exact (List.pairwise_append.mp sorted).1.imp fun later => later.ne'

/-! ### One scan over the classes -/

/-- The classes taken so far: of the first `n` classes met, each once. -/
structure Taken (f : α → β) (n : ℕ) (seen : List α) (classes : List β) : Prop where
  nodup : classes.Nodup
  met : ∀ c ∈ classes, ∃ x ∈ seen, f x = c
  room : classes.length ≤ n
  all : classes.length < n → ∀ x ∈ seen, f x ∈ classes

variable {f : α → β} {n : ℕ} {seen : List α} {classes : List β}

omit [LinearOrder α] [DecidableEq β] in
theorem taken_nil : Taken f n [] [] := ⟨by simp, by simp, by simp, by simp⟩

/-- The scan takes a thing's class exactly when it is new and there is room. -/
theorem Taken.takes_iff (taken : Taken f n seen classes) (x : α) :
    f x ∉ classes ∧ classes.length < n ↔
      f x ∉ seen.toFinset.image f ∧ (seen.toFinset.image f).card < n := by
  obtain ⟨nodup, met, room, all⟩ := taken
  have inside : classes.toFinset ⊆ seen.toFinset.image f := by
    intro c there
    obtain ⟨y, member, rfl⟩ := met c (List.mem_toFinset.mp there)
    exact Finset.mem_image_of_mem f (List.mem_toFinset.mpr member)
  have size : classes.toFinset.card = classes.length := List.toFinset_card_of_nodup nodup
  constructor
  · rintro ⟨fresh, few⟩
    have same : seen.toFinset.image f = classes.toFinset := by
      refine Finset.Subset.antisymm ?_ inside
      intro c there
      obtain ⟨y, member, rfl⟩ := Finset.mem_image.mp there
      exact List.mem_toFinset.mpr (all few y (List.mem_toFinset.mp member))
    rw [same, size, List.mem_toFinset]
    exact ⟨fresh, few⟩
  · rintro ⟨fresh, few⟩
    have bound := Finset.card_le_card inside
    exact ⟨fun there => fresh (inside (List.mem_toFinset.mpr there)), by omega⟩

omit [LinearOrder α] in
theorem Taken.snoc (taken : Taken f n seen classes) (x : α) :
    Taken f n (seen ++ [x])
      (if f x ∉ classes ∧ classes.length < n then f x :: classes else classes) := by
  obtain ⟨nodup, met, room, all⟩ := taken
  split
  · rename_i takes
    refine ⟨List.nodup_cons.mpr ⟨takes.1, nodup⟩, ?_, takes.2, ?_⟩
    · intro c there
      rcases List.mem_cons.mp there with rfl | old
      · exact ⟨x, by simp, rfl⟩
      · obtain ⟨y, member, same⟩ := met c old
        exact ⟨y, by simp [member], same⟩
    · intro _ y member
      rcases List.mem_append.mp member with old | last
      · exact List.mem_cons_of_mem _ (all takes.2 y old)
      · simp_all
  · rename_i leaves
    refine ⟨nodup, ?_, room, ?_⟩
    · intro c there
      obtain ⟨y, member, same⟩ := met c there
      exact ⟨y, by simp [member], same⟩
    · intro few y member
      rcases List.mem_append.mp member with old | last
      · exact all few y old
      · obtain rfl := List.mem_singleton.mp last
        by_contra fresh
        exact leaves ⟨fresh, few⟩

end OpenVibeHost.Newest
