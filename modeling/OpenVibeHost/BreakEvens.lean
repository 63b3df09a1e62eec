import OpenVibeHost.PlannedCosts
import Mathlib.Order.Bounds.Defs

/-! The break-evens of a plan. A bisection finds the least number with a property where the property, once it holds,
holds of all later numbers; elsewhere it finds it where the property holds of what is tried on the way. -/
namespace OpenVibeHost.InferencePlanner

section
variable {a b : Int → Int}

/-- The numbers at which one cost is no more than the other. -/
def atMost (a b : Int → Int) (max : Int) : Set Int := {n | 0 ≤ n ∧ n ≤ max ∧ a n ≤ b n}

/-- The numbers that a bisection tries on its way to one. -/
def probes (target : Int) : Nat → Int → Int → List Int
  | 0, _, _ => []
  | turns + 1, low, high =>
    if low + 1 < high then
      (low + high).tdiv 2 :: if target ≤ (low + high).tdiv 2 then probes target turns low ((low + high).tdiv 2)
        else probes target turns ((low + high).tdiv 2) high
    else []

theorem middle {low high : Int} (from0 : 0 ≤ low) (gap : low + 1 < high) :
    low < (low + high).tdiv 2 ∧ (low + high).tdiv 2 < high := by
  rw [Int.tdiv_eq_ediv_of_nonneg (by omega)]
  omega

theorem bisect_between {turns : Nat} {low high : Int} (from0 : 0 ≤ low) (gap : low < high) :
    low < bisect a b turns low high ∧ bisect a b turns low high ≤ high := by
  induction turns generalizing low high with
  | zero => exact ⟨gap, le_refl _⟩
  | succ turns ih =>
    unfold bisect
    split
    · rename_i wide
      obtain ⟨above, below⟩ := middle from0 wide
      dsimp only
      split
      · have inside := ih from0 above
        exact ⟨inside.1, inside.2.trans below.le⟩
      · have inside := ih (from0.trans above.le) below
        exact ⟨above.trans inside.1, inside.2⟩
    · exact ⟨gap, le_refl _⟩

/-- A bisection ends on the least number exactly where all that it tries above it on the way there is as it is. -/
theorem bisect_eq_iff {turns : Nat} {low high least : Int} (from0 : 0 ≤ low) (enough : high - low ≤ turns)
    (above : low < least) (below : least ≤ high) (none : ∀ m, low < m → m < least → ¬a m ≤ b m) :
    bisect a b turns low high = least ↔ ∀ m ∈ probes least turns low high, least ≤ m → a m ≤ b m := by
  induction turns generalizing low high with
  | zero =>
    have same : high = least := by omega
    simp [bisect, probes, same]
  | succ turns ih =>
    by_cases wide : low + 1 < high
    · obtain ⟨up, down⟩ := middle from0 wide
      rw [bisect, probes, if_pos wide, if_pos wide, List.forall_mem_cons]
      dsimp only
      generalize (low + high).tdiv 2 = mid at *
      by_cases reached : least ≤ mid
      · rw [if_pos reached]
        by_cases holds : a mid ≤ b mid
        · rw [if_pos holds, ih from0 (by omega) above reached none]
          simp [holds]
        · rw [if_neg holds]
          have later := (@bisect_between a b turns mid high (by omega) down).1
          exact iff_of_false (by omega) fun both => holds (both.1 reached)
      · rw [if_neg reached, if_neg (none mid up (by omega)),
          ih (by omega) (by omega) (by omega) below fun m past => none m (up.trans past)]
        simp [reached]
    · have same : high = least := by omega
      rw [bisect, probes, if_neg wide, if_neg wide]
      simp [same]

theorem exists_least {max m : Int} (holds : m ∈ atMost a b max) : ∃ least, IsLeast (atMost a b max) least := by
  obtain ⟨least, among, below⟩ := Int.exists_least_of_bdd (P := (· ∈ atMost a b max))
    ⟨0, fun _ among => among.1⟩ ⟨m, holds⟩
  exact ⟨least, among, fun n among => below n among⟩

/-- What is found is the least number, or nothing where there is none. -/
def Finds (a b : Int → Int) (max : Int) (found : Option Int) : Prop :=
  (∀ n, found = some n ↔ IsLeast (atMost a b max) n) ∧ (found = none ↔ atMost a b max = ∅)

/-- The least number is the first, or the search does not lose it. -/
def Kept (a b : Int → Int) (max : Int) : Prop :=
  ∀ least, IsLeast (atMost a b max) least →
    least = 0 ∨ (a max ≤ b max ∧ ∀ m ∈ probes least max.toNat 0 max, least ≤ m → a m ≤ b m)

theorem firstAtMost_least {max least : Int} (isLeast : IsLeast (atMost a b max) least) :
    firstAtMost a b max = some least ↔
      least = 0 ∨ (a max ≤ b max ∧ ∀ m ∈ probes least max.toNat 0 max, least ≤ m → a m ≤ b m) := by
  obtain ⟨⟨nonneg, within, holds⟩, below⟩ := isLeast
  unfold firstAtMost
  by_cases free : a 0 ≤ b 0
  · have isZero : least = 0 := le_antisymm (below ⟨le_refl 0, nonneg.trans within, free⟩) nonneg
    simp [free, isZero]
  · have positive : 0 < least := lt_of_le_of_ne nonneg fun same => free (same ▸ holds)
    have none (m : Int) (above : 0 < m) (early : m < least) : ¬a m ≤ b m := fun sooner =>
      absurd (below ⟨above.le, early.le.trans within, sooner⟩) (not_le.2 early)
    rw [if_neg free, or_iff_right positive.ne']
    by_cases last : a max ≤ b max
    · rw [if_neg (not_not.2 last), Option.some.injEq, bisect_eq_iff (le_refl 0) (by omega) positive within none]
      simp [last]
    · simp [last]

/-- The search is right exactly where it keeps the least number. -/
theorem firstAtMost_finds_iff {max : Int} (nonneg : 0 ≤ max) :
    Finds a b max (firstAtMost a b max) ↔ Kept a b max := by
  constructor
  · intro finds least isLeast
    exact (firstAtMost_least isLeast).1 ((finds.1 least).2 isLeast)
  · intro kept
    have found (least : Int) (isLeast : IsLeast (atMost a b max) least) : firstAtMost a b max = some least :=
      (firstAtMost_least isLeast).2 (kept least isLeast)
    have missing (empty : atMost a b max = ∅) : firstAtMost a b max = none := by
      have noZero : ¬a 0 ≤ b 0 := fun holds => Set.eq_empty_iff_forall_notMem.1 empty 0 ⟨le_refl 0, nonneg, holds⟩
      have noMax : ¬a max ≤ b max := fun holds => Set.eq_empty_iff_forall_notMem.1 empty max ⟨nonneg, le_refl max, holds⟩
      rw [firstAtMost, if_neg noZero, if_pos noMax]
    rcases Set.eq_empty_or_nonempty (atMost a b max) with empty | ⟨m, among⟩
    · refine ⟨fun n => ?_, iff_of_true (missing empty) empty⟩
      rw [missing empty, empty]
      exact iff_of_false (by simp) fun isLeast => isLeast.1
    · obtain ⟨least, isLeast⟩ := exists_least among
      refine ⟨fun n => ?_, ?_⟩
      · rw [found least isLeast, Option.some.injEq]
        exact ⟨fun same => same ▸ isLeast, fun other => isLeast.unique other⟩
      · rw [found least isLeast]
        exact iff_of_false (by simp) fun empty => (empty ▸ among : m ∈ (∅ : Set Int))

theorem mem_probes {turns : Nat} {low high target m : Int} (from0 : 0 ≤ low) (among : m ∈ probes target turns low high) :
    low < m ∧ m < high := by
  induction turns generalizing low high with
  | zero => cases among
  | succ turns ih =>
    unfold probes at among
    split at among
    · rename_i wide
      obtain ⟨up, down⟩ := middle from0 wide
      rcases List.mem_cons.1 among with rfl | among
      · exact ⟨up, down⟩
      · split at among
        · have inside := ih from0 among
          exact ⟨inside.1, inside.2.trans down⟩
        · have inside := ih (from0.trans up.le) among
          exact ⟨up.trans inside.1, inside.2⟩
    · cases among

/-- Nothing is lost where the one cost, once it is no more than the other, stays so. -/
theorem kept_of_rising {max : Int}
    (rising : ∀ n m, 0 < n → n ≤ m → m ≤ max → a n ≤ b n → a m ≤ b m) : Kept a b max := by
  intro least ⟨⟨nonneg, within, holds⟩, _⟩
  rcases nonneg.eq_or_lt with zero | positive
  · exact .inl zero.symm
  · refine .inr ⟨rising least max positive within (le_refl max) holds, fun m tried above => ?_⟩
    exact rising least m positive above (mem_probes (le_refl 0) tried).2.le holds

end

/-! ### Renting one GPU -/

section
variable {gpuClass : GpuClass} {model : Model} {request : Request} {busyMs startupMs : Int}

theorem capacity_nonneg (busyMs : Int) : 0 ≤ oneGpuCapacity busyMs := by
  unfold oneGpuCapacity
  dsimp only
  split_ifs <;> omega

theorem ceilDiv_le {a b k : Int} (positive : 0 < b) (nonneg : 0 ≤ k) (fits : a ≤ k * b) : ceilDiv a b ≤ k := by
  unfold ceilDiv
  rcases le_total 0 (a + b - 1) with up | down
  · rw [Int.tdiv_eq_ediv_of_nonneg up]
    have less : a + b - 1 < (k + 1) * b := by linarith
    exact Int.lt_add_one_iff.1 (Int.ediv_lt_of_lt_mul positive less)
  · have none := Int.tdiv_le_tdiv positive down
    rw [Int.zero_tdiv] at none
    exact none.trans nonneg

/-- Within its capacity one GPU is rented, and each request pays for its egress; a request that takes more than a month
is the only one there. -/
theorem warmCost_within {n : Int} (nonneg : 0 ≤ n) (within : n ≤ oneGpuCapacity busyMs) :
    oneGpuCapacity busyMs = 1 ∨ (warmCost n gpuClass busyMs).total =
      730 * gpuClass.warm.hourlyNanoUsd + gpuClass.warm.storageMonthly + n * gpuClass.warm.egressPerRequest := by
  have single (fits : n * busyMs ≤ 1 * monthMs) : (warmCost n gpuClass busyMs).total =
      730 * gpuClass.warm.hourlyNanoUsd + gpuClass.warm.storageMonthly + n * gpuClass.warm.egressPerRequest := by
    have few : ceilDiv (n * busyMs) monthMs ≤ 1 := ceilDiv_le (by decide) (by decide) fits
    have one : (if ceilDiv (n * busyMs) monthMs > 0 then ceilDiv (n * busyMs) monthMs else 1) = 1 := by
      split <;> omega
    rw [warmCost]
    dsimp only
    rw [one, one_mul]
  unfold oneGpuCapacity at within ⊢
  by_cases free : busyMs ≤ 0
  · have none : n * busyMs ≤ 0 := mul_nonpos_of_nonneg_of_nonpos nonneg free
    exact .inr (single (none.trans (by decide)))
  · rw [if_neg free] at within ⊢
    dsimp only at within ⊢
    by_cases fits : monthMs.tdiv busyMs > 0
    · rw [if_pos fits] at within
      refine .inr (single ?_)
      have least := mul_le_mul_of_nonneg_right within (not_le.1 free).le
      rw [Int.tdiv_eq_ediv_of_nonneg (by decide)] at least
      rw [one_mul]
      exact least.trans (Int.ediv_mul_le monthMs (not_le.1 free).ne')
    · exact .inl (if_neg fits)

theorem rent_nonneg (s : GpuSection) : (0 : Int) ≤ 730 * s.hourlyNanoUsd + s.storageMonthly := by
  unfold GpuSection.storageMonthly
  positivity

theorem wholesaleCost_linear (model : Model) (request : Request) :
    ∃ perRequest, ∀ n, (wholesaleCost n model request).total = n * perRequest := ⟨_, fun _ => rfl⟩

theorem kept_wholesale : Kept (fun n => (warmCost n gpuClass busyMs).total)
    (fun n => (wholesaleCost n model request).total) (oneGpuCapacity busyMs) := by
  refine kept_of_rising fun n m positive le within holds => ?_
  rcases @warmCost_within gpuClass busyMs n positive.le (le.trans within) with one | here
  · obtain rfl : n = m := by omega
    exact holds
  rcases @warmCost_within gpuClass busyMs m (positive.le.trans le) within with one | there
  · obtain rfl : n = m := by omega
    exact holds
  -- Both costs are linear, and what renting costs without requests is not below zero.
  have fixed := rent_nonneg gpuClass.warm
  obtain ⟨perRequest, linear⟩ := wholesaleCost_linear model request
  rw [here, linear] at holds
  rw [there, linear]
  generalize gpuClass.warm.egressPerRequest = egress at holds ⊢
  generalize 730 * (gpuClass.warm.hourlyNanoUsd : Int) + gpuClass.warm.storageMonthly = rent at fixed holds ⊢
  have gain : 0 ≤ perRequest - egress := by
    by_contra loss
    nlinarith
  nlinarith

/-- The break-even with wholesale is the least number of requests at which renting costs no more. -/
theorem warmVsWholesale_finds (model : Model) (gpuClass : GpuClass) (request : Request) (busyMs startupMs : Int) :
    Finds (fun n => (warmCost n gpuClass busyMs).total) (fun n => (wholesaleCost n model request).total)
      (oneGpuCapacity busyMs) (breakEven model gpuClass request busyMs startupMs).warmVsWholesale := by
  simp only [breakEven]
  exact (firstAtMost_finds_iff (capacity_nonneg busyMs)).2 kept_wholesale

/-- The break-even with scaling to zero is the least number of requests at which renting costs no more, exactly where
the bisection keeps that number. -/
theorem warmVsScaleToZero_finds_iff (model : Model) (gpuClass : GpuClass) (request : Request) (busyMs startupMs : Int) :
    Finds (fun n => (warmCost n gpuClass busyMs).total) (fun n => (scaleToZeroCost n gpuClass busyMs startupMs).total)
        (oneGpuCapacity busyMs) (breakEven model gpuClass request busyMs startupMs).warmVsScaleToZero ↔
      Kept (fun n => (warmCost n gpuClass busyMs).total) (fun n => (scaleToZeroCost n gpuClass busyMs startupMs).total)
        (oneGpuCapacity busyMs) :=
  firstAtMost_finds_iff (capacity_nonneg busyMs)

/-- It keeps it where a request to the rented GPU pays no more for egress than one that scales to zero pays in all, cold
starts apart. -/
theorem kept_of_egress (startup : 0 ≤ startupMs)
    (dearer : gpuClass.warm.egressPerRequest ≤
      ceilDiv (busyMs * gpuClass.scaleToZero.hourlyNanoUsd) hourMs + gpuClass.scaleToZero.egressPerRequest) :
    Kept (fun n => (warmCost n gpuClass busyMs).total) (fun n => (scaleToZeroCost n gpuClass busyMs startupMs).total)
      (oneGpuCapacity busyMs) := by
  refine kept_of_rising fun n m positive le within holds => ?_
  rcases @warmCost_within gpuClass busyMs n positive.le (le.trans within) with one | here
  · obtain rfl : n = m := by omega
    exact holds
  rcases @warmCost_within gpuClass busyMs m (positive.le.trans le) within with one | there
  · obtain rfl : n = m := by omega
    exact holds
  have rate : (0 : Int) ≤ gpuClass.scaleToZero.hourlyNanoUsd := Int.natCast_nonneg _
  have turns : 0 < gpuClass.scaleToZero.requestsPerColdStart.val := gpuClass.scaleToZero.requestsPerColdStart.property
  have starts : ceilDiv (ceilDiv n gpuClass.scaleToZero.requestsPerColdStart.val * startupMs *
        gpuClass.scaleToZero.hourlyNanoUsd) hourMs ≤
      ceilDiv (ceilDiv m gpuClass.scaleToZero.requestsPerColdStart.val * startupMs *
        gpuClass.scaleToZero.hourlyNanoUsd) hourMs :=
    ceilDiv_mono (by decide) (mul_nonneg (mul_nonneg (ceilDiv_nonneg turns positive.le) startup) rate)
      (mul_le_mul_of_nonneg_right (mul_le_mul_of_nonneg_right (ceilDiv_mono turns positive.le le) startup) rate)
  rw [here] at holds
  rw [there]
  simp only [scaleToZeroCost] at holds ⊢
  have gain := mul_le_mul_of_nonneg_left dearer (sub_nonneg.2 le)
  linarith

/-- A class that rents for almost nothing, sends dear, and starts dear when it scales to zero. -/
def dearStarts : GpuClass where
  id := "g"
  label := "G"
  warm := { storageGb := 1, storageNanoPerGbMonth := 1, egressBytesPerRequest := 1000000000, egressNanoPerGb := 10,
            hourlyNanoUsd := 0 }
  scaleToZero := { storageGb := 0, storageNanoPerGbMonth := 0, egressBytesPerRequest := 0, egressNanoPerGb := 0,
                   hourlyNanoUsd := 36000, startupSeconds := ⟨1, by decide⟩, requestsPerColdStart := ⟨1000, by decide⟩ }

/-- One request pays for renting there, and more do not: the search finds nothing. -/
theorem dearStarts_missed : ¬∀ (model : Model) (gpuClass : GpuClass) (request : Request) (busyMs startupMs : Int),
    0 ≤ busyMs → 0 ≤ startupMs →
      Finds (fun n => (warmCost n gpuClass busyMs).total) (fun n => (scaleToZeroCost n gpuClass busyMs startupMs).total)
        (oneGpuCapacity busyMs) (breakEven model gpuClass request busyMs startupMs).warmVsScaleToZero := by
  intro always
  have model : Model :=
    { id := "m", label := "M"
      throughput := { prefillTokensPerSec := ⟨1, by decide⟩, decodeTokensPerSec := ⟨1, by decide⟩,
                      cachedReadTokensPerSec := ⟨1, by decide⟩, concurrency := 1 }
      successBps := 10000
      wholesale := { inputNanoPerMillion := 0, cachedReadNanoPerMillion := 0, cacheWriteNanoPerMillion := 0,
                     outputNanoPerMillion := 0, perRequestNano := 0, successBps := 10000 } }
  have finds := always model dearStarts { inputTokens := 0, cachedReadTokens := 0, cacheWriteTokens := 0, outputTokens := 1 }
    1 1000 (by decide) (by decide)
  have missed : firstAtMost (fun n => (warmCost n dearStarts 1).total)
      (fun n => (scaleToZeroCost n dearStarts 1 1000).total) (oneGpuCapacity 1) = none := by decide
  have one : (1 : Int) ∈ atMost (fun n => (warmCost n dearStarts 1).total)
      (fun n => (scaleToZeroCost n dearStarts 1 1000).total) (oneGpuCapacity 1) := by
    refine ⟨by decide, by decide, by decide⟩
  exact Set.eq_empty_iff_forall_notMem.1 (finds.2.1 missed) 1 one

end

end OpenVibeHost.InferencePlanner
