import OpenVibeHost.BreakEvens

/-! What renting warm GPUs says of itself: the GPUs that the busy time needs, the part of the rent that is idle, and
how much of the rented time is busy. -/
namespace OpenVibeHost.InferencePlanner
open Answers (bind_ok mapM_ok)

/-! ### Division upward -/

theorem le_ceilDiv_mul {a b : Int} (positive : 0 < b) (nonneg : 0 ≤ a) : a ≤ ceilDiv a b * b := by
  have above := Int.lt_ediv_add_one_mul_self (a + b - 1) positive
  unfold ceilDiv
  rw [Int.tdiv_eq_ediv_of_nonneg (by omega)]
  linarith

/-- Division upward gives the least number of parts that cover the whole. -/
theorem ceilDiv_le_iff {a b k : Int} (positive : 0 < b) (nonneg : 0 ≤ a) (parts : 0 ≤ k) :
    ceilDiv a b ≤ k ↔ a ≤ k * b := by
  refine ⟨fun few => ?_, ceilDiv_le positive parts⟩
  exact (le_ceilDiv_mul positive nonneg).trans (mul_le_mul_of_nonneg_right few positive.le)

/-! ### Renting -/

/-- What renting for a busy time may say of itself. -/
structure Rents (gpuMs : Int) (cost : Cost) : Prop where
  gpus : ∃ count, cost.gpuCount = some count ∧ IsLeast {k | 1 ≤ k ∧ gpuMs ≤ k * monthMs} count
  idle : ∃ rental, cost.parts.lookup "gpu_rental" = some rental ∧ 0 ≤ cost.idleBurn ∧ cost.idleBurn ≤ rental
  occupancy : ∃ bps, cost.occupancyBps = some bps ∧ 0 ≤ bps ∧ bps ≤ 10000

/-- The GPUs that a busy time needs, one at least. -/
def gpusFor (gpuMs : Int) : Int := if ceilDiv gpuMs monthMs > 0 then ceilDiv gpuMs monthMs else 1

theorem gpusFor_least {gpuMs : Int} (busy : 0 ≤ gpuMs) : IsLeast {k | 1 ≤ k ∧ gpuMs ≤ k * monthMs} (gpusFor gpuMs) := by
  have month : 0 < monthMs := by decide
  have covered := le_ceilDiv_mul month busy
  unfold gpusFor
  split
  · rename_i needed
    exact ⟨⟨needed, covered⟩, fun k ⟨one, covers⟩ => (ceilDiv_le_iff month busy (by omega)).2 covers⟩
  · rename_i none
    have within : gpuMs ≤ 0 * monthMs := (ceilDiv_le_iff month busy (le_refl 0)).1 (not_lt.1 none)
    rw [zero_mul] at within
    exact ⟨⟨le_refl 1, within.trans (by decide)⟩, fun k ⟨one, _⟩ => one⟩

section
variable {count gpuMs rate : Int}

/-- The busy time is worth no more than the rent. -/
theorem busyValue_le (covered : gpuMs ≤ count * monthMs) (some : 0 ≤ count) (priced : 0 ≤ rate) :
    ceilDiv (gpuMs * rate) hourMs ≤ count * 730 * rate := by
  refine ceilDiv_le (by decide) (by positivity) ?_
  calc gpuMs * rate ≤ count * monthMs * rate := mul_le_mul_of_nonneg_right covered priced
    _ = count * 730 * rate * hourMs := by
      unfold monthMs hourMs
      ring

/-- No more than the rented time is busy. -/
theorem occupancy_le (covered : gpuMs ≤ count * monthMs) (busy : 0 < gpuMs) :
    (gpuMs * 10000).tdiv (count * monthMs) ≤ 10000 := by
  have rented : 0 < count * monthMs := busy.trans_le covered
  rw [Int.tdiv_eq_ediv_of_nonneg (by omega)]
  refine Int.ediv_le_of_le_mul rented ?_
  linarith

end

section
variable {n busyMs : Int}

theorem rents_of_nonneg (volume : 0 ≤ n) (busy : 0 ≤ busyMs) (gpuClass : GpuClass) :
    Rents (n * busyMs) (warmCost n gpuClass busyMs) := by
  have time : 0 ≤ n * busyMs := mul_nonneg volume busy
  have least := gpusFor_least time
  obtain ⟨one, covered⟩ := least.1
  have priced : (0 : Int) ≤ gpuClass.warm.hourlyNanoUsd := Int.natCast_nonneg _
  have worth := busyValue_le covered (by omega) priced
  have worthless : 0 ≤ ceilDiv (n * busyMs * gpuClass.warm.hourlyNanoUsd) hourMs :=
    ceilDiv_nonneg (by decide) (mul_nonneg time priced)
  refine ⟨⟨_, rfl, least⟩, ⟨_, rfl, sub_nonneg.2 worth, sub_le_self _ worthless⟩, ⟨_, rfl, ?_⟩⟩
  split
  · rename_i some
    exact ⟨Int.tdiv_nonneg (by omega) (time.trans covered), occupancy_le covered some⟩
  · exact ⟨le_refl 0, by decide⟩

end

/-- Whatever the volume, the busy time of a request and the prices: no GPU more than the busy time needs is rented, the
idle burn is a part of the rent, and no more than the rented time is busy. -/
theorem warmCost_rents (n busyMs : Nat) (gpuClass : GpuClass) :
    Rents (n * busyMs) (warmCost n gpuClass busyMs) :=
  rents_of_nonneg (Int.natCast_nonneg n) (Int.natCast_nonneg busyMs) gpuClass

theorem planCandidate_rents {model : Model} {gpuClass : GpuClass} {request : Request} {monthly : Monthly}
    {budget : Budget} {c : Candidate} (volume : Doubles.Nonnegative monthly.requests)
    (high : Doubles.Nonnegative monthly.high) (planned : planCandidate model gpuClass request monthly budget = .ok c) :
    ∃ atForecast atHigh, Rents atForecast (c.atForecast .warm).cost ∧ Rents atHigh (c.atHigh .warm).cost := by
  unfold planCandidate at planned
  dsimp only at planned
  obtain ⟨n, volumeOk, planned⟩ := bind_ok.mp planned
  obtain ⟨busyMs, busyOk, planned⟩ := bind_ok.mp planned
  obtain ⟨startupMs, -, planned⟩ := bind_ok.mp planned
  obtain ⟨m, highOk, planned⟩ := bind_ok.mp planned
  obtain rfl := Except.ok.inj planned
  have busy := bigInt_nonneg (busyMillis_nonneg model request) busyOk
  exact ⟨n * busyMs, m * busyMs, rents_of_nonneg (bigInt_nonneg volume volumeOk) busy gpuClass,
    rents_of_nonneg (bigInt_nonneg high highOk) busy gpuClass⟩

/-- Every candidate of a plan rents so, at the forecast and at the high band. -/
theorem plan_rents {input : Json} {budgetNanoUsd : Option String} {result : Plan}
    (planned : plan input budgetNanoUsd = .ok result) {c : Candidate} (among : c ∈ result.candidates) :
    ∃ atForecast atHigh, Rents atForecast (c.atForecast .warm).cost ∧ Rents atHigh (c.atHigh .warm).cost := by
  unfold plan at planned
  obtain ⟨document, -, planned⟩ := bind_ok.mp planned
  obtain ⟨candidates, mapped, planned⟩ := bind_ok.mp planned
  obtain rfl := Except.ok.inj planned
  obtain ⟨⟨model, gpuClass⟩, -, ran⟩ := mapM_ok mapped among
  exact planCandidate_rents (forecast_requests_nonneg _) (forecast_high_nonneg _) ran

end OpenVibeHost.InferencePlanner
