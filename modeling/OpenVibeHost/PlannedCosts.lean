import OpenVibeHost.Answers
import OpenVibeHost.InferencePlanner
import Mathlib.Algebra.Order.BigOperators.Group.List

/-! The costs that a plan compares never fall as the volume rises, so what is within the budget at the high
band is within it below. -/
namespace OpenVibeHost.InferencePlanner
open Doubles
open Answers (bind_ok mapM_ok)

/-! ### Costs rise with the volume -/

theorem ceilDiv_mono {a a' b : Int} (positive : 0 < b) (nonneg : 0 ≤ a) (le : a ≤ a') :
    ceilDiv a b ≤ ceilDiv a' b := by
  unfold ceilDiv
  rw [Int.tdiv_eq_ediv_of_nonneg (by omega), Int.tdiv_eq_ediv_of_nonneg (by omega)]
  exact Int.ediv_le_ediv positive (by omega)

theorem ceilDiv_nonneg {a b : Int} (positive : 0 < b) (nonneg : 0 ≤ a) : 0 ≤ ceilDiv a b :=
  Int.tdiv_nonneg (by omega) positive.le

theorem GpuSection.egress_nonneg (s : GpuSection) : 0 ≤ s.egressPerRequest := by
  unfold GpuSection.egressPerRequest
  split
  · exact le_refl 0
  · exact ceilDiv_nonneg (by decide) (by positivity)

section
variable {n m busyMs startupMs : Int} {model : Model} {gpuClass : GpuClass} {request : Request}

theorem warmCost_mono (nonneg : 0 ≤ n) (le : n ≤ m) (busy : 0 ≤ busyMs) :
    (warmCost n gpuClass busyMs).total ≤ (warmCost m gpuClass busyMs).total := by
  have time : n * busyMs ≤ m * busyMs := mul_le_mul_of_nonneg_right le busy
  have needed : ceilDiv (n * busyMs) monthMs ≤ ceilDiv (m * busyMs) monthMs :=
    ceilDiv_mono (by decide) (mul_nonneg nonneg busy) time
  have gpus : (if ceilDiv (n * busyMs) monthMs > 0 then ceilDiv (n * busyMs) monthMs else 1) ≤
      if ceilDiv (m * busyMs) monthMs > 0 then ceilDiv (m * busyMs) monthMs else 1 := by
    split <;> split <;> omega
  have rental := mul_le_mul_of_nonneg_right (mul_le_mul_of_nonneg_right gpus (by decide : (0 : Int) ≤ 730))
    (Int.natCast_nonneg gpuClass.warm.hourlyNanoUsd)
  have egress := mul_le_mul_of_nonneg_right le gpuClass.warm.egress_nonneg
  exact add_le_add (add_le_add rental (le_refl _)) egress

theorem scaleToZeroCost_mono (nonneg : 0 ≤ n) (le : n ≤ m) (busy : 0 ≤ busyMs) (startup : 0 ≤ startupMs) :
    (scaleToZeroCost n gpuClass busyMs startupMs).total ≤ (scaleToZeroCost m gpuClass busyMs startupMs).total := by
  let s := gpuClass.scaleToZero
  have rate : (0 : Int) ≤ s.hourlyNanoUsd := Int.natCast_nonneg _
  have perRequest : 0 ≤ ceilDiv (busyMs * s.hourlyNanoUsd) hourMs := ceilDiv_nonneg (by decide) (mul_nonneg busy rate)
  have positive : 0 < s.requestsPerColdStart.val := s.requestsPerColdStart.property
  have starts : ceilDiv n s.requestsPerColdStart.val ≤ ceilDiv m s.requestsPerColdStart.val :=
    ceilDiv_mono positive nonneg le
  have coldStart : ceilDiv (ceilDiv n s.requestsPerColdStart.val * startupMs * s.hourlyNanoUsd) hourMs ≤
      ceilDiv (ceilDiv m s.requestsPerColdStart.val * startupMs * s.hourlyNanoUsd) hourMs :=
    ceilDiv_mono (by decide) (mul_nonneg (mul_nonneg (ceilDiv_nonneg positive nonneg) startup) rate)
      (mul_le_mul_of_nonneg_right (mul_le_mul_of_nonneg_right starts startup) rate)
  have egress := mul_le_mul_of_nonneg_right le s.egress_nonneg
  exact add_le_add (add_le_add (add_le_add (mul_le_mul_of_nonneg_right le perRequest) coldStart) (le_refl _)) egress

theorem wholesaleCost_mono (le : n ≤ m) :
    (wholesaleCost n model request).total ≤ (wholesaleCost m model request).total := by
  refine mul_le_mul_of_nonneg_right le (List.sum_nonneg ?_)
  have tokens (count price : Nat) : 0 ≤ ceilDiv (count * price) 1000000 :=
    ceilDiv_nonneg (by decide) (by positivity)
  simp [tokens]

/-- Every mode's total rises with the volume. -/
theorem costsAt_mono (busy : 0 ≤ busyMs) (startup : 0 ≤ startupMs) (nonneg : 0 ≤ n) (le : n ≤ m) (mode : Mode) :
    (costsAt n model gpuClass request busyMs startupMs mode).total ≤
      (costsAt m model gpuClass request busyMs startupMs mode).total := by
  cases mode with
  | warm => exact warmCost_mono nonneg le busy
  | scaleToZero => exact scaleToZeroCost_mono nonneg le busy startup
  | wholesale => exact wholesaleCost_mono le

end

/-! ### The mode chosen -/

theorem chooseMode_cheapest (costs : Mode → Cost) (mode : Mode) :
    (costs (chooseMode costs)).total ≤ (costs mode).total := by
  simp only [chooseMode, List.foldl_cons, List.foldl_nil]
  cases mode <;> split <;> split <;> omega

theorem chooseMode_warm {costs : Mode → Cost} (chosen : chooseMode costs = .warm) {mode : Mode} (other : mode ≠ .warm) :
    (costs .warm).total < (costs mode).total := by
  simp only [chooseMode, List.foldl_cons, List.foldl_nil] at chosen
  cases mode with
  | warm => exact absurd rfl other
  | scaleToZero => split at chosen <;> split at chosen <;> first | omega | exact nomatch chosen
  | wholesale => split at chosen <;> split at chosen <;> first | omega | exact nomatch chosen

/-! ### Times are not below zero -/

theorem bigInt_nonneg {value : Double} {n : Int} (above : Nonnegative value) (converted : bigInt value = .ok n) :
    0 ≤ n := by
  cases value with
  | finite q =>
    have nonneg : 0 ≤ q.num := Rat.num_nonneg.mpr above
    unfold bigInt at converted
    dsimp only at converted
    split at converted
    · obtain rfl := Except.ok.inj converted
      exact nonneg
    · exact nomatch converted
  | infinite => exact nomatch converted
  | nan => exact nomatch converted

theorem ofInt_nonneg (n : Nat) : Nonnegative (ofInt n) := ofRat_nonneg (by positivity)

theorem tokenMillis_nonneg (tokens : Nat) (perSec : {v : Rat // 0 < v}) : Nonnegative (tokenMillis tokens perSec.val) := by
  have rate : Nonnegative (.finite perSec.val) := perSec.property.le
  unfold tokenMillis
  split
  · exact le_refl (0 : Rat)
  · exact (((ofInt_nonneg tokens).mul (ofInt_nonneg 1000)).div rate).ceil

theorem busyMillis_nonneg (model : Model) (request : Request) : Nonnegative (busyMillis model request).total :=
  ((tokenMillis_nonneg _ _).add (tokenMillis_nonneg _ _)).add (tokenMillis_nonneg _ _)

theorem ScaleSection.startup_nonneg (s : ScaleSection) : Nonnegative s.startupMillis :=
  (@Nonnegative.mul (.finite s.startupSeconds.val) _ s.startupSeconds.property (ofInt_nonneg 1000)).round

theorem sum_nonneg {values : List Double} (each : ∀ v ∈ values, Nonnegative v) : Nonnegative (sum values) := by
  suffices general : ∀ start, Nonnegative start → Nonnegative (values.foldl add start) from
    general zero (le_refl (0 : Rat))
  induction values with
  | nil => exact fun _ above => above
  | cons v values ih =>
    intro start above
    exact ih (fun other member => each other (List.mem_cons_of_mem _ member)) _ (above.add (each v List.mem_cons_self))

theorem mean_nonneg (points : List Point) :
    Nonnegative (div (sum (points.map fun p => ofInt p.requests)) (ofInt points.length)) := by
  refine (sum_nonneg fun v member => ?_).div (ofInt_nonneg _)
  obtain ⟨p, -, rfl⟩ := List.mem_map.mp member
  exact ofInt_nonneg _

theorem getD_nonneg {values : List Double} (each : ∀ v ∈ values, Nonnegative v) (i : Nat) :
    Nonnegative (values.getD i .nan) := by
  rw [List.getD_eq_getElem?_getD]
  cases found : values[i]? with
  | none => trivial
  | some v => exact each v (List.mem_of_getElem? found)

theorem forecast_requests_nonneg (input : Series) : Nonnegative (forecast input).monthly.requests := by
  refine sum_nonneg fun v member => ?_
  simp only [List.map_map, List.mem_map, Function.comp_apply] at member
  obtain ⟨i, -, rfl⟩ := member
  refine ((mean_nonneg _).mul (getD_nonneg (fun factor member => ?_) _)).round
  obtain ⟨dow, -, rfl⟩ := List.mem_map.mp member
  dsimp only [Function.comp_apply]
  split
  · split
    · exact (mean_nonneg _).div (mean_nonneg _)
    · exact (mean_nonneg _).div (mean_nonneg _)
  · exact ofInt_nonneg 1

theorem forecast_high_nonneg (input : Series) : Nonnegative (forecast input).monthly.high :=
  (forecast_requests_nonneg input).add
    (((ofRat_nonneg (by norm_num)).mul (sqrt_nonneg _)).mul (sqrt_nonneg _)).ceil

/-! ### Candidates -/

/-- What a candidate says of its costs, at the volumes of a forecast and against a budget. -/
structure Held (model : Model) (gpuClass : GpuClass) (request : Request) (monthly : Monthly) (budget : Budget)
    (c : Candidate) (volume high : Int) (costs : Int → Mode → Cost) : Prop where
  named : c.modelId = model.id ∧ c.gpuClassId = gpuClass.id
  atForecast : bigInt monthly.requests = .ok volume
  atHigh : bigInt monthly.high = .ok high ∧ 0 ≤ high
  costed : ∃ busyMs startupMs, bigInt (busyMillis model request).total = .ok busyMs ∧
    bigInt gpuClass.scaleToZero.startupMillis = .ok startupMs ∧
    ∀ n, costs n = costsAt n model gpuClass request busyMs startupMs
  rising : ∀ mode n m, 0 ≤ n → n ≤ m → (costs n mode).total ≤ (costs m mode).total
  within : c.status = .withinBudget → ∀ n, 0 ≤ n → n ≤ high → (costs n c.mode).total ≤ budget.nano
  cheapest : ∀ mode, (costs volume c.mode).total ≤ (costs volume mode).total
  noTie : c.mode = .warm → ∀ mode, mode ≠ .warm → (costs volume .warm).total < (costs volume mode).total

theorem planCandidate_held {model : Model} {gpuClass : GpuClass} {request : Request} {monthly : Monthly}
    {budget : Budget} {c : Candidate} (above : Nonnegative monthly.high)
    (planned : planCandidate model gpuClass request monthly budget = .ok c) :
    ∃ volume high costs, Held model gpuClass request monthly budget c volume high costs := by
  unfold planCandidate at planned
  dsimp only at planned
  obtain ⟨volume, volumeOk, planned⟩ := bind_ok.mp planned
  obtain ⟨busyMs, busyOk, planned⟩ := bind_ok.mp planned
  obtain ⟨startupMs, startupOk, planned⟩ := bind_ok.mp planned
  obtain ⟨high, highOk, planned⟩ := bind_ok.mp planned
  obtain rfl := Except.ok.inj planned
  have busy := bigInt_nonneg (busyMillis_nonneg model request) busyOk
  have startup := bigInt_nonneg gpuClass.scaleToZero.startup_nonneg startupOk
  refine ⟨volume, high, fun n => costsAt n model gpuClass request busyMs startupMs, ⟨rfl, rfl⟩, volumeOk,
    ⟨highOk, bigInt_nonneg above highOk⟩, ⟨busyMs, startupMs, busyOk, startupOk, fun _ => rfl⟩,
    fun mode n m nonneg le => costsAt_mono busy startup nonneg le mode, fun within n nonneg le => ?_, chooseMode_cheapest _, fun chosen mode other => chooseMode_warm chosen other⟩
  refine (costsAt_mono busy startup nonneg le _).trans ?_
  by_contra above
  simp [not_le.mp above] at within

/-- A candidate within the budget stays within it at every volume up to the high band; its mode is a cheapest one
at the forecast, and rents only where renting alone is cheapest. -/
theorem plan_held (input : Json) (budgetNanoUsd : Option String) (result : Plan)
    (planned : plan input budgetNanoUsd = .ok result) :
    ∃ document, validate input = .ok document ∧ result.budget = parseBudget budgetNanoUsd ∧
      ∀ c ∈ result.candidates, ∃ model ∈ document.models, ∃ gpuClass ∈ document.gpuClasses, ∃ volume high costs,
        Held model gpuClass document.request result.forecast.monthly result.budget c volume high costs := by
  unfold plan at planned
  obtain ⟨document, validated, planned⟩ := bind_ok.mp planned
  obtain ⟨candidates, mapped, planned⟩ := bind_ok.mp planned
  obtain rfl := Except.ok.inj planned
  refine ⟨document, validated, rfl, fun c member => ?_⟩
  obtain ⟨⟨model, gpuClass⟩, pair, ran⟩ := mapM_ok mapped member
  obtain ⟨model', within, pair⟩ := List.mem_flatMap.mp pair
  obtain ⟨gpuClass', classed, same⟩ := List.mem_map.mp pair
  obtain ⟨rfl, rfl⟩ := Prod.mk.inj same
  exact ⟨model', within, gpuClass', classed, planCandidate_held (forecast_high_nonneg _) ran⟩

/-- Two weeks of demand, a model and a class of GPU. -/
def sample : Json :=
  let demand : List Nat := [100, 100, 123, 100, 100, 40, 20, 100, 100, 100, 100, 100, 40, 20]
  let section' (hourly : Nat) : List (String × Json) := [("hourly_nano_usd", .num hourly), ("storage_gb", .num 5),
    ("storage_nano_usd_per_gb_month", .num 1000), ("egress_bytes_per_request", .num 2000),
    ("egress_nano_usd_per_gb", .num 10000000)]
  .obj [
    ("forecast", .obj [("window_days", .num 14), ("series", .arr (demand.zipIdx.map fun (requests, i) =>
      .obj [("date", .str ("2026-10-" ++ String.ofList (Dates.pad 2 (i + 5)))), ("requests", .num requests)]))]),
    ("request", .obj [("input_tokens", .num 1000), ("cached_read_tokens", .num 0), ("cache_write_tokens", .num 0),
      ("output_tokens", .num 100)]),
    ("models", .arr [.obj [
      ("id", .str "qwen3-9b"),
      ("throughput", .obj [("prefill_tokens_per_sec", .num 1000), ("decode_tokens_per_sec", .num 50)]),
      ("success_bps", .num 8000),
      ("wholesale", .obj [("input_nano_usd_per_million", .num 100000000), ("cached_read_nano_usd_per_million", .num 0),
        ("cache_write_nano_usd_per_million", .num 0), ("output_nano_usd_per_million", .num 400000000),
        ("per_request_nano_usd", .num 0)])]]),
    ("gpu_classes", .arr [.obj [
      ("id", .str "rtx-4070-12gb"),
      ("warm", .obj (section' 100000000)),
      ("scale_to_zero", .obj (section' 200000000 ++ [("startup_seconds", .num 20), ("requests_per_cold_start", .num 3)]))]])]

theorem sample_within : ((plan sample (some "400000000")).toOption.map fun result =>
    result.candidates.map fun c => (c.mode, c.status)) = some [(.wholesale, .withinBudget)] := by
  decide +kernel

theorem sample_held : ∃ result, plan sample (some "400000000") = .ok result ∧
    ∃ document, validate sample = .ok document ∧ result.budget = parseBudget (some "400000000") ∧
      ∀ c ∈ result.candidates, ∃ model ∈ document.models, ∃ gpuClass ∈ document.gpuClasses, ∃ volume high costs,
        Held model gpuClass document.request result.forecast.monthly result.budget c volume high costs := by
  cases planned : plan sample (some "400000000") with
  | error message =>
    have within := sample_within
    rw [planned] at within
    exact nomatch within
  | ok result => exact ⟨result, rfl, plan_held sample (some "400000000") result planned⟩

end OpenVibeHost.InferencePlanner
