import OpenVibeHost.Answers
import OpenVibeHost.Exact
import OpenVibeHost.InferencePlanner

/-! The inference cost model, `scripts/inference-cost-model.js`: what a request costs on a rented GPU, on one that
scales to zero and on a wholesale interface. The optional fields of a document are checked with their defaults, and
the defaults are not what is computed with. -/
namespace OpenVibeHost.InferenceCosts
open Exact
open InferencePlanner (fail)
open Answers (bind_ok mapM_ok_iff exists_pair exists_ok)

/-! ### Reading a document -/

def object (input : Json) (key : String) : Except String Json :=
  match input.field key with
  | some (.obj fields) => .ok (.obj fields)
  | _ => fail key "must be an object"

/-- `Number.MIN_VALUE`. -/
def minValue : Rat := 1 / 2 ^ 1074

def boundText (q : Rat) : String := if q = minValue then "5e-324" else Json.numberText q

structure Options where
  required : Bool := true
  min : Rat := 0
  max : Option Rat := none
  integer : Bool := false
  fallback : Option Json := none

def number (input : Json) (place key : String) (options : Options) : Except String (Option Json) :=
  match input.field key with
  | none | some .null => if options.required then fail place "is required" else .ok options.fallback
  | some (.num q) =>
    if options.integer ∧ q.den ≠ 1 then fail place "must be an integer"
    else if q < options.min then fail place ("must be >= " ++ boundText options.min)
    else
      match options.max.filter (· < q) with
      | some max => fail place ("must be <= " ++ boundText max)
      | none => .ok (some (.num q))
  | some _ => fail place "must be a finite number"

inductive IdlePolicy
  | billed
  | standby
  | stopped
  deriving DecidableEq, Repr

def idlePolicy (gpu : Json) : Option IdlePolicy :=
  match gpu.field "idle_policy" with
  | some (.str "billed") => some .billed
  | some (.str "standby") => some .standby
  | some (.str "stopped") => some .stopped
  | _ => none

def validate (input : Json) : Except String Json := do
  let .obj _ := input | .error "input: must be a JSON object"
  let window ← object input "window"
  let _ ← number window "window.hours" "hours" { min := minValue }
  let _ ← number window "window.requests" "requests" { min := 1, integer := true }
  let request ← object input "request"
  let _ ← ["input_tokens", "cached_read_tokens", "cache_write_tokens", "output_tokens"].mapM fun key =>
    number request ("request." ++ key) key { min := 0, integer := true }
  let _ ← number request "request.success_rate" "success_rate" { min := minValue, max := some 1 }
  let throughput ← object input "throughput"
  let _ ← number throughput "throughput.prefill_tokens_per_sec" "prefill_tokens_per_sec" { min := minValue }
  let _ ← number throughput "throughput.decode_tokens_per_sec" "decode_tokens_per_sec" { min := minValue }
  let _ ← number throughput "throughput.cached_read_tokens_per_sec" "cached_read_tokens_per_sec"
    { required := false, min := minValue, fallback := throughput.field "prefill_tokens_per_sec" }
  let _ ← number throughput "throughput.concurrency" "concurrency"
    { required := false, min := 1, integer := true, fallback := some (.num 1) }
  let gpu ← object input "gpu"
  let _ ← number gpu "gpu.hourly_usd" "hourly_usd" { min := 0 }
  let _ ← number gpu "gpu.occupancy" "occupancy" { min := minValue, max := some 1 }
  let some policy := idlePolicy gpu | fail "gpu.idle_policy" "must be 'billed', 'standby' or 'stopped'"
  let _ ← number gpu "gpu.standby_hourly_usd" "standby_hourly_usd"
    { required := policy = .standby, min := 0, fallback := some (.num 0) }
  let _ ← number gpu "gpu.startup_seconds" "startup_seconds" { min := 0 }
  let _ ← number gpu "gpu.storage_gb" "storage_gb" { min := 0 }
  let _ ← number gpu "gpu.storage_usd_per_gb_month" "storage_usd_per_gb_month" { min := 0 }
  let _ ← number gpu "gpu.egress_gb_per_request" "egress_gb_per_request" { min := 0 }
  let _ ← number gpu "gpu.egress_usd_per_gb" "egress_usd_per_gb" { min := 0 }
  let serverless ← object input "serverless"
  let _ ← number serverless "serverless.hourly_usd" "hourly_usd" { min := 0 }
  let _ ← number serverless "serverless.startup_seconds" "startup_seconds" { min := 0 }
  let _ ← number serverless "serverless.requests_per_cold_start" "requests_per_cold_start"
    { min := 1, fallback := some (.num 1), required := false }
  let _ ← number serverless "serverless.storage_gb" "storage_gb" { min := 0 }
  let _ ← number serverless "serverless.storage_usd_per_gb_month" "storage_usd_per_gb_month" { min := 0 }
  let _ ← number serverless "serverless.egress_gb_per_request" "egress_gb_per_request" { min := 0 }
  let _ ← number serverless "serverless.egress_usd_per_gb" "egress_usd_per_gb" { min := 0 }
  let api ← object input "api_wholesale"
  let _ ← ["input_usd_per_million", "cached_read_usd_per_million", "cache_write_usd_per_million", "output_usd_per_million",
      "per_request_usd"].mapM fun key => number api ("api_wholesale." ++ key) key { min := 0 }
  let _ ← number api "api_wholesale.success_rate" "success_rate"
    { required := false, min := minValue, max := some 1, fallback := request.field "success_rate" }
  return input

/-! ### Costs -/

/-- What is computed with: nothing is no number, and null is zero. -/
def toNumber (value : Option Json) : Number :=
  match Json.number value with
  | some q => .finite q
  | none => .nan

def value (input : Json) (key : String) : Number := toNumber (input.field key)

def storagePerRequest (input window : Json) : Number :=
  div (mul (mul (value input "storage_gb") (value input "storage_usd_per_gb_month"))
    (div (value window "hours") (.finite 730))) (value window "requests")

def egressPerRequest (input : Json) : Number :=
  mul (value input "egress_gb_per_request") (value input "egress_usd_per_gb")

abbrev Parts := List (String × Number)

structure Row where
  mode : String
  costPerRequest : Number
  successRate : Option Json
  parts : Parts
  costPerSuccessfulTask : Number

structure Window where
  hours : Option Json
  requests : Option Json

structure Request where
  input_tokens : Option Json
  cached_read_tokens : Option Json
  cache_write_tokens : Option Json
  output_tokens : Option Json
  success_rate : Option Json

structure Seconds where
  prefill : Number
  decode : Number
  busy : Number
  rented_idle : Number
  concurrency : Option Json

structure Result where
  schema : String
  note : String
  inputNote : Option String
  window : Window
  request : Request
  seconds : Seconds
  rows : List Row

def prefillSecondsOf (request throughput : Json) : Number :=
  let cachedTps := match throughput.field "cached_read_tokens_per_sec" with
    | none => value throughput "prefill_tokens_per_sec"
    | some found => toNumber (some found)
  add (div (add (value request "input_tokens") (value request "cache_write_tokens")) (value throughput "prefill_tokens_per_sec"))
    (div (value request "cached_read_tokens") cachedTps)

def idleHourlyOf (gpu : Json) : Number :=
  match idlePolicy gpu with
  | some .billed => value gpu "hourly_usd"
  | some .standby => value gpu "standby_hourly_usd"
  | _ => .finite 0

def rentedPartsOf (window gpu : Json) (busySeconds idleSeconds : Number) : Parts :=
  [("gpu_busy", div (mul busySeconds (value gpu "hourly_usd")) (.finite 3600)),
    ("gpu_idle", div (mul idleSeconds (idleHourlyOf gpu)) (.finite 3600)),
    ("startup", div (div (mul (value gpu "startup_seconds") (value gpu "hourly_usd")) (.finite 3600)) (value window "requests")),
    ("storage", storagePerRequest gpu window),
    ("egress", egressPerRequest gpu)]

def serverlessPartsOf (window serverless : Json) (busySeconds : Number) : Parts :=
  let coldStartsPerRequest := div (.finite 1) (value serverless "requests_per_cold_start")
  [("gpu_execution", div (mul busySeconds (value serverless "hourly_usd")) (.finite 3600)),
    ("startup", mul (div (mul (value serverless "startup_seconds") (value serverless "hourly_usd")) (.finite 3600))
      coldStartsPerRequest),
    ("storage", storagePerRequest serverless window),
    ("egress", egressPerRequest serverless)]

def apiPartsOf (request api : Json) : Parts :=
  [("input", div (mul (value request "input_tokens") (value api "input_usd_per_million")) (.finite 1000000)),
    ("cached_read", div (mul (value request "cached_read_tokens") (value api "cached_read_usd_per_million")) (.finite 1000000)),
    ("cache_write", div (mul (value request "cache_write_tokens") (value api "cache_write_usd_per_million")) (.finite 1000000)),
    ("output", div (mul (value request "output_tokens") (value api "output_usd_per_million")) (.finite 1000000)),
    ("per_request", value api "per_request_usd")]

/-- A row of the result, of the parts of its cost. `round` cuts the numbers that are reported to twelve digits. -/
def rowOf (round : Number → Number) (mode : String) (parts : Parts) (successRate : Option Json) : Row :=
  let costPerRequest := sum (parts.map Prod.snd)
  { mode := mode
    costPerRequest := round costPerRequest
    successRate := successRate
    parts := parts.map fun (key, value) => (key, round value)
    costPerSuccessfulTask := round (div costPerRequest (toNumber successRate)) }

def compute (round : Number → Number) (raw : Json) : Except String Result := do
  let input ← validate raw
  let window := input.fieldOrEmpty "window"
  let request := input.fieldOrEmpty "request"
  let throughput := input.fieldOrEmpty "throughput"
  let gpu := input.fieldOrEmpty "gpu"
  let serverless := input.fieldOrEmpty "serverless"
  let api := input.fieldOrEmpty "api_wholesale"
  let prefillSeconds := prefillSecondsOf request throughput
  let decodeSeconds := div (value request "output_tokens") (value throughput "decode_tokens_per_sec")
  let busySeconds := add prefillSeconds decodeSeconds
  let occupancy := value gpu "occupancy"
  let idleSeconds := mul busySeconds (div (sub (.finite 1) occupancy) occupancy)
  return {
    schema := "openvibe.inference-cost-model-result@1"
    note := "Planning estimate only, not a quote. Billing settles in integer nano-USD (D1); these are floats."
    inputNote := match input.field "note" with
      | some (.str note) => some note
      | _ => none
    window := { hours := window.field "hours", requests := window.field "requests" }
    request := {
      input_tokens := request.field "input_tokens"
      cached_read_tokens := request.field "cached_read_tokens"
      cache_write_tokens := request.field "cache_write_tokens"
      output_tokens := request.field "output_tokens"
      success_rate := request.field "success_rate" }
    seconds := {
      prefill := round prefillSeconds
      decode := round decodeSeconds
      busy := round busySeconds
      rented_idle := round idleSeconds
      concurrency := match throughput.field "concurrency" with
        | none => some (.num 1)
        | some concurrency => some concurrency }
    rows := [
      rowOf round "rented-warm" (rentedPartsOf window gpu busySeconds idleSeconds) (request.field "success_rate"),
      rowOf round "scale-to-zero" (serverlessPartsOf window serverless busySeconds) (request.field "success_rate"),
      rowOf round "api-wholesale" (apiPartsOf request api) (api.field "success_rate")] }

/-! ### Accepted documents -/

theorem object_ok {input section' : Json} {key : String} (ok : object input key = .ok section') :
    input.fieldOrEmpty key = section' := by
  unfold object at ok
  split at ok
  · rename_i fields found
    rw [Json.fieldOrEmpty, found, ← Except.ok.inj ok]
    rfl
  · exact nomatch ok

theorem number_ok {input : Json} {place key : String} {options : Options} {v : Option Json}
    (ok : number input place key options = .ok v) :
    (options.required = false ∧ (input.field key = none ∨ input.field key = some .null)) ∨
      ∃ q, input.field key = some (.num q) ∧ options.min ≤ q ∧ ∀ max ∈ options.max, q ≤ max := by
  unfold number at ok
  split at ok
  case h_4 => exact nomatch ok
  case h_3 q found =>
    right
    split at ok
    · exact nomatch ok
    split at ok
    · exact nomatch ok
    rename_i low
    split at ok
    · exact nomatch ok
    · rename_i within
      refine ⟨q, found, not_lt.1 low, fun max isMax => ?_⟩
      simpa using Option.filter_eq_none_iff.1 within max isMax
  all_goals
    rename_i absent
    split at ok
    · exact nomatch ok
    · rename_i optional
      exact .inl ⟨by simpa using optional, by simp [absent]⟩

theorem value_num {input : Json} {key : String} {q : Rat} (found : input.field key = some (.num q)) :
    value input key = .finite q := by
  rw [value, found]
  rfl

section
variable {input : Json} {place key : String} {options : Options} {v : Option Json}

theorem amount_of_number (ok : number input place key options = .ok v) (required : options.required = true)
    (least : 0 ≤ options.min) : Amount (value input key) := by
  rcases number_ok ok with ⟨optional, -⟩ | ⟨q, found, low, -⟩
  · exact nomatch required.symm.trans optional
  · exact ⟨q, value_num found, least.trans low⟩

/-- A field that is a number above zero. -/
def Above (v : Option Json) : Prop := ∃ q, v = some (.num q) ∧ 0 < q

theorem above_of_number (ok : number input place key options = .ok v) (required : options.required = true)
    (least : 0 < options.min) : Above (input.field key) := by
  rcases number_ok ok with ⟨optional, -⟩ | ⟨q, found, low, -⟩
  · exact nomatch required.symm.trans optional
  · exact ⟨q, found, least.trans_le low⟩

theorem Above.positive (above : Above (input.field key)) : Positive (value input key) := by
  obtain ⟨q, found, positive⟩ := above
  exact ⟨q, value_num found, positive⟩

/-- A field that is neither absent nor null. -/
def Given (v : Option Json) : Prop := v ≠ none ∧ v ≠ some .null

theorem above_of_given (ok : number input place key options = .ok v) (least : 0 < options.min)
    (given : Given (input.field key)) : Above (input.field key) := by
  rcases number_ok ok with ⟨-, absent | null⟩ | ⟨q, found, low, -⟩
  · exact absurd absent given.1
  · exact absurd null given.2
  · exact ⟨q, found, least.trans_le low⟩

end

theorem minValue_pos : 0 < minValue := by
  unfold minValue
  positivity

/-- What the check of a document promises of its fields. -/
structure Accepted (window request throughput gpu serverless api : Json) : Prop where
  hours : Above (window.field "hours")
  requests : Above (window.field "requests")
  tokens : ∀ key ∈ ["input_tokens", "cached_read_tokens", "cache_write_tokens", "output_tokens"], Amount (value request key)
  success : Above (request.field "success_rate")
  prefill : Above (throughput.field "prefill_tokens_per_sec")
  decode : Above (throughput.field "decode_tokens_per_sec")
  cached : Given (throughput.field "cached_read_tokens_per_sec") → Above (throughput.field "cached_read_tokens_per_sec")
  occupancy : ∃ q, gpu.field "occupancy" = some (.num q) ∧ 0 < q ∧ q ≤ 1
  standby : idlePolicy gpu = some .standby → Amount (value gpu "standby_hourly_usd")
  rented : ∀ key ∈ ["hourly_usd", "startup_seconds", "storage_gb", "storage_usd_per_gb_month", "egress_gb_per_request",
    "egress_usd_per_gb"], Amount (value gpu key)
  scaled : ∀ key ∈ ["hourly_usd", "startup_seconds", "storage_gb", "storage_usd_per_gb_month", "egress_gb_per_request",
    "egress_usd_per_gb"], Amount (value serverless key)
  coldStart : Given (serverless.field "requests_per_cold_start") → Above (serverless.field "requests_per_cold_start")
  wholesale : ∀ key ∈ ["input_usd_per_million", "cached_read_usd_per_million", "cache_write_usd_per_million",
    "output_usd_per_million", "per_request_usd"], Amount (value api key)
  apiSuccess : Given (api.field "success_rate") → Above (api.field "success_rate")

theorem amounts_of_mapM {input : Json} {place : String → String} {keys : List String} {vs : List (Option Json)}
    {options : Options} (ok : (keys.mapM fun key => number input (place key) key options) = .ok vs)
    (required : options.required = true) (least : 0 ≤ options.min) : ∀ key ∈ keys, Amount (value input key) := by
  intro key among
  obtain ⟨v, -, read⟩ := exists_pair (mapM_ok_iff.1 ok).flip among
  exact amount_of_number read required least

theorem validate_ok {input read : Json} (ok : validate input = .ok read) :
    read = input ∧ Accepted (input.fieldOrEmpty "window") (input.fieldOrEmpty "request") (input.fieldOrEmpty "throughput")
      (input.fieldOrEmpty "gpu") (input.fieldOrEmpty "serverless") (input.fieldOrEmpty "api_wholesale") := by
  unfold validate at ok
  split at ok
  case h_2 => exact nomatch ok
  simp only [bind_ok] at ok
  obtain ⟨window, isWindow, _, hours, _, requests, request, isRequest, _, tokens, _, success, throughput, isThroughput,
    _, prefill, _, decode, _, cached, _, -, gpu, isGpu, _, hourly, _, occupancy, ok⟩ := ok
  split at ok
  case h_2 => exact nomatch ok
  rename_i policy isPolicy
  simp only [bind_ok] at ok
  obtain ⟨_, standby, _, startup, _, storage, _, storageRate, _, egress, _, egressRate, serverless, isServerless, _, hourly',
    _, startup', _, coldStart, _, storage', _, storageRate', _, egress', _, egressRate', api, isApi, _, wholesale,
    _, apiSuccess, done⟩ := ok
  rw [object_ok isWindow, object_ok isRequest, object_ok isThroughput, object_ok isGpu, object_ok isServerless, object_ok isApi]
  have amount {section' : Json} {place key : String} {v : Option Json}
      (read : number section' place key { min := 0 } = .ok v) : Amount (value section' key) :=
    amount_of_number read rfl (le_refl _)
  refine ⟨(Except.ok.inj done).symm, ?_⟩
  constructor
  case hours => exact above_of_number hours rfl minValue_pos
  case requests => exact above_of_number requests rfl one_pos
  case tokens => exact amounts_of_mapM tokens rfl (le_refl _)
  case success => exact above_of_number success rfl minValue_pos
  case prefill => exact above_of_number prefill rfl minValue_pos
  case decode => exact above_of_number decode rfl minValue_pos
  case cached => exact above_of_given cached minValue_pos
  case occupancy =>
    rcases number_ok occupancy with ⟨optional, -⟩ | ⟨q, found, low, high⟩
    · exact nomatch optional
    · exact ⟨q, found, minValue_pos.trans_le low, high 1 rfl⟩
  case standby =>
    intro isStandby
    obtain rfl : policy = .standby := Option.some.inj (isPolicy.symm.trans isStandby)
    exact amount_of_number standby rfl (le_refl _)
  case rented => simpa using ⟨amount hourly, amount startup, amount storage, amount storageRate, amount egress, amount egressRate⟩
  case scaled =>
    simpa using ⟨amount hourly', amount startup', amount storage', amount storageRate', amount egress', amount egressRate'⟩
  case coldStart => exact above_of_given coldStart one_pos
  case wholesale => exact amounts_of_mapM wholesale rfl (le_refl _)
  case apiSuccess => exact above_of_given apiSuccess minValue_pos

/-! ### Finite costs -/

/-- A row of amounts whose cost of a successful task is its cost of a request by its success rate. -/
structure SoundRow (row : Row) : Prop where
  parts : ∀ part ∈ row.parts, Amount part.2
  costs : ∃ cost rate : Rat, 0 ≤ cost ∧ 0 < rate ∧ row.costPerRequest = .finite cost ∧
    row.successRate = some (.num rate) ∧ row.costPerSuccessfulTask = .finite (cost / rate)

structure Sound (result : Result) : Prop where
  rows : ∀ row ∈ result.rows, SoundRow row
  rate : Above result.request.success_rate

/-- The fields whose defaults are not computed with are there. -/
structure Complete (input : Json) : Prop where
  coldStart : Given ((input.fieldOrEmpty "serverless").field "requests_per_cold_start")
  apiSuccess : Given ((input.fieldOrEmpty "api_wholesale").field "success_rate")
  cached : (input.fieldOrEmpty "throughput").field "cached_read_tokens_per_sec" ≠ some .null

theorem soundRow_rowOf {mode : String} {parts : Parts} {rate : Option Json} (amounts : ∀ part ∈ parts, Amount part.2)
    (above : Above rate) : SoundRow (rowOf id mode parts rate) := by
  obtain ⟨q, rfl, positive⟩ := above
  have total : Amount (sum (parts.map Prod.snd)) := by
    refine Amount.sum fun value among => ?_
    obtain ⟨part, inside, rfl⟩ := List.mem_map.1 among
    exact amounts part inside
  obtain ⟨cost, isCost, nonneg⟩ := total
  refine ⟨?_, cost, q, nonneg, positive, isCost, rfl, ?_⟩
  · simpa [rowOf] using amounts
  · show div (sum (parts.map Prod.snd)) (.finite q) = _
    rw [isCost, div_finite positive]

theorem SoundRow.amounts {mode : String} {parts : Parts} {rate : Option Json} (sound : SoundRow (rowOf id mode parts rate)) :
    ∀ part ∈ parts, Amount part.2 := by
  simpa [rowOf] using sound.parts

theorem SoundRow.given {mode : String} {parts : Parts} {rate : Option Json} (sound : SoundRow (rowOf id mode parts rate)) :
    Given rate := by
  obtain ⟨_, q, -, -, -, isRate, -⟩ := sound.costs
  obtain rfl : rate = some (.num q) := isRate
  exact ⟨nofun, nofun⟩

section
variable {window request throughput gpu serverless api : Json}
  (accepted : Accepted window request throughput gpu serverless api) {busySeconds idleSeconds : Number}

section
include accepted

theorem storage_amount {input : Json} (storage : Amount (value input "storage_gb"))
    (rate : Amount (value input "storage_usd_per_gb_month")) : Amount (storagePerRequest input window) := by
  have months : Amount (div (value window "hours") (.finite 730)) :=
    accepted.hours.positive.amount.div (positive_finite (by norm_num))
  exact ((storage.mul rate).mul months).div accepted.requests.positive

theorem prefillSeconds_amount (unset : throughput.field "cached_read_tokens_per_sec" ≠ some .null) :
    Amount (prefillSecondsOf request throughput) := by
  have prefill := accepted.prefill.positive
  have cachedTps : Positive (match throughput.field "cached_read_tokens_per_sec" with
      | none => value throughput "prefill_tokens_per_sec"
      | some found => toNumber (some found)) := by
    cases found : throughput.field "cached_read_tokens_per_sec" with
    | none => exact prefill
    | some v =>
      have above := (accepted.cached ⟨by simp [found], unset⟩).positive
      rwa [value, found] at above
  have fresh := (accepted.tokens "input_tokens" (by simp)).add (accepted.tokens "cache_write_tokens" (by simp))
  exact (fresh.div prefill).add ((accepted.tokens "cached_read_tokens" (by simp)).div cachedTps)

theorem decodeSeconds_amount : Amount (div (value request "output_tokens") (value throughput "decode_tokens_per_sec")) :=
  (accepted.tokens "output_tokens" (by simp)).div accepted.decode.positive

theorem idle_amount : Amount (div (sub (.finite 1) (value gpu "occupancy")) (value gpu "occupancy")) := by
  obtain ⟨q, found, positive, most⟩ := accepted.occupancy
  rw [value_num found]
  have rest : Amount (sub (.finite 1) (.finite q)) := ⟨1 + -q, rfl, by linarith⟩
  exact rest.div (positive_finite positive)

theorem idleHourly_amount : Amount (idleHourlyOf gpu) := by
  unfold idleHourlyOf
  split
  · exact accepted.rented "hourly_usd" (by simp)
  · rename_i standby
    exact accepted.standby standby
  · exact amount_finite (le_refl 0)

theorem rentedParts_amounts (busy : Amount busySeconds) (idle : Amount idleSeconds) :
    ∀ part ∈ rentedPartsOf window gpu busySeconds idleSeconds, Amount part.2 := by
  have gpuField {key : String} := accepted.rented key
  have hour : Positive (.finite 3600) := positive_finite (by norm_num)
  simp only [rentedPartsOf, List.forall_mem_cons]
  refine ⟨?_, ?_, ?_, ?_, ?_, by simp⟩
  · exact (busy.mul (gpuField (by simp))).div hour
  · exact (idle.mul (idleHourly_amount accepted)).div hour
  · exact (((gpuField (by simp)).mul (gpuField (by simp))).div hour).div accepted.requests.positive
  · exact storage_amount accepted (gpuField (by simp)) (gpuField (by simp))
  · exact (gpuField (by simp)).mul (gpuField (by simp))

theorem serverlessParts_amounts (busy : Amount busySeconds) (given : Given (serverless.field "requests_per_cold_start")) :
    ∀ part ∈ serverlessPartsOf window serverless busySeconds, Amount part.2 := by
  have field {key : String} := accepted.scaled key
  have hour : Positive (.finite 3600) := positive_finite (by norm_num)
  have coldStarts : Amount (div (.finite 1) (value serverless "requests_per_cold_start")) :=
    (amount_finite zero_le_one).div (accepted.coldStart given).positive
  simp only [serverlessPartsOf, List.forall_mem_cons]
  refine ⟨?_, ?_, ?_, ?_, by simp⟩
  · exact (busy.mul (field (by simp))).div hour
  · exact (((field (by simp)).mul (field (by simp))).div hour).mul coldStarts
  · exact storage_amount accepted (field (by simp)) (field (by simp))
  · exact (field (by simp)).mul (field (by simp))

theorem apiParts_amounts : ∀ part ∈ apiPartsOf request api, Amount part.2 := by
  have million : Positive (.finite 1000000) := positive_finite (by norm_num)
  have charge {tokens rate : String} (isTokens : tokens ∈ ["input_tokens", "cached_read_tokens", "cache_write_tokens",
      "output_tokens"]) (isRate : rate ∈ ["input_usd_per_million", "cached_read_usd_per_million",
      "cache_write_usd_per_million", "output_usd_per_million", "per_request_usd"]) :
      Amount (div (mul (value request tokens) (value api rate)) (.finite 1000000)) :=
    ((accepted.tokens tokens isTokens).mul (accepted.wholesale rate isRate)).div million
  simp only [apiPartsOf, List.forall_mem_cons]
  refine ⟨?_, ?_, ?_, ?_, ?_, by simp⟩
  · exact charge (by simp) (by simp)
  · exact charge (by simp) (by simp)
  · exact charge (by simp) (by simp)
  · exact charge (by simp) (by simp)
  · exact accepted.wholesale _ (by simp)

end

/-- Nothing and null are no divisors of a finite number. -/
theorem given_of_div {n : Number} {v : Option Json} (whole : Finite (div n (toNumber v))) : Given v := by
  obtain ⟨-, number, zero⟩ := whole.of_div
  constructor
  · rintro rfl
    exact number rfl
  · rintro rfl
    exact zero rfl

theorem coldStart_given (amounts : ∀ part ∈ serverlessPartsOf window serverless busySeconds, Amount part.2) :
    Given (serverless.field "requests_per_cold_start") := by
  have startup := amounts _ (List.mem_cons_of_mem _ List.mem_cons_self)
  exact given_of_div startup.finite.of_mul.2

theorem cached_unset (whole : Finite (prefillSecondsOf request throughput)) :
    throughput.field "cached_read_tokens_per_sec" ≠ some .null := by
  intro null
  have cached := whole.of_add.2
  rw [null] at cached
  exact (given_of_div cached).2 rfl

end

/-- Sound costs are computed from fields that are there. -/
theorem complete_of_sound {input read : Json} {result : Result} (ok : validate input = .ok read)
    (computed : compute id input = .ok result) (sound : Sound result) : Complete input := by
  obtain ⟨rfl, -⟩ := validate_ok ok
  unfold compute at computed
  rw [ok] at computed
  obtain rfl := Except.ok.inj computed
  obtain ⟨rented, scaled, wholesale, -⟩ : _ ∧ _ ∧ _ ∧ _ := by
    simpa only [List.forall_mem_cons] using sound.rows
  have busy := (rented.amounts _ List.mem_cons_self).finite.of_div.1.of_mul.1
  exact ⟨coldStart_given scaled.amounts, wholesale.given, cached_unset busy.of_add.1⟩

theorem sound_of_complete {input read : Json} {result : Result} (ok : validate input = .ok read)
    (computed : compute id input = .ok result) (complete : Complete input) : Sound result := by
  obtain ⟨rfl, accepted⟩ := validate_ok ok
  unfold compute at computed
  rw [ok] at computed
  obtain rfl := Except.ok.inj computed
  have busy := (prefillSeconds_amount accepted complete.cached).add (decodeSeconds_amount accepted)
  have idle := busy.mul (idle_amount accepted)
  refine ⟨?_, accepted.success⟩
  simp only [List.forall_mem_cons]
  refine ⟨?_, ?_, ?_, by simp⟩
  · exact soundRow_rowOf (rentedParts_amounts accepted busy idle) accepted.success
  · exact soundRow_rowOf (serverlessParts_amounts accepted busy complete.coldStart) accepted.success
  · exact soundRow_rowOf (apiParts_amounts accepted) (accepted.apiSuccess complete.apiSuccess)

theorem compute_ok {input read : Json} (round : Number → Number) (ok : validate input = .ok read) :
    ∃ result, compute round input = .ok result := by
  unfold compute
  rw [ok]
  exact ⟨_, rfl⟩

/-- The costs of an accepted document are finite and agree with its success rates where the optional fields that are
computed with in any case are there. -/
theorem compute_sound_iff {input read : Json} (ok : validate input = .ok read) :
    ∃ result, compute id input = .ok result ∧ (Sound result ↔ Complete input) := by
  obtain ⟨result, computed⟩ := compute_ok id ok
  exact ⟨result, computed, complete_of_sound ok computed, sound_of_complete ok computed⟩

/-! ### Defaults -/

/-- A document with the optional fields of its serverless section and of its wholesale one. -/
def documentOf (serverless api : List (String × Json)) : Json := .obj [
  ("window", .obj [("hours", .num 24), ("requests", .num 1000)]),
  ("request", .obj [("input_tokens", .num 1000), ("cached_read_tokens", .num 0), ("cache_write_tokens", .num 0),
    ("output_tokens", .num 500), ("success_rate", .num (95 / 100))]),
  ("throughput", .obj [("prefill_tokens_per_sec", .num 800), ("decode_tokens_per_sec", .num 40)]),
  ("gpu", .obj [("hourly_usd", .num (1 / 10)), ("occupancy", .num (35 / 100)), ("idle_policy", .str "standby"),
    ("standby_hourly_usd", .num 0), ("startup_seconds", .num 90), ("storage_gb", .num 4),
    ("storage_usd_per_gb_month", .num (1 / 10)), ("egress_gb_per_request", .num (2 / 10000)),
    ("egress_usd_per_gb", .num (9 / 100))]),
  ("serverless", .obj ([("hourly_usd", .num (75 / 100)), ("startup_seconds", .num 45), ("storage_gb", .num 4),
    ("storage_usd_per_gb_month", .num (1 / 10)), ("egress_gb_per_request", .num (2 / 10000)),
    ("egress_usd_per_gb", .num (9 / 100))] ++ serverless)),
  ("api_wholesale", .obj ([("input_usd_per_million", .num (1 / 10)), ("cached_read_usd_per_million", .num (2 / 100)),
    ("cache_write_usd_per_million", .num (1 / 10)), ("output_usd_per_million", .num (4 / 10)),
    ("per_request_usd", .num (5 / 1000000))] ++ api))]

/-- Without a measured throughput of cached tokens they are charged as others are. -/
theorem explicit_sound : ∃ result,
    compute id (documentOf [("requests_per_cold_start", .num 3)] [("success_rate", .num (98 / 100))]) = .ok result ∧
      Sound result := by
  obtain ⟨read, ok⟩ := exists_ok (show (validate (documentOf [("requests_per_cold_start", .num 3)]
    [("success_rate", .num (98 / 100))])).isOk = true by decide +kernel)
  obtain ⟨result, computed, sound⟩ := compute_sound_iff ok
  exact ⟨result, computed, sound.2 ⟨⟨nofun, nofun⟩, ⟨nofun, nofun⟩, nofun⟩⟩

/-- A document without its optional fields is accepted, and has costs that are no numbers. -/
theorem defaults_unsound : ¬∀ input read, validate input = .ok read →
    ∃ result, compute id input = .ok result ∧ Sound result := by
  intro always
  obtain ⟨read, ok⟩ := exists_ok (show (validate (documentOf [] [])).isOk = true by decide +kernel)
  obtain ⟨result, computed, sound⟩ := always _ _ ok
  exact (complete_of_sound ok computed sound).coldStart.1 rfl

end OpenVibeHost.InferenceCosts
