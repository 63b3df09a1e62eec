import OpenVibeHost.Json
import OpenVibeHost.Dates
import OpenVibeHost.Doubles
import Mathlib.Data.List.Sort

/-! The inference placement planner, `server/inference-planner.js`: a planning document is checked, the
demand of the months ahead is forecast, and the monthly cost of renting a GPU, of scaling to zero and of
buying wholesale is compared. Money is integer nano-USD. -/
namespace OpenVibeHost.InferencePlanner
open Doubles

/-! ### Reading a document -/

def fail {α : Type} (place message : String) : Except String α := .error (place ++ ": " ++ message)

/-- A value that is neither undefined nor null. -/
def given (value : Option Json) : Option Json :=
  match value with
  | some .null => none
  | other => other

def record (value : Option Json) (place : String) : Except String Json :=
  match value with
  | none => fail place "is required"
  | some (.obj fields) => return .obj fields
  | some _ => fail place "must be an object"

def list (value : Option Json) (place : String) (min : Nat) : Except String (List Json) :=
  match value with
  | none => fail place "is required"
  | some (.arr items) =>
    if items.length < min then
      fail place ("needs at least " ++ toString min ++ " item" ++ if min = 1 then "" else "s")
    else return items
  | some _ => fail place "must be an array"

def optionalText (value : Option Json) (place : String) : Except String (Option String) :=
  match given value with
  | none => return none
  | some (.str text) => return some text
  | some _ => fail place "must be a string"

def text (value : Option Json) (place : String) : Except String String := do
  match ← optionalText value place with
  | none => fail place "is required"
  | some text => return text

/-- The integer that a text writes in decimal. -/
def decimalOf (text : List Char) : Option Int :=
  match text with
  | [] | ['-'] => none
  | '-' :: digits => (Dates.digits digits).map fun n => -(n : Int)
  | digits => (Dates.digits digits).map Int.ofNat

/-- `Number.isSafeInteger`, of an integer. -/
def isSafe (n : Int) : Bool := n.natAbs ≤ 9007199254740991

/-- A number of a document is the double nearest to what is written. -/
def integerOf (value : Json) : Option Int :=
  match value with
  | .num q =>
    match ofRat q with
    | .finite v => if v.den = 1 ∧ isSafe v.num then some v.num else none
    | _ => none
  | .str text => decimalOf (Json.trimChars text.toList)
  | _ => none

def integer (value : Option Json) (place : String) (min : Int) (max : Option Int) :
    Except String {n : Int // min ≤ n} :=
  match given value with
  | none => fail place "is required"
  | some v =>
    match integerOf v with
    | none => fail place "must be an integer"
    | some n =>
      if below : n < min then fail place ("must be >= " ++ toString min)
      else
        match max.filter (n > ·) with
        | some top => fail place ("must be <= " ++ toString top)
        | none => return ⟨n, not_lt.mp below⟩

/-- An integer from zero up. -/
def amount (value : Option Json) (place : String) (max : Option Int) : Except String Nat := do
  return (← integer value place 0 max).val.toNat

/-- An integer that is a number, from `min` up; or what stands for an absent one. -/
def count (value : Option Json) (place : String) (min : Nat) (max : Int) (fallback : Option Nat) :
    Except String Nat :=
  match given value, fallback with
  | none, some n => return n
  | _, _ => do
    let n ← integer value place min (some max)
    if isSafe n.val then return n.val.toNat else fail place "is too large"

def positive (value : Option Json) (place : String) : Except String {v : Rat // 0 < v} :=
  match given value with
  | none => fail place "is required"
  | some (.num q) =>
    match ofRat q with
    | .finite v => if above : 0 < v then return ⟨v, above⟩ else fail place "must be a positive number"
    | _ => fail place "must be a positive number"
  | some _ => fail place "must be a positive number"

def nonNegative (value : Option Json) (place : String) : Except String {v : Rat // 0 ≤ v} :=
  match given value with
  | none => fail place "is required"
  | some (.num q) =>
    match ofRat q with
    | .finite v => if above : 0 ≤ v then return ⟨v, above⟩ else fail place "must be a non-negative number"
    | _ => fail place "must be a non-negative number"
  | some _ => fail place "must be a non-negative number"

/-! ### Dates -/

def dayMs : Int := 86400000

/-- The year, the month from 1 and the day of the month, of a day since 1970. -/
def calendar (day : Int) : Int × Nat × Int :=
  let year := Dates.yearFromDay day
  let inYear := day - Dates.dayFromYear year
  let month := Dates.monthOf (Dates.inLeapYear year) inYear
  (year, month + 1, inYear - Dates.monthStart (Dates.inLeapYear year) month + 1)

/-- `getUTCDay`, of a day since 1970. -/
def dayOfWeek (day : Int) : Nat := ((day + 4) % 7).toNat

/-- `DATE_RE`. -/
def dateFields (value : String) : Option (Nat × Nat × Nat) :=
  match value.toList with
  | [y₁, y₂, y₃, y₄, '-', m₁, m₂, '-', d₁, d₂] => do
    return (← Dates.digits [y₁, y₂, y₃, y₄], ← Dates.digits [m₁, m₂], ← Dates.digits [d₁, d₂])
  | _ => none

def parseDate (value place : String) : Except String Int :=
  match dateFields value with
  | none => fail place "must be a calendar date (YYYY-MM-DD)"
  | some (year, month, day) =>
    let ms := Dates.utc { year := year, month := month, day := day, hour := 0, minute := 0, second := 0 }
    if calendar (ms / dayMs) = ((year : Int), month, (day : Int)) then return ms
    else fail place "is not a real calendar date"

def isoDate (ms : Int) : String :=
  let (year, month, day) := calendar (ms / dayMs)
  String.ofList ((Dates.yearText year.toNat ++ ['-'] ++ Dates.pad 2 month ++ ['-'] ++ Dates.pad 2 day.toNat).take 10)

/-! ### What a document says -/

structure Point where
  date : String
  ms : Int
  requests : Nat
  dow : Nat
  deriving DecidableEq, Repr

structure Series where
  horizonDays : Nat
  windowDays : Nat
  points : List Point

structure Request where
  inputTokens : Nat
  cachedReadTokens : Nat
  cacheWriteTokens : Nat
  outputTokens : Nat

structure Throughput where
  prefillTokensPerSec : {v : Rat // 0 < v}
  decodeTokensPerSec : {v : Rat // 0 < v}
  cachedReadTokensPerSec : {v : Rat // 0 < v}
  concurrency : Nat

structure Wholesale where
  inputNanoPerMillion : Nat
  cachedReadNanoPerMillion : Nat
  cacheWriteNanoPerMillion : Nat
  outputNanoPerMillion : Nat
  perRequestNano : Nat
  successBps : Nat

structure Model where
  id : String
  label : String
  throughput : Throughput
  successBps : Nat
  wholesale : Wholesale

structure GpuSection where
  storageGb : Nat
  storageNanoPerGbMonth : Nat
  egressBytesPerRequest : Nat
  egressNanoPerGb : Nat
  hourlyNanoUsd : Nat

structure ScaleSection extends GpuSection where
  startupSeconds : {v : Rat // 0 ≤ v}
  requestsPerColdStart : {n : Int // 1 ≤ n}

structure GpuClass where
  id : String
  label : String
  warm : GpuSection
  scaleToZero : ScaleSection

structure Document where
  note : Option String
  forecast : Series
  request : Request
  models : List Model
  gpuClasses : List GpuClass

def readPoint (row : Json) (i : Nat) : Except String Point := do
  let place := "forecast.series[" ++ toString i ++ "]"
  let p ← record (some row) place
  let date ← text (p.field "date") (place ++ ".date")
  let ms ← parseDate date (place ++ ".date")
  let requests ← count (p.field "requests") (place ++ ".requests") 0 1000000000 none
  return { date := date, ms := ms, requests := requests, dow := dayOfWeek (ms / dayMs) }

/-- Every point is the day after the one before it. -/
def consecutive : Nat → List Point → Except String Unit
  | i, a :: b :: rest =>
    let place := "forecast.series[" ++ toString i ++ "].date"
    if b.ms = a.ms then fail place "duplicates an earlier date"
    else if b.ms ≠ a.ms + dayMs then fail place "every point must be the next calendar day"
    else consecutive (i + 1) (b :: rest)
  | _, _ => return ()

def validateForecast (value : Option Json) : Except String Series := do
  let f ← record value "forecast"
  let rows ← list (f.field "series") "forecast.series" 14
  let read ← rows.zipIdx.mapM fun (row, i) => readPoint row i
  let points := read.insertionSort (·.ms ≤ ·.ms)
  consecutive 1 points
  let horizonDays ← count (f.field "horizon_days") "forecast.horizon_days" 1 365 (some 30)
  let windowDays ← count (f.field "window_days") "forecast.window_days" 7 points.length (some 28)
  return { horizonDays := horizonDays, windowDays := windowDays, points := points }

def validateRequest (value : Option Json) : Except String Request := do
  let r ← record value "request"
  let token (key : String) := amount (r.field key) ("request." ++ key) (some 1000000000)
  return {
    inputTokens := ← token "input_tokens"
    cachedReadTokens := ← token "cached_read_tokens"
    cacheWriteTokens := ← token "cache_write_tokens"
    outputTokens := ← token "output_tokens" }

/-- The id and the label of a model or a class. -/
def naming (m : Json) (place : String) : Except String (String × String) := do
  let id := String.ofList (Json.trimChars (← text (m.field "id") (place ++ ".id")).toList)
  if id = "" then fail (place ++ ".id") "must not be empty"
  else return (id, (← optionalText (m.field "label") (place ++ ".label")).getD id)

def validateModel (value : Json) (i : Nat) : Except String Model := do
  let place := "models[" ++ toString i ++ "]"
  let m ← record (some value) place
  let (id, label) ← naming m place
  let t ← record (m.field "throughput") (place ++ ".throughput")
  let rate (key : String) := positive (t.field key) (place ++ ".throughput." ++ key)
  let prefill ← rate "prefill_tokens_per_sec"
  let decode ← rate "decode_tokens_per_sec"
  let cached ← (match given (t.field "cached_read_tokens_per_sec") with
    | none => return prefill
    | some _ => rate "cached_read_tokens_per_sec" : Except String {v : Rat // 0 < v})
  let concurrency ← count (t.field "concurrency") (place ++ ".throughput.concurrency") 1 1024 (some 1)
  let successBps ← count (m.field "success_bps") (place ++ ".success_bps") 1 10000 none
  let w ← record (m.field "wholesale") (place ++ ".wholesale")
  let price (key : String) := amount (w.field key) (place ++ ".wholesale." ++ key) none
  return {
    id := id
    label := label
    throughput := {
      prefillTokensPerSec := prefill
      decodeTokensPerSec := decode
      cachedReadTokensPerSec := cached
      concurrency := concurrency }
    successBps := successBps
    wholesale := {
      inputNanoPerMillion := ← price "input_nano_usd_per_million"
      cachedReadNanoPerMillion := ← price "cached_read_nano_usd_per_million"
      cacheWriteNanoPerMillion := ← price "cache_write_nano_usd_per_million"
      outputNanoPerMillion := ← price "output_nano_usd_per_million"
      perRequestNano := ← price "per_request_nano_usd"
      successBps := ← count (w.field "success_bps") (place ++ ".wholesale.success_bps") 1 10000
        (some successBps) } }

/-- A section of a class, with its hourly rate, which is read after the rest. -/
def validateGpuSection (value : Option Json) (place : String) : Except String (Json × GpuSection) := do
  let s ← record value place
  let price (key : String) := amount (s.field key) (place ++ "." ++ key) none
  return (s, {
    storageGb := ← price "storage_gb"
    storageNanoPerGbMonth := ← price "storage_nano_usd_per_gb_month"
    egressBytesPerRequest := ← price "egress_bytes_per_request"
    egressNanoPerGb := ← price "egress_nano_usd_per_gb"
    hourlyNanoUsd := ← price "hourly_nano_usd" })

def validateGpuClass (value : Json) (i : Nat) : Except String GpuClass := do
  let place := "gpu_classes[" ++ toString i ++ "]"
  let g ← record (some value) place
  let (id, label) ← naming g place
  let (_, warm) ← validateGpuSection (g.field "warm") (place ++ ".warm")
  let (s, scale) ← validateGpuSection (g.field "scale_to_zero") (place ++ ".scale_to_zero")
  let startup ← nonNegative (s.field "startup_seconds") (place ++ ".scale_to_zero.startup_seconds")
  let perColdStart ← integer (s.field "requests_per_cold_start")
    (place ++ ".scale_to_zero.requests_per_cold_start") 1 none
  return {
    id := id
    label := label
    warm := warm
    scaleToZero := { toGpuSection := scale, startupSeconds := startup, requestsPerColdStart := perColdStart } }

def unique (kind : String) : List String → List String → Except String Unit
  | _, [] => return ()
  | seen, id :: rest =>
    if id ∈ seen then fail (kind ++ ".id") ("'" ++ id ++ "' is listed twice")
    else unique kind (seen ++ [id]) rest

/-- A document is checked, and refused with the first problem. -/
def validate (input : Json) : Except String Document := do
  let .obj _ := input | fail "input" "must be a JSON object"
  let note ← optionalText (input.field "note") "note"
  let forecast ← validateForecast (input.field "forecast")
  let request ← validateRequest (input.field "request")
  let models ← (← list (input.field "models") "models" 1).zipIdx.mapM fun (m, i) => validateModel m i
  unique "models" [] (models.map (·.id))
  let gpuClasses ← (← list (input.field "gpu_classes") "gpu_classes" 1).zipIdx.mapM fun (g, i) =>
    validateGpuClass g i
  unique "gpu_classes" [] (gpuClasses.map (·.id))
  return { note := note, forecast := forecast, request := request, models := models, gpuClasses := gpuClasses }

/-! ### The forecast -/

structure Window where
  startDate : String
  endDate : String
  days : Nat
  level : Double
  residualSd : Double
  weekdayFactors : List (String × Double)

structure Monthly where
  requests : Double
  band : Double
  low : Double
  high : Double
  bandBps : Double

structure Day where
  date : String
  weekday : String
  requests : Double
  factor : Double

structure Forecast where
  points : Nat
  firstDate : String
  lastDate : String
  window : Window
  monthly : Monthly
  daily : List Day

def weekdays : List String :=
  ["Sunday", "Monday", "Tuesday", "Wednesday", "Thursday", "Friday", "Saturday"]

def zero : Double := .finite 0

def sum (values : List Double) : Double := values.foldl add zero

/-- `round(value, digits)`. -/
def rounded (value : Double) (digits : Nat) : Double :=
  div (Doubles.round (mul value (ofInt (10 ^ digits)))) (ofInt (10 ^ digits))

/-- Level, weekday factors and band of the trailing window, and what they say of the days ahead. The `**` of
the spread, which the language leaves to the platform, is taken as the rounded product. -/
def forecast (input : Series) : Forecast :=
  let requestsOf (p : Point) := ofInt p.requests
  let window := input.points.drop (input.points.length - input.windowDays)
  let level := div (sum (window.map requestsOf)) (ofInt window.length)
  let means := (List.range 7).map fun dow =>
    let rows := window.filter (·.dow = dow)
    if rows.length = 0 then level else div (sum (rows.map requestsOf)) (ofInt rows.length)
  let factors := means.map fun m => if less zero level then div m level else ofInt 1
  let last := input.points.getLast?
  let lastMs := (last.map Point.ms).getD 0
  let days := (List.range input.horizonDays).map fun i =>
    let ms := lastMs + (i + 1) * dayMs
    let dow := dayOfWeek (ms / dayMs)
    let factor := factors.getD dow .nan
    { date := isoDate ms
      weekday := weekdays.getD dow ""
      requests := Doubles.round (mul level factor)
      factor := rounded factor 4 : Day }
  let total := sum (days.map (·.requests))
  let squareFrom (mean : Point → Double) (p : Point) :=
    let residual := sub (requestsOf p) (mean p)
    mul residual residual
  let spread :=
    if 7 < input.windowDays then
      div (sum (window.map (squareFrom fun p => means.getD p.dow .nan))) (ofInt (input.windowDays - 7 : Nat))
    else div (sum (window.map (squareFrom fun _ => level))) (ofInt (max 1 (window.length - 1) : Nat))
  let sd := sqrt spread
  let band := ceil (mul (mul (ofRat 1.96) sd) (sqrt (ofInt input.horizonDays)))
  let rest := sub total band
  { points := input.points.length
    firstDate := (input.points.head?.map Point.date).getD ""
    lastDate := (last.map Point.date).getD ""
    window := {
      startDate := (window.head?.map Point.date).getD ""
      endDate := (window.getLast?.map Point.date).getD ""
      days := window.length
      level := rounded level 4
      residualSd := rounded sd 4
      weekdayFactors := weekdays.zip (factors.map (rounded · 4)) }
    monthly := {
      requests := total
      band := band
      low := if less rest zero then zero else rest
      high := add total band
      bandBps := if less zero total then Doubles.round (mul (div band total) (ofInt 10000)) else zero }
    daily := days }

/-! ### Costs -/

structure Budget where
  nano : Nat
  configured : Bool
  valid : Bool

def parseBudget (value : Option String) : Budget :=
  match Json.trimChars (value.getD "").toList with
  | [] => { nano := 0, configured := false, valid := true }
  | raw => match Dates.digits raw with
    | some nano => { nano := nano, configured := true, valid := true }
    | none => { nano := 0, configured := true, valid := false }

/-- `BigInt`, of a number. -/
def bigInt (value : Double) : Except String Int :=
  let refused (shown : String) : Except String Int := .error
    ("The number " ++ shown ++ " cannot be converted to a BigInt because it is not an integer")
  match value with
  | .finite q => if q.den = 1 then return q.num else refused (Json.numberText q)
  | .infinite negative => refused (if negative then "-Infinity" else "Infinity")
  | .nan => refused "NaN"

/-- The divisor is positive wherever this is called. -/
def ceilDiv (a b : Int) : Int := (a + b - 1).tdiv b

def GpuSection.storageMonthly (s : GpuSection) : Int := s.storageGb * s.storageNanoPerGbMonth

def GpuSection.egressPerRequest (s : GpuSection) : Int :=
  if s.egressBytesPerRequest = 0 ∨ s.egressNanoPerGb = 0 then 0
  else ceilDiv (s.egressBytesPerRequest * s.egressNanoPerGb) 1000000000

structure Busy where
  prefill : Double
  cachedRead : Double
  decode : Double
  total : Double
  concurrency : Nat

/-- The milliseconds that tokens take at a rate, rounded up. -/
def tokenMillis (tokens : Nat) (perSec : Rat) : Double :=
  if tokens = 0 then zero else ceil (div (mul (ofInt tokens) (ofInt 1000)) (.finite perSec))

def busyMillis (model : Model) (request : Request) : Busy :=
  let t := model.throughput
  let prefill := tokenMillis (request.inputTokens + request.cacheWriteTokens) t.prefillTokensPerSec.val
  let cachedRead := tokenMillis request.cachedReadTokens t.cachedReadTokensPerSec.val
  let decode := tokenMillis request.outputTokens t.decodeTokensPerSec.val
  { prefill := prefill
    cachedRead := cachedRead
    decode := decode
    total := add (add prefill cachedRead) decode
    concurrency := t.concurrency }

/-- The milliseconds of a cold start. -/
def ScaleSection.startupMillis (s : ScaleSection) : Double :=
  Doubles.round (mul (.finite s.startupSeconds.val) (ofInt 1000))

structure Cost where
  total : Int
  parts : List (String × Int)
  idleBurn : Int := 0
  gpuCount : Option Int := none
  occupancyBps : Option Int := none
  coldStarts : Option Int := none
  perRequest : Option Int := none

/-- `HOURS_PER_MONTH`, in milliseconds. -/
def monthMs : Int := 730 * 3600 * 1000

def hourMs : Int := 1000 * 3600

/-- A month's rent of each GPU that the busy time needs, storage and egress. -/
def warmCost (n : Int) (gpuClass : GpuClass) (busyMs : Int) : Cost :=
  let s := gpuClass.warm
  let gpuMs := n * busyMs
  let neededGpus := ceilDiv gpuMs monthMs
  let gpuCount := if neededGpus > 0 then neededGpus else 1
  let gpuRental := gpuCount * 730 * s.hourlyNanoUsd
  let busyValue := ceilDiv (gpuMs * s.hourlyNanoUsd) hourMs
  let egress := n * s.egressPerRequest
  { total := gpuRental + s.storageMonthly + egress
    parts := [("gpu_rental", gpuRental), ("storage", s.storageMonthly), ("egress", egress)]
    idleBurn := gpuRental - busyValue
    gpuCount := some gpuCount
    occupancyBps := some (if gpuMs > 0 then (gpuMs * 10000).tdiv (gpuCount * monthMs) else 0) }

/-- Busy time and cold starts at the hourly rate, storage and egress. -/
def scaleToZeroCost (n : Int) (gpuClass : GpuClass) (busyMs startupMs : Int) : Cost :=
  let s := gpuClass.scaleToZero
  let busyCost := n * ceilDiv (busyMs * s.hourlyNanoUsd) hourMs
  let coldStarts := ceilDiv n s.requestsPerColdStart.val
  let coldStartCost := ceilDiv (coldStarts * startupMs * s.hourlyNanoUsd) hourMs
  let egress := n * s.egressPerRequest
  { total := busyCost + coldStartCost + s.storageMonthly + egress
    parts := [("busy", busyCost), ("cold_start", coldStartCost), ("storage", s.storageMonthly), ("egress", egress)]
    coldStarts := some coldStarts }

/-- The tokens of a request at rates per million, and the fee. -/
def wholesaleCost (n : Int) (model : Model) (request : Request) : Cost :=
  let w := model.wholesale
  let tokens (count price : Nat) := ceilDiv (count * price) 1000000
  let parts := [
    ("input", tokens request.inputTokens w.inputNanoPerMillion),
    ("cached_read", tokens request.cachedReadTokens w.cachedReadNanoPerMillion),
    ("cache_write", tokens request.cacheWriteTokens w.cacheWriteNanoPerMillion),
    ("output", tokens request.outputTokens w.outputNanoPerMillion),
    ("per_request", (w.perRequestNano : Int))]
  let perRequest := (parts.map (·.2)).sum
  { total := n * perRequest, parts := parts, perRequest := some perRequest }

inductive Mode where
  | warm
  | scaleToZero
  | wholesale
  deriving DecidableEq, Repr

def Mode.label : Mode → String
  | .warm => "Warm rented GPU"
  | .scaleToZero => "Scale to zero"
  | .wholesale => "Wholesale API"

/-- What every mode costs at a volume. -/
def costsAt (n : Int) (model : Model) (gpuClass : GpuClass) (request : Request) (busyMs startupMs : Int) :
    Mode → Cost
  | .warm => warmCost n gpuClass busyMs
  | .scaleToZero => scaleToZeroCost n gpuClass busyMs startupMs
  | .wholesale => wholesaleCost n model request

/-- The cheapest mode; of modes that cost the same, the first of `TIE_ORDER`. -/
def chooseMode (costs : Mode → Cost) : Mode :=
  [Mode.scaleToZero, .warm].foldl (fun best mode => if (costs mode).total < (costs best).total then mode else best)
    .wholesale

structure CostReport where
  cost : Cost
  perRequest : Int
  expectedTasks : Int
  costPerTask : Option Int

def serializeCost (cost : Cost) (n : Int) (successBps : Nat) : CostReport :=
  let tasks := (n * successBps).tdiv 10000
  { cost := cost
    perRequest := cost.perRequest.getD (if n > 0 then ceilDiv cost.total n else 0)
    expectedTasks := tasks
    costPerTask := if tasks > 0 then some (ceilDiv cost.total tasks) else none }

def serializeCosts (costs : Mode → Cost) (n : Int) (model : Model) (mode : Mode) : CostReport :=
  serializeCost (costs mode) n (if mode = .wholesale then model.wholesale.successBps else model.successBps)

/-! ### Break-even -/

def oneGpuCapacity (busyMs : Int) : Int :=
  if busyMs ≤ 0 then 1000000000
  else
    let capacity := monthMs.tdiv busyMs
    if capacity > 0 then capacity else 1

/-- The loop of `firstAtMost`, for as many turns as the gap has numbers. -/
def bisect (a b : Int → Int) : Nat → Int → Int → Int
  | 0, _, high => high
  | turns + 1, low, high =>
    if low + 1 < high then
      let mid := (low + high).tdiv 2
      if a mid ≤ b mid then bisect a b turns low mid else bisect a b turns mid high
    else high

def firstAtMost (a b : Int → Int) (max : Int) : Option Int :=
  if a 0 ≤ b 0 then some 0
  else if ¬ a max ≤ b max then none
  else some (bisect a b max.toNat 0 max)

structure BreakEven where
  capacity : Int
  warmVsScaleToZero : Option Int
  warmVsWholesale : Option Int

def breakEven (model : Model) (gpuClass : GpuClass) (request : Request) (busyMs startupMs : Int) : BreakEven :=
  let max := oneGpuCapacity busyMs
  let warm (n : Int) := (warmCost n gpuClass busyMs).total
  let scale (n : Int) := (scaleToZeroCost n gpuClass busyMs startupMs).total
  let wholesale (n : Int) := (wholesaleCost n model request).total
  { capacity := max
    warmVsScaleToZero := firstAtMost warm scale max
    warmVsWholesale := firstAtMost warm wholesale max }

/-! ### The recommendation -/

def formatUsd (nano : Int) (digits : Nat) : String :=
  let scale := 10 ^ (9 - digits)
  let rounded := (nano.natAbs + scale / 2) / scale
  let unit := 10 ^ digits
  (if nano < 0 then "-" else "") ++ "$" ++ toString (rounded / unit) ++ "." ++
    String.ofList (Dates.pad digits (rounded % unit))

def moneyText (nano : Int) : String :=
  formatUsd nano (if 0 < nano.natAbs ∧ nano.natAbs < 1000000 then 6 else 2)

def reasonFor (mode otherMode : Mode) (atForecast atHigh : Mode → Cost) (budget : Budget)
    (needsOwnerBudget : Bool) (recommendedHigh : Int) : String :=
  let cheapest :=
    if mode = otherMode then
      mode.label ++ " is cheapest at the forecast and at the high band (" ++
        moneyText (atForecast mode).total ++ "/month)."
    else
      mode.label ++ " is cheapest at the forecast (" ++ moneyText (atForecast mode).total ++ "/month), but " ++
        otherMode.label ++ " is cheapest at the high band (" ++ moneyText (atHigh otherMode).total ++
        "/month); the choice depends on demand."
  let idle := match mode with
    | .warm => "Its idle burn is " ++ moneyText (atForecast .warm).idleBurn ++ "/month at the forecast."
    | .scaleToZero =>
      "Its cold-start cost is " ++ moneyText ((atForecast .scaleToZero).parts.lookup "cold_start" |>.getD 0) ++
        "/month at the forecast; idle time is free."
    | .wholesale => "No GPU is rented and no idle burn is paid."
  let within :=
    if needsOwnerBudget then
      "Needs the owner's budget: " ++ moneyText recommendedHigh ++ "/month at the high band is above the configured " ++
        moneyText budget.nano ++ "/month."
    else "Within the configured " ++ moneyText budget.nano ++ "/month budget."
  String.intercalate " " ([cheapest, idle, within] ++
    if budget.valid then []
    else ["HOST_INFERENCE_BUDGET_NANO_USD is not a non-negative integer; it is treated as 0."])

inductive BudgetStatus where
  | needsOwnerBudget
  | withinBudget
  deriving DecidableEq, Repr

structure Candidate where
  modelId : String
  modelLabel : String
  gpuClassId : String
  gpuClassLabel : String
  busy : Busy
  atForecast : Mode → CostReport
  atHigh : Mode → CostReport
  breakEven : BreakEven
  mode : Mode
  reason : String
  stable : Bool
  forecastNanoUsd : Int
  highBandNanoUsd : Int
  status : BudgetStatus
  exceedsForecast : Bool
  exceedsHighBand : Bool

/-- `BigInt(busy.total)` and the milliseconds of a cold start, which every cost converts, are converted once. -/
def planCandidate (model : Model) (gpuClass : GpuClass) (request : Request) (monthly : Monthly) (budget : Budget) :
    Except String Candidate := do
  let busy := busyMillis model request
  let forecastRequests ← bigInt monthly.requests
  let busyMs ← bigInt busy.total
  let startupMs ← bigInt gpuClass.scaleToZero.startupMillis
  let highRequests ← bigInt monthly.high
  let atForecast := costsAt forecastRequests model gpuClass request busyMs startupMs
  let atHigh := costsAt highRequests model gpuClass request busyMs startupMs
  let mode := chooseMode atForecast
  let highMode := chooseMode atHigh
  let exceedsForecast := decide ((atForecast mode).total > budget.nano)
  let exceedsHighBand := decide ((atHigh mode).total > budget.nano)
  let needsOwnerBudget := exceedsForecast || exceedsHighBand
  return {
    modelId := model.id
    modelLabel := model.label
    gpuClassId := gpuClass.id
    gpuClassLabel := gpuClass.label
    busy := busy
    atForecast := serializeCosts atForecast forecastRequests model
    atHigh := serializeCosts atHigh highRequests model
    breakEven := breakEven model gpuClass request busyMs startupMs
    mode := mode
    reason := reasonFor mode highMode atForecast atHigh budget needsOwnerBudget (atHigh mode).total
    stable := mode = highMode
    forecastNanoUsd := (atForecast mode).total
    highBandNanoUsd := (atHigh mode).total
    status := if needsOwnerBudget then .needsOwnerBudget else .withinBudget
    exceedsForecast := exceedsForecast
    exceedsHighBand := exceedsHighBand }

structure Plan where
  note : Option String
  forecast : Forecast
  budget : Budget
  candidates : List Candidate
  needsOwnerBudget : Nat
  stableRecommendations : Nat

def plan (input : Json) (budgetNanoUsd : Option String) : Except String Plan := do
  let normalized ← validate input
  let budget := parseBudget budgetNanoUsd
  let forecastResult := forecast normalized.forecast
  let pairs := normalized.models.flatMap fun model => normalized.gpuClasses.map fun gpuClass => (model, gpuClass)
  let candidates ← pairs.mapM fun (model, gpuClass) =>
    planCandidate model gpuClass normalized.request forecastResult.monthly budget
  return {
    note := normalized.note
    forecast := forecastResult
    budget := budget
    candidates := candidates
    needsOwnerBudget := (candidates.filter (·.status = .needsOwnerBudget)).length
    stableRecommendations := (candidates.filter (·.stable)).length }

end OpenVibeHost.InferencePlanner
