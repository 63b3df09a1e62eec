import OpenVibeHost.Announcements
import OpenVibeHost.MetricFiles
import OpenVibeHost.OfferPrices
import OpenVibeHost.OrderedMaps

/-! `ovhost alerts relay`, lib/alerts.js: the alerts that fire in Prometheus, sent to Network as a complete set, and the
metrics of each run. -/
namespace OpenVibeHost.AlertRelay
open Effects Program Operator MetricFiles OrderedMaps.OrderedMap

def defaultPrometheus : String := "http://127.0.0.1:9090"

def textfileDirectory : String := "/var/lib/prometheus/node-exporter"

/-- `MAX`. -/
def most : Nat := 200

/-! ### Alerts -/

/-- What is used of the runtime: sha256 in hexadecimal, `Date.parse` of a value as milliseconds, and what announcing
uses. -/
structure Runtime where
  sha256 : String → String
  dateParse : Option Json → Option Nat
  announce : Announce.Runtime

/-- What every object has, and the rules' table of severities with it. -/
def inherited : List String :=
  ["constructor", "hasOwnProperty", "isPrototypeOf", "propertyIsEnumerable", "toLocaleString", "toString", "valueOf",
    "__defineGetter__", "__defineSetter__", "__lookupGetter__", "__lookupSetter__"]

/-- `SEVERITIES[severity] || 'warning'` as the request has it: a function is not sent. -/
def severityOf (severity : Option Json) : Option Json :=
  let text := (severity.map Json.shown).getD "undefined"
  if text ∈ ["critical", "page"] then some (.str "critical")
  else if text = "info" then some (.str "info")
  else if text ∈ inherited then none
  else if text = "__proto__" then some (.obj [])
  else some (.str "warning")

/-- `NAME_RE`. -/
def isAlertName (text : String) : Bool :=
  match text.toList with
  | [] => false
  | c :: rest => c.isAlpha && rest.all (fun d => d.isAlphanum || d = '_' || d = ':') && rest.length ≤ 99

/-- `String(value || '')`. -/
def textOr (value : Option Json) : String :=
  match value with
  | some v => if v.truthy then v.shown else ""
  | none => ""

/-- A text on one line, of `most` units at most. -/
def clip (text : String) (most : Nat) : String :=
  let t := Json.trimChars (Catalog.Offers.collapse text.toList)
  if most < Catalog.units (String.ofList t) then String.ofList (Catalog.slice (most - 1) t ++ ['…']) else String.ofList t

/-- The pairs of the sorted labels. -/
def labelPairs (labels : Json) : List Json :=
  (labels.keys.mergeSort fun a b => !(b < a)).map fun key =>
    .arr [.str key, .str (((labels.field key).map Json.shown).getD "undefined")]

def fingerprint (runtime : Runtime) (labels : Json) : String :=
  String.ofList ((runtime.sha256 (Json.stringify (.arr (labelPairs labels)))).toList.take 32)

/-- A value that is there and truthy, or an empty object. -/
def orEmpty (value : Option Json) : Json := (value.filter Json.truthy).getD (.obj [])

/-- An alert as Network takes it, under its fingerprint, where it fires and its name can be one. -/
def itemOf (runtime : Runtime) (now : Nat) (a : Json) : Option (String × Json) :=
  let labels := orEmpty (a.field "labels")
  let name := textOr (labels.field "alertname")
  let ann := orEmpty (a.field "annotations")
  if (a.field "state").any (Json.same (.str "firing")) ∧ isAlertName name then
    let summary := clip (let text := textOr (ann.field "summary"); if text = "" then name else text) 300
    let description := clip (textOr (ann.field "description")) 1000
    some (fingerprint runtime labels, .obj ([
      ("fingerprint", .str (fingerprint runtime labels)),
      ("name", .str name)] ++
      ((severityOf (labels.field "severity")).elim [] fun severity => [("severity", severity)]) ++ [
      ("summary", .str (if summary = "" then name else summary)),
      ("started_at", .str (Dates.isoString ((runtime.dateParse (a.field "activeAt")).getD now)))] ++
      (if description = "" then [] else [("description", .str description)]) ++
      if Announce.isService (textOr (labels.field "service")) then [("service", (labels.field "service").getD .null)]
      else []))
  else none

/-- Prometheus' alerts as Network takes them: of two under one fingerprint the last. -/
def toReport (runtime : Runtime) (now : Nat) (alerts : List Json) : List Json :=
  ((ofPairs (alerts.filterMap (itemOf runtime now))).entries.map Prod.snd).take most

/-! ### A run -/

structure Host where
  announce : Announce.Host
  prometheusUrl : Option String := none
  textfileDir : Option String := none
  /-- `$OVHOST_PROMETHEUS_URL`. -/
  prometheusVariable : Option String := none

structure Options where
  prometheus : Option String := none
  envFile : Option String := none
  dryRun : Bool := false
  metrics : Bool := true

structure Report where
  ok : Bool
  stage : Option String := none
  firing : Option Nat := none
  alerts : Option (List Json) := none
  result : Option Json := none
  error : Option String := none
  dryRun : Bool := false

def directory (host : Host) : String := (Announce.given host.textfileDir).getD textfileDirectory

def metricsFile (host : Host) : String := pathJoin (directory host) "openvibe_alert_relay.prom"

def successName : String := "openvibe_alert_relay_last_success_timestamp_seconds"

/-- What the metrics say of a run at `now`, in seconds. -/
def runLines (r : Report) (now : Nat) : List (List Char) :=
  gauge "openvibe_alert_relay_last_run_timestamp_seconds".toList "When ovhost alerts relay last ran.".toList
    (Nat.toDigits 10 now) ++
  gauge "openvibe_alert_relay_last_run_ok".toList "1 when the last run delivered the firing set to Network.".toList
    (if r.ok then ['1'] else ['0']) ++
  gauge "openvibe_alert_relay_firing".toList "Alerts firing at the last run that read Prometheus.".toList
    (r.firing.elim "NaN".toList (Nat.toDigits 10))

def metricLines (r : Report) (now : Nat) (lastOk : Option Nat) : List (List Char) :=
  runLines r now ++ (lastOk.filter (· ≠ 0)).elim [] fun lastOk =>
    gauge successName.toList "When a run last delivered.".toList (Nat.toDigits 10 lastOk)

/-- The second of the last run that delivered, as a text of metrics has it. -/
def lastSuccess (text : Option String) : Option Nat := readingIn successName.toList (text.getD "").toList

/-- Writes the metrics of a run; what fails is dropped. -/
def writeMetrics (host : Host) (r : Report) : Command Unit := do
  match ← readdir (directory host) with
  | none => return
  | some _ =>
    let now := (← now) / 1000
    if r.ok ∧ now ≠ 0 then
      let _ ← writeFile (metricsFile host) (String.ofList (fileOf (metricLines r now (some now))))
    else
      match ← readFile (metricsFile host) with
      | .error _ => return
      | .ok prev =>
        let _ ← writeFile (metricsFile host) (String.ofList (fileOf (metricLines r now (lastSuccess prev))))

/-- `done`. -/
def finish (host : Host) (options : Options) (r : Report) : Command Report := do
  whenever (options.metrics ∧ ¬ options.dryRun) (writeMetrics host r)
  return r

/-- The alerts in Prometheus' answer. -/
def alertsIn (p : HttpAnswer) : Option (List Json) := do
  let data ← if p.status = 200 then Json.parse p.body else none
  if (data.field "status").any (Json.same (.str "success")) then
    match (data.field "data").bind (Json.field "alerts") with
    | some (.arr alerts) => some alerts
    | _ => none
  else none

/-- Why a service did not answer as it should. -/
def refusal (r : HttpAnswer) (answered unreachable more : String) : String :=
  if r.status ≠ 0 then answered ++ " " ++ toString r.status ++ more
  else unreachable ++ " (" ++ (if r.error = "" then "no answer" else r.error) ++ ")"

def alertsRequest (host : Host) (options : Options) : Request where
  url := Announce.unslashed ((((Announce.given options.prometheus).or (Announce.given host.prometheusVariable)).or
    (Announce.given host.prometheusUrl)).getD defaultPrometheus) ++ "/api/v1/alerts"

def tokenRequest (runtime : Runtime) (creds : Announce.Credentials) : Request where
  url := creds.networkUrl ++ "/oauth/token"
  method := "POST"
  headers := [("Content-Type", "application/x-www-form-urlencoded"), ("Accept", "application/json")]
  body := some (runtime.announce.formText [("grant_type", "client_credentials"), ("client_id", creds.clientId),
    ("client_secret", creds.secret), ("audience", "openvibe.network"), ("scope", "network.operator.alert")])

/-- What is sent: the complete set. -/
def bodyOf (sentAt : Nat) (alerts : List Json) : Json :=
  .obj [("source", .str "prometheus"), ("sent_at", .str (Dates.isoString sentAt)), ("alerts", .arr alerts)]

def deliverRequest (creds : Announce.Credentials) (token : String) (body : Json) : Request where
  url := creds.networkUrl ++ "/internal/operator/alerts"
  method := "POST"
  headers := [("Content-Type", "application/json"), ("Accept", "application/json"), ("Authorization", "Bearer " ++ token)]
  body := some (Json.stringify body)
  timeoutMs := 10000

/-- The token that the token endpoint answered with. -/
def tokenIn (t : HttpAnswer) : Option String := if t.status = 200 then Announce.tokenOf t else none

/-- Whether Network took the set. -/
def delivered (r : HttpAnswer) : Bool :=
  r.status = 200 && ((Json.parse r.body).bind (Json.field "ok")).any (Json.same (.bool true))

/-- `result.error`, behind a status. -/
def saidError (r : HttpAnswer) : String :=
  match ((Json.parse r.body).bind (Json.field "error")).filter Json.truthy with
  | some error => ": " ++ error.shown
  | none => ""

/-- The set is sent with a fresh token. -/
def deliver (runtime : Runtime) (host : Host) (options : Options) (creds : Announce.Credentials) (sentAt : Nat)
    (alerts : List Json) : Command Report := do
  let t ← request (tokenRequest runtime creds)
  match tokenIn t with
  | none =>
    finish host options {
      ok := false, stage := "token", firing := alerts.length, alerts
      error := refusal t "the token endpoint answered" "Network unreachable" "" }
  | some token =>
    let r ← request (deliverRequest creds token (bodyOf sentAt alerts))
    if delivered r then finish host options { ok := true, firing := alerts.length, alerts, result := Json.parse r.body }
    else
      finish host options {
        ok := false, stage := "deliver", firing := alerts.length, alerts
        error := refusal r "Network answered" "Network unreachable" (saidError r) }

/-- One relay run. -/
def relay (runtime : Runtime) (host : Host) (options : Options) : Command Report := do
  let p ← request (alertsRequest host options)
  match alertsIn p with
  | none =>
    finish host options {
      ok := false, stage := "prometheus"
      error := refusal p "Prometheus answered" "Prometheus unreachable" "" }
  | some firing =>
    let alerts := toReport runtime (← now) firing
    let sentAt ← now
    if options.dryRun then return { ok := true, dryRun := true, firing := alerts.length, alerts }
    else
      match ← Announce.loadCredentials runtime.announce host.announce options.envFile with
      | .error error =>
        finish host options { ok := false, stage := "credentials", firing := alerts.length, alerts, error }
      | .ok creds => deliver runtime host options creds sentAt alerts

end OpenVibeHost.AlertRelay
