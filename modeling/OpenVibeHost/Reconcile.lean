import OpenVibeHost.Operations

/-! `ovhost reconcile`, `lib/reconcile.js`: the deploy controller. Each `auto` service
is brought to main at its last green CI commit. Announcements, which follow a deploy
and change nothing on the host, are left out. -/
namespace OpenVibeHost.Reconcile
open Effects Program Operations
open ReleaseOps (Applied)

/-- `DOCS_OR_TESTS`. -/
def docsOrTests (f : String) : Bool :=
  ["README.md", "STATUS.json", "CHANGELOG.md", "SECURITY.md", "test/", "tests/", ".github/"].any
      (beginsWith f ·) ||
    (beginsWith f "docs/" &&
      (f.toList.drop "docs/".length).tails.any (".md".toList.isPrefixOf ·)) ||
    [".test.js", ".test.cjs", ".test.mjs", ".test.ts", ".test.cts", ".test.mts"].any (endsWith f ·)

def slugName (name : List Char) : Bool :=
  !name.isEmpty && name.all fun c => c.isAlphanum || c == '_' || c == '.' || c == '-'

/-- The owner and repository that follow `github.com`. -/
def slugOf (rest : List Char) : Option String :=
  match rest.splitOn '/' with
  | owner :: repo :: last =>
    let name := if 4 < repo.length ∧ ".git".toList.isSuffixOf repo = true then repo.take (repo.length - 4)
      else repo
    if slugName owner ∧ slugName name ∧ (last = [] ∨ last = [[]]) then
      some (String.ofList (owner ++ '/' :: name))
    else none
  | _ => none

/-- owner/repo from a GitHub remote URL, or none. -/
def githubSlug (url : String) : Option String :=
  url.toList.tails.findSome? fun tail =>
    if "github.com:".toList.isPrefixOf tail ∨ "github.com/".toList.isPrefixOf tail then
      slugOf (tail.drop "github.com:".length)
    else none

inductive Verdict where
  | green
  | pending
  | red
  | none
  | unknown
  deriving DecidableEq, Repr

def notArray : Failure := .plain "runs.some is not a function"

def readNull : Failure := .plain "Cannot read properties of null"

/-- A field of each check run; reading one of `null` throws. -/
def runsField (runs : List Json) (key : String) : Except Failure (List (Option String)) :=
  if runs.any fun run => match run with
    | .null => true
    | _ => false
  then .error readNull
  else .ok (runs.map (Releases.textField · key))

/-- The verdict on a list of check runs. -/
def runsVerdict (runs : List Json) : Except Failure Verdict := do
  let states ← runsField runs "status"
  let conclusions ← runsField runs "conclusion"
  if runs = [] then return .none
  else if states.any (· ≠ some "completed") then return .pending
  else if conclusions.any (· ∉ [some "success", some "skipped", some "neutral"]) then return .red
  else return .green

/-- What GitHub's answer says of the commit. -/
def ciVerdict (r : HttpAnswer) : Except Failure Verdict :=
  if r.status ≠ 200 then .ok .unknown
  else
    match Json.parse r.body with
    | none => .ok .unknown
    | some .null => .error readNull
    | some body =>
      match body.field "check_runs" with
      | some (.arr runs) => runsVerdict runs
      | some (.str text) => if text = "" then .ok .none else .error notArray
      | _ => .ok .none

def checksUrl (slug sha : String) : String :=
  "https://api.github.com/repos/" ++ slug ++ "/commits/" ++ sha ++ "/check-runs?per_page=100"

/-- The CI verdict for one commit. -/
def ciStatus (slug sha : String) (token : Option String) : Exec Verdict := do
  let headers := [("accept", "application/vnd.github+json"),
    ("user-agent", "openvibe-host-reconcile"), ("x-github-api-version", "2022-11-28")] ++
    (token.map fun t => ("authorization", "Bearer " ++ t)).toList
  let r ← Exec.request (checksUrl slug sha) headers
  orThrow (ciVerdict r)

structure PassOptions where
  only : Option (List String) := none
  dryRun : Bool := false
  token : Option String := none
  stateDir : String := "/var/lib/openvibe-host"
  textfileDir : String := "/var/lib/prometheus/node-exporter"

inductive Outcome where
  | skip
  | error
  | current
  | docsOnly
  | waiting
  | blocked
  | wouldDeploy
  | deployed
  | failed
  deriving DecidableEq, Repr

def Outcome.name : Outcome → String
  | .skip => "skip"
  | .error => "error"
  | .current => "current"
  | .docsOnly => "docs-only"
  | .waiting => "waiting"
  | .blocked => "blocked"
  | .wouldDeploy => "would-deploy"
  | .deployed => "deployed"
  | .failed => "failed"

structure Entry where
  id : String
  policy : DeployPolicy
  action : Outcome
  fromSha : Option String := none
  toSha : Option String := none
  detail : Option String := none
  ci : Option Verdict := none
  result : Option Result := none
  exitCode : Option Nat := none

/-- `lib.deploy(ctx, id, { waitIdle: true })`, and what it returned. -/
def deployIdle (inv : Inventory) (pid : Nat) (id : String) :
    Exec (Except String (Applied × Option Result)) :=
  attempt
    (do
      let (applied, last) ← within ({} : Deploy) (deploy inv pid id { waitIdle := true })
      return .ok (applied, last.record.result))
    fun err => pure (.error err.message)

/-- The deploy of one service, once CI on the planned commit is green. -/
def deployGreen (inv : Inventory) (pid : Nat) (svc : Service) (entry : Entry) : Exec Entry := do
  match ← deployIdle inv pid svc.id with
  | .error message =>
    return { entry with action := .error, detail := some ("deploy threw: " ++ message) }
  | .ok (applied, result) =>
    let entry := { entry with result, exitCode := some applied.exitCode }
    if applied.exitCode ≠ 0 then
      return { entry with
        action := .failed, detail := some ("deploy exit " ++ toString applied.exitCode) }
    else return { entry with action := .deployed }

/-- One service of a pass. -/
def reconcileOne (inv : Inventory) (pid : Nat) (opts : PassOptions) (svc : Service) : Exec Entry := do
  let entry : Entry := { id := svc.id, policy := svc.deployPolicy, action := .skip }
  if svc.managed = false then return { entry with detail := some "not managed by ovhost" }
  else
    let planned ← attempt (Except.ok <$> plan inv svc.id {})
      fun err => pure (.error err.message)
    match planned with
    | .error message =>
      return { entry with action := .error, detail := some ("plan failed: " ++ message) }
    | .ok p =>
      let entry := { entry with fromSha := some p.fromSha, toSha := some p.toSha }
      let runtime := p.changed.filter fun f => !docsOrTests f
      if p.upToDate then return { entry with action := .current }
      else if runtime = [] then return { entry with action := .docsOnly }
      else if svc.deployPolicy ≠ .auto then return { entry with action := .waiting }
      else
        let url ← attempt (Git.getRemoteUrl svc.checkout svc) fun _ => pure ""
        match githubSlug url with
        | none => return { entry with
            action := .error, detail := some "the remote is not a GitHub repository: no CI to read" }
        | some slug =>
          let ci ← ciStatus slug p.toSha opts.token
          let entry := { entry with ci := some ci }
          if ci ≠ .green then
            return { entry with action := if ci = .red then .blocked else .waiting }
          else if opts.dryRun then return { entry with action := .wouldDeploy }
          else deployGreen inv pid svc entry

def entryJson (entry : Entry) : Json :=
  .obj ([("id", .str entry.id), ("action", .str entry.action.name)] ++
    (entry.fromSha.map fun sha => ("from", Json.str sha)).toList ++
    (entry.toSha.map fun sha => ("to", Json.str sha)).toList ++
    (entry.detail.map fun detail => ("detail", Json.str detail)).toList ++
    (entry.result.map fun result => ("result", Json.str result.name)).toList ++
    (entry.exitCode.map fun code => ("exitCode", Json.num code)).toList)

def metricLines (started : Nat) (entries : List Entry) : List String :=
  let count (action : Outcome) := (entries.filter (·.action = action)).length
  ["openvibe_reconcile_last_run_timestamp_seconds " ++ toString (started / 1000)] ++
    ([.current, .docsOnly, .waiting, .blocked, .deployed, .failed, .error, .skip].map
      fun action : Outcome => "openvibe_reconcile_services\x7baction=\"" ++ action.name ++ "\"\x7d " ++
        toString (count action)) ++
    ["openvibe_reconcile_failed_total_last " ++ toString (count .failed + count .error)]

/-- The outcome of a pass, for the operator and the metrics; a failure to write is passed over. -/
def recordPass (opts : PassOptions) (started : Nat) (entries : List Entry) : Exec Unit :=
  attempt
    (do
      Exec.writeFile (joinPath opts.textfileDir "openvibe_reconcile.prom")
        ("\n".intercalate (metricLines started entries) ++ "\n")
      Exec.writeFile (joinPath opts.stateDir "reconcile.json")
        (Json.stringify (.obj [("at", .str (Dates.isoString started)),
          ("services", .arr (entries.map entryJson))]) ++ "\n"))
    fun _ => pure ()

/-- One pass over the inventory. -/
def reconcile (inv : Inventory) (pid : Nat) (opts : PassOptions) : Exec (List Entry) := do
  let started ← now
  let chosen := inv.services.filter fun svc => (opts.only.map (·.contains svc.id)).getD true
  let entries ← fold chosen [] fun entries svc => do
    return entries ++ [← reconcileOne inv pid opts svc]
  if opts.dryRun = false then recordPass opts started entries
  return entries

end OpenVibeHost.Reconcile
