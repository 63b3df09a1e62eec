import OpenVibeHost.Executor

/-! The host inventory as `lib/inventory.js` leaves it after `normalise`: the
fields that deploys, rollbacks, backups and reconcile read, with what `normalise`
has checked of them. -/
namespace OpenVibeHost

inductive Strategy where
  | gitCheckout
  | multiApp
  | staticBuild
  | pnpmBuild
  | releaseLayout
  deriving DecidableEq, Repr

inductive DrainPolicy where
  | refuse
  | wait
  | report
  deriving DecidableEq, Repr

/-- The `drain` block. Of its values `normalise` checks the policy alone. -/
structure Drain where
  policy : DrainPolicy := .refuse
  waitMaxSeconds : Json := .num (8 * 3600)
  pollSeconds : Json := .num 60
  quietChecks : Json := .num 2

namespace Drain

def policyNamed : Json → Option DrainPolicy
  | .str "refuse" => some .refuse
  | .str "wait" => some .wait
  | .str "report" => some .report
  | _ => none

/-- The `drain` of a service: the defaults, under what the inventory has. -/
def normalise (at' : String) (given : Option Json) : Except Failure Drain :=
  let own (key : String) : Option Json := match given with
    | some (.obj fields) => (Json.obj fields).field key
    | _ => none
  match policyNamed ((own "policy").getD (.str "refuse")) with
  | none => .error (.inventory (at' ++ ".drain.policy must be one of refuse, wait, report"))
  | some policy => .ok {
      policy
      waitMaxSeconds := (own "waitMaxSeconds").getD (.num (8 * 3600))
      pollSeconds := (own "pollSeconds").getD (.num 60)
      quietChecks := (own "quietChecks").getD (.num 2) }

/-- `waitMaxSeconds * 1000` as the bound of a wait. No time reaches the one for `Infinity`. -/
def waitMaxMs (drain : Drain) : Nat :=
  match Json.number (some drain.waitMaxSeconds) with
  | some seconds => (seconds * 1000).ceil.toNat
  | none => if drain.waitMaxSeconds.isText ["Infinity", "+Infinity"] then 2 ^ 1024 else 0

/-- `pollSeconds * 1000` as `setTimeout` takes it. -/
def pollMs (drain : Drain) : Nat :=
  match Json.number (some drain.pollSeconds) with
  | some seconds =>
    if 1 ≤ seconds * 1000 ∧ seconds * 1000 ≤ 2147483647 then (seconds * 1000).floor.toNat else 1
  | none => 1

/-- `quiet >= quietChecks`. -/
def enough (drain : Drain) (quiet : Nat) : Bool :=
  match Json.number (some drain.quietChecks) with
  | some checks => checks ≤ quiet
  | none => drain.quietChecks.isText ["-Infinity"]

/-- Whatever the values of a drain are, `normalise` accepts them. -/
theorem normalise_accepts (at' : String) (drain : Drain) : ∃ given, normalise at' (some given) = .ok drain := by
  obtain ⟨policy, waitMaxSeconds, pollSeconds, quietChecks⟩ := drain
  refine ⟨.obj [("policy", .str (match policy with
    | .refuse => "refuse"
    | .wait => "wait"
    | .report => "report")), ("waitMaxSeconds", waitMaxSeconds), ("pollSeconds", pollSeconds),
    ("quietChecks", quietChecks)], ?_⟩
  cases policy <;> simp [normalise, Json.field, policyNamed]

end Drain

structure Ready where
  url : String
  headers : List (String × String) := []
  timeoutSeconds : Nat := 90
  release : Bool := false
  allUnits : Bool := false
  deriving DecidableEq, Repr

/-- One probe of protected sessions. -/
inductive CountProbe where
  | httpJsonCount (url : String) (headers : List (String × String)) (array : Option String)
      (whereFields : List (String × Json)) (countField : String) (addFields : List String)
  | postgresqlCount (database sql : String)

inductive SessionProbe where
  | one (probe : CountProbe)
  | sum (probes : List CountProbe)

structure Protected where
  label : String := "protected sessions"
  probe : SessionProbe

structure AuxiliaryUnit where
  unit : String
  restartOn : List String := []
  applyOn : List String := []
  applyHint : Option String := none
  deriving DecidableEq, Repr

structure Install where
  command : String
  arguments : List String := []
  always : Bool := false
  restoreLockfile : Bool := true
  lockfile : String := "package-lock.json"
  workspace : Bool := false
  deriving DecidableEq, Repr

/-- `packages` is none for every package (`"*"`). -/
structure PreflightCheck where
  label : String
  packages : Option (List String) := none
  command : String
  arguments : List String := []
  deriving DecidableEq, Repr

structure Preflight where
  syntaxCheck : Bool := false
  dirs : List String := []
  checks : List PreflightCheck := []
  deriving DecidableEq, Repr

structure VhostConfig where
  vhost : Option String := none
  repoVhost : Option String := none
  repoVhosts : Option String := none
  installOnDeploy : Bool := false
  skipVhosts : List String := []
  deriving DecidableEq, Repr

inductive ReleaseIdFormat where
  | timeSha8
  | sha12
  deriving DecidableEq, Repr

structure ReleaseConfig where
  git : String
  releasesDir : String
  current : String
  id : ReleaseIdFormat := .timeSha8
  links : List (String × String) := []
  reuseModules : Bool := true
  chown : Option String := none
  keep : Nat := 5
  settleSeconds : Nat := 3
  socketPort : Option Nat := none
  deriving DecidableEq, Repr

structure Database where
  name : String
  database : String
  role : Option String := none
  deriving DecidableEq, Repr

structure ObjectDirectory where
  name : String
  path : String
  verify : Bool := true
  deriving DecidableEq, Repr

inductive DeployPolicy where
  | auto
  | gated
  | manual
  deriving DecidableEq, Repr

structure MemoryGuard where
  minAvailableMiB : Nat := 1536
  memoryWaitSeconds : Nat := 300
  memoryPollSeconds : Nat := 5
  lockWaitSeconds : Nat := 1800
  deriving DecidableEq, Repr

/-- Whether `unit` is the worker unit, or begins as the instances of the template do. -/
def namesWorker (worker unit : String) : Bool :=
  unit = worker || (endsWith worker "@.service" &&
    beginsWith unit (String.ofList (worker.toList.take (worker.length - ".service".length))))

/-- A service. `normalise` has checked that its units and worker units are `.service`
units, that none of its units names a worker unit, that its socket is a `.socket` unit and that an
auxiliary unit is none of its units and none of its worker units; `unitSources` is an
object, which has a unit once, by its name. -/
structure Service where
  id : String
  repo : String
  owner : String
  runAs : String
  remote : String := "origin"
  branch : String := "main"
  strategy : Strategy := .gitCheckout
  release : Option ReleaseConfig := none
  managed : Bool := true
  unmanagedReason : Option String := none
  deployPolicy : DeployPolicy := .manual
  skipPackages : List String := []
  removeUntrackedLockfiles : Bool := false
  generated : List String := []
  preflight : Preflight := {}
  installUnits : Bool := false
  enableUnits : Bool := false
  unitsMatch : Option String := none
  releaseFiles : Option String := none
  units : List String := []
  workerUnits : List String := []
  auxiliaryUnits : List AuxiliaryUnit := []
  socketUnit : Option String := none
  unitSources : List (String × String) := []
  port : Option Nat := none
  ready : Option Ready := none
  packages : List String := ["."]
  install : Install := { command := "npm", arguments :=
    ["install", "--omit=dev", "--no-audit", "--no-fund", "--loglevel=error"] }
  build : List (String × List String) := []
  noRestartPaths : List String := []
  sessions : Option Protected := none
  drain : Drain := {}
  databases : List Database := []
  objects : List ObjectDirectory := []
  backupOnChange : List String := []
  nginx : Option VhostConfig := none
  memory : MemoryGuard := {}
  unit_service : ∀ unit ∈ units, endsWith unit ".service" = true
  socket_socket : ∀ unit, socketUnit = some unit → endsWith unit ".socket" = true
  auxiliary_apart : ∀ auxiliary ∈ auxiliaryUnits,
    endsWith auxiliary.unit ".service" = true ∧ auxiliary.unit ∉ units
  workers_service : ∀ worker ∈ workerUnits, endsWith worker ".service" = true
  workers_apart : ∀ worker ∈ workerUnits, ∀ unit ∈ units, namesWorker worker unit = false
  auxiliary_no_worker : ∀ auxiliary ∈ auxiliaryUnits, auxiliary.unit ∉ workerUnits
  sources_apart : (unitSources.map (·.1)).Nodup
  sources_named : ∀ entry ∈ unitSources, entry.1 ≠ "" ∧ entry.1 ≠ "."
  laid_out : strategy = .releaseLayout → release.isSome

/-! What is left out of a service breaks none of its rules. -/

namespace Service

theorem no_unit : ∀ unit ∈ ([] : List String), endsWith unit ".service" = true := by simp

theorem no_socket : ∀ unit, (none : Option String) = some unit → endsWith unit ".socket" = true := by simp

theorem no_auxiliary : ∀ auxiliary ∈ ([] : List AuxiliaryUnit),
    endsWith auxiliary.unit ".service" = true ∧ auxiliary.unit ∉ ([] : List String) := by simp

theorem no_worker : ∀ worker ∈ ([] : List String), ∀ unit ∈ ([] : List String), namesWorker worker unit = false := by simp

theorem no_auxiliary_worker : ∀ auxiliary ∈ ([] : List AuxiliaryUnit), auxiliary.unit ∉ ([] : List String) := by simp

theorem no_source : (([] : List (String × String)).map (·.1)).Nodup := by simp

theorem no_source_named : ∀ entry ∈ ([] : List (String × String)), entry.1 ≠ "" ∧ entry.1 ≠ "." := by simp

theorem no_layout : Strategy.gitCheckout = .releaseLayout → (none : Option ReleaseConfig).isSome := by simp

end Service

theorem service_no_socket {unit : String} (service : endsWith unit ".service" = true) :
    endsWith unit ".socket" = false := by
  by_contra both
  simp only [endsWith, Bool.not_eq_false, List.isSuffixOf_iff_suffix] at service both
  obtain ⟨a, first⟩ := service
  obtain ⟨b, second⟩ := both
  have last := congrArg List.getLast? (first.trans second.symm)
  rw [show ".service".toList = ['.', 's', 'e', 'r', 'v', 'i', 'c', 'e'] from rfl,
    show ".socket".toList = ['.', 's', 'o', 'c', 'k', 'e', 't'] from rfl] at last
  simp at last

/-- The inventory, with the services in its order. `normalise` has checked that the
backup directory is absolute. -/
structure Inventory where
  stateDir : String
  backupDir : String
  backupStagingDir : String
  sitesAvailable : String := "/etc/nginx/sites-available"
  sitesEnabled : String := "/etc/nginx/sites-enabled"
  nginxBin : String := "nginx"
  lockWaitSeconds : Nat := 1800
  services : List Service
  backup_absolute : beginsWith backupDir "/" = true

theorem backups_absolute : beginsWith "/var/backups/openvibe" "/" = true := by decide

/-- `inventory.service`. -/
def Inventory.service (inv : Inventory) (id : String) : Except Failure Service :=
  match inv.services.find? (·.id = id) with
  | some svc => .ok svc
  | none => .error (.inventory ("unknown service \"" ++ id ++ "\" (inventory has: " ++
      ", ".intercalate (inv.services.map (·.id)) ++ ")"))

end OpenVibeHost
