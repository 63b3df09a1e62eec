import OpenVibeHost.BackupPrune

/-! `ovhost backup --all`, `backupAll` of `lib/commands/backup.js`: every service with databases or
object directories, one after another, each pruned afterwards, with a summary of the run. -/
namespace OpenVibeHost.Backup
open Effects Program Dates

inductive Status where
  | ok
  /-- Verified, with nothing to copy. -/
  | verified
  | failed
  deriving DecidableEq, Repr

def Status.name : Status → String
  | .ok => "ok"
  | .verified => "verified"
  | .failed => "failed"

/-- A service's entry in the summary. -/
structure ServiceEntry where
  service : String
  status : Status := .ok
  dir : Option String := none
  files : List BackupFile := []
  error : Option String := none
  pruned : List String := []
  verified : Option Verified := none
  deriving DecidableEq, Repr

structure OffsiteOutcome where
  ok : Bool
  error : Option String := none
  deriving DecidableEq, Repr

structure Summary where
  run : String
  startedAt : String
  finishedAt : Option String := none
  ok : Bool := true
  daily : Nat
  weekly : Nat
  services : List ServiceEntry := []
  offsite : Option OffsiteOutcome := none
  deriving DecidableEq, Repr

def ServiceEntry.json (e : ServiceEntry) : Json :=
  .obj ([("service", .str e.service), ("status", .str e.status.name), ("dir", Json.ofText e.dir),
      ("files", .arr (e.files.map BackupFile.json)), ("error", Json.ofText e.error),
      ("pruned", .arr (e.pruned.map .str))] ++
    (e.verified.map fun v => ("verified", Verified.json v)).toList)

def Summary.json (s : Summary) : Json :=
  .obj [("run", .str s.run), ("startedAt", .str s.startedAt), ("finishedAt", Json.ofText s.finishedAt),
    ("ok", .bool s.ok), ("retention", .obj [("daily", .num s.daily), ("weekly", .num s.weekly)]),
    ("services", .arr (s.services.map ServiceEntry.json)),
    ("offsite", (s.offsite.map fun o => Json.obj [("ok", .bool o.ok), ("error", Json.ofText o.error)]).getD .null)]

/-- What `backup --all` is called with: the options, the upload of the run, and the metrics. -/
structure AllOptions where
  daily : Nat := 7
  weekly : Nat := 4
  prune : Bool := true
  logical : Bool := false
  offsite : Option (Summary → Exec OffsiteOutcome) := none
  writeMetrics : Summary → Exec Unit := fun _ => pure ()

/-- The entry of a service whose backup returned. -/
def returned (svc : Service) (r : BackupRecord) : ServiceEntry where
  service := svc.id
  -- A PostgreSQL service with nothing to dump was verified, not backed up.
  status := if r.engine = some "postgresql" ∧ r.dir = none then .verified else .ok
  dir := r.dir
  files := r.files
  verified := r.verified

/-- The entry of a service whose backup threw. -/
def threw (svc : Service) : Failure → ServiceEntry
  | .backup message r =>
    { service := svc.id, status := .failed, error := some message, dir := r.dir, files := r.files,
      verified := r.verified }
  | err => { service := svc.id, status := .failed, error := some err.message }

/-- The entry of a service whose prune threw. -/
def unpruned (entry : ServiceEntry) (err : Failure) : ServiceEntry :=
  { entry with
    status := .failed
    error := some ("; ".intercalate ((entry.error.filter (· ≠ "")).toList ++ ["prune: " ++ err.message])) }

/-- One turn of the loop over the services. -/
def runService (inv : Inventory) (options : AllOptions) (run : String) (svc : Service) : Exec ServiceEntry := do
  let entry ← attempt (do return returned svc (← backup inv svc ("scheduled " ++ run) options.logical))
    fun err => pure (threw svc err)
  if options.prune then
    attempt (do return { entry with pruned := (← prune inv svc.id options.daily options.weekly).removed })
      fun err => pure (unpruned entry err)
  else return entry

/-- The services that a run backs up. -/
def covered (inv : Inventory) : List Service :=
  inv.services.filter fun svc => ¬ (svc.databases = [] ∧ svc.objects = [])

/-- `backupAll`. Nothing between taking the lock and the `finally` throws. -/
def backupAll (inv : Inventory) (options : AllOptions) (pid : Nat) : Exec Summary := do
  Locks.acquire inv "_backup-all" pid
  let started ← now
  let run := stamp started
  let services ← fold (covered inv) [] fun entries svc => do
    return entries ++ [← runService inv options run svc]
  let summary : Summary :=
    { run, startedAt := isoString started, daily := options.daily, weekly := options.weekly, services,
      ok := services.all (·.status ≠ .failed) }
  let summary ← (match options.offsite with
    | some upload => do
      let outcome ← attempt (upload summary) fun err => pure { ok := false, error := some err.message }
      return { summary with offsite := some outcome, ok := summary.ok && outcome.ok }
    | none => pure summary : Exec Summary)
  let summary := { summary with finishedAt := some (isoString (← now)) }
  Exec.mkdir (inv.stateDir ++ "/backup-runs")
  Exec.writeFile (inv.stateDir ++ "/backup-runs/" ++ run ++ ".json") (Json.stringify summary.json ++ "\n")
  Locks.release inv "_backup-all"
  attempt (options.writeMetrics summary) fun _ => pure ()
  return summary

end OpenVibeHost.Backup
