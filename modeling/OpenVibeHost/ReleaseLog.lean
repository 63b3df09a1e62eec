import OpenVibeHost.Preparation
import OpenVibeHost.Dates

/-! The release log, `lib/releases.js`: the record that every deploy and rollback
appends, and what a run of either keeps while it works. -/
namespace OpenVibeHost
open Effects Program Dates

inductive Mode where
  | deploy
  | rollback
  deriving DecidableEq, Repr

def Mode.name : Mode → String
  | .deploy => "deploy"
  | .rollback => "rollback"

def Strategy.name : Strategy → String
  | .gitCheckout => "git-checkout"
  | .multiApp => "multi-app"
  | .staticBuild => "static-build"
  | .pnpmBuild => "pnpm-build"
  | .releaseLayout => "release-layout"

/-- The options of a deploy or rollback; `target` is `--to`. -/
structure Options where
  target : Option String := none
  fetch : Bool := true
  restart : Bool := false
  force : Bool := false
  waitIdle : Bool := false
  installUnits : Bool := false
  prepareOnly : Bool := false
  readyTimeout : Option Nat := none
  deriving DecidableEq, Repr

structure SessionsRecord where
  count : Option Rat
  label : String
  unknown : Option String
  checkedWhen : String
  waitedSeconds : Option Nat := none
  deriving DecidableEq, Repr

structure AutoRollback where
  back : String
  ready : Option Bool := none
  deriving DecidableEq, Repr

structure Record where
  id : String := ""
  service : String := ""
  strategy : Strategy := .gitCheckout
  layout : Option String := none
  action : Mode := .deploy
  startedAt : String := ""
  operator : String := ""
  host : String := ""
  fromSha : Option String := none
  toSha : Option String := none
  fromRelease : Option String := none
  toRelease : Option String := none
  commits : Nat := 0
  lockfileChanged : Bool := false
  installed : List String := []
  depsVerified : Option Bool := none
  depsRepaired : List String := []
  restartNeeded : Option Bool := none
  switched : Bool := false
  restarted : Bool := false
  ready : Option Bool := none
  forced : Bool := false
  result : Option Result := none
  protectedSessions : Option SessionsRecord := none
  removedUntracked : List String := []
  droppedFromIndex : List String := []
  checkoutMoved : Bool := false
  checkoutRestored : Bool := false
  built : Bool := false
  preflight : Option PreflightChecks.Outcome := none
  unitsInstalled : Option (List String) := none
  backup : Option (List (Option String)) := none
  auxApplyPending : List String := []
  auxRestarted : List String := []
  autoRollback : Option AutoRollback := none
  prepared : Option String := none
  removedPrepared : Bool := false
  socketRebind : Option Systemd.RebindReason := none
  socketHeld : Option Bool := none
  pruned : Option (List String) := none
  error : Option String := none
  finishedAt : Option String := none
  deriving DecidableEq

/-- What a run keeps: its record, whether it holds the host-wide lock, and whether the
record is to be written. -/
structure Deploy where
  record : Record := {}
  hostLock : Bool := false
  writeRecord : Bool := true

/-- A deploy or rollback in progress. -/
abbrev Ops (α : Type) := Ovhost Deploy α

namespace Releases

def setRecord (f : Record → Record) : Ops Unit := update fun s => { s with record := f s.record }

def logPath (inv : Inventory) (id : String) : String := inv.stateDir ++ "/releases/" ++ id ++ ".jsonl"

/-- `newId`: the time to the second and three random bytes. -/
def newId (ms : Nat) (random : String) : String :=
  let iso := ((isoString ms).toList.filter fun c => c ≠ '-' ∧ c ≠ ':').takeWhile (· ≠ '.')
  "rel_" ++ String.ofList iso ++ "Z_" ++ random

def texts (items : List String) : Json := .arr (items.map .str)

def orNull (value : Option Json) : Json := value.getD .null

def sessionsJson (s : SessionsRecord) : Json :=
  .obj ([("count", orNull (s.count.map .num)), ("label", .str s.label),
      ("unknown", Json.ofText s.unknown), ("checkedWhen", .str s.checkedWhen)] ++
    (s.waitedSeconds.map fun n => ("waitedSeconds", Json.num n)).toList)

def rollbackJson (back : AutoRollback) : Json :=
  .obj ([("to", .str back.back)] ++ (back.ready.map fun ready => ("ready", Json.bool ready)).toList)

def preflightJson (outcome : PreflightChecks.Outcome) : Json :=
  if outcome.problems ≠ [] then .obj [("ok", .bool false), ("problems", texts outcome.problems)]
  else .obj [("ok", .bool true), ("checks", .num outcome.checksRun),
    ("syntaxChecked", .num outcome.syntaxChecked)]

def rebindName : Systemd.RebindReason → String
  | .socketChanged => "socket-changed"
  | .socketNotHeld => "socket-not-held"

/-- A field that is absent until it is set. -/
def present (key : String) (value : Option Json) : List (String × Json) :=
  (value.map fun v => (key, v)).toList

def listed (key : String) (items : List String) : List (String × Json) :=
  if items = [] then [] else [(key, texts items)]

def flagged (key : String) (flag : Bool) : List (String × Json) :=
  if flag then [(key, .bool true)] else []

def recordJson (r : Record) : Json :=
  .obj ([("id", .str r.id), ("service", .str r.service), ("strategy", .str r.strategy.name)] ++
    present "layout" (r.layout.map .str) ++
    [("action", .str r.action.name), ("startedAt", .str r.startedAt),
      ("operator", .str r.operator), ("host", .str r.host), ("from", Json.ofText r.fromSha),
      ("to", Json.ofText r.toSha)] ++
    (if r.layout.isSome then
        [("fromRelease", Json.ofText r.fromRelease), ("toRelease", Json.ofText r.toRelease)]
      else []) ++
    [("commits", .num r.commits), ("lockfileChanged", .bool r.lockfileChanged),
      ("installed", texts r.installed), ("depsVerified", orNull (r.depsVerified.map .bool)),
      ("restartNeeded", orNull (r.restartNeeded.map .bool))] ++
    (if r.layout.isSome then [("switched", .bool r.switched)] else []) ++
    [("restarted", .bool r.restarted), ("ready", orNull (r.ready.map .bool)),
      ("forced", .bool r.forced), ("result", orNull (r.result.map fun result => .str result.name))] ++
    present "protectedSessions" (r.protectedSessions.map sessionsJson) ++
    listed "removedUntracked" r.removedUntracked ++ listed "droppedFromIndex" r.droppedFromIndex ++
    flagged "checkoutMoved" r.checkoutMoved ++ listed "depsRepaired" r.depsRepaired ++
    flagged "built" r.built ++ present "preflight" (r.preflight.map preflightJson) ++
    present "unitsInstalled" (r.unitsInstalled.map texts) ++
    present "backup" (r.backup.map fun files => .arr (files.map Json.ofText)) ++
    listed "auxApplyPending" r.auxApplyPending ++ listed "auxRestarted" r.auxRestarted ++
    flagged "checkoutRestored" r.checkoutRestored ++
    present "prepared" (r.prepared.map .str) ++ flagged "removedPrepared" r.removedPrepared ++
    present "socketRebind" (r.socketRebind.map fun reason => .str (rebindName reason)) ++
    present "socketHeld" (r.socketHeld.map .bool) ++ present "pruned" (r.pruned.map texts) ++
    present "autoRollback" (r.autoRollback.map rollbackJson) ++
    present "error" (r.error.map .str) ++ present "finishedAt" (r.finishedAt.map .str))

/-- `append`. -/
def append (inv : Inventory) (r : Record) : Exec Unit :=
  Exec.appendFile (logPath inv r.service) (Json.stringify (recordJson r) ++ "\n")

/-- `list`: a line that does not parse is skipped. -/
def list (inv : Inventory) (id : String) : Exec (List Json) := do
  return (linesOf ((← Exec.readFile (logPath inv id)).getD "")).filterMap Json.parse

/-- A text field of a record; reading a field of `null` throws. -/
def textField (r : Json) (key : String) : Option String :=
  match r.field key with
  | some (.str text) => some text
  | _ => none

/-- `previousFor`, of the records newest first. -/
def previousFor : List Json → String → Except Failure (Option String)
  | [], _ => .ok none
  | .null :: _, _ => .error (.plain "Cannot read properties of null (reading 'result')")
  | r :: older, currentSha =>
    match textField r "result", textField r "to", textField r "from" with
    | some "deployed", some target, some source =>
      if target = currentSha ∧ source ≠ "" ∧ source ≠ currentSha then .ok (some source)
      else previousFor older currentSha
    | _, _, _ => previousFor older currentSha

end Releases

end OpenVibeHost
