import OpenVibeHost.Inventory

/-! The git adapter, `lib/git.js`, and the systemd adapter, `lib/systemd.js`. -/
namespace OpenVibeHost
open Effects Program

/-- A checkout that git works on: `git(exec, svc, { dir, safeDirectory })`. -/
structure Checkout where
  dir : String
  owner : String
  safeDirectory : Bool := false

def Service.checkout (svc : Service) : Checkout := { dir := svc.repo, owner := svc.owner }

namespace Git

/-- A git command, whatever it answers. -/
def tryRun (g : Checkout) (command : Git) : Exec RunResult :=
  ask (S := Machine) (.git g.dir g.safeDirectory g.owner command) fun answer => answer

/-- A git command that throws when it fails. -/
def mustRun (g : Checkout) (command : Git) : Exec RunResult := do
  let r ← tryRun g command
  if r.code ≠ 0 then
    throw (.plain ("git " ++ " ".intercalate command.args ++ " failed: " ++
      trimText (if r.stderr ≠ "" then r.stderr else r.stdout)))
  else pure r

def getHead (g : Checkout) : Exec String := do return trimText (← mustRun g .head).stdout

def getBranch (g : Checkout) : Exec String := do return trimText (← mustRun g .branch).stdout

def resolve (g : Checkout) (ref : String) : Exec String := do
  return trimText (← mustRun g (.revParse ref)).stdout

def hasCommitIn (g : Checkout) (sha : String) : Exec Bool := do
  return (← tryRun g (.hasCommit sha)).code = 0

/-- Tracked changes only; untracked files never block a deploy. -/
def dirtyFiles (g : Checkout) : Exec (List String) := do
  return (linesOf (← mustRun g .dirty).stdout).map fun line => String.ofList (line.toList.drop 3)

def skipWorktreeFiles (g : Checkout) : Exec (List String) := do
  return ((linesOf (← mustRun g .skipWorktree).stdout).filter (beginsWith · "S ")).map
    fun line => String.ofList (line.toList.drop 2)

def fetchRemote (g : Checkout) (svc : Service) : Exec Unit := do
  let _ ← mustRun g (.fetch svc.remote svc.branch)

def changedBetween (g : Checkout) (source target : String) : Exec (List String) := do
  return linesOf (← mustRun g (.changedFiles source target)).stdout

def addedBetween (g : Checkout) (source target : String) : Exec (List String) := do
  return linesOf (← mustRun g (.addedFiles source target)).stdout

def commitsBetween (g : Checkout) (source target : String) : Exec (List String) := do
  return linesOf (← tryRun g (.log source target)).stdout

/-- A file at a commit, or none. -/
def showFile (g : Checkout) (sha file : String) : Exec (Option String) := do
  let r ← tryRun g (.show sha file)
  return if r.code = 0 then some r.stdout else none

/-- Restores tracked files from HEAD, two hundred at a time; `fuel` is their number. -/
def checkoutPaths (g : Checkout) (files : List String) : Exec Unit :=
  go files.length files
where
  go : Nat → List String → Exec Unit
    | 0, _ => pure ()
    | _, [] => pure ()
    | fuel + 1, files => do
      let _ ← mustRun g (.checkout (files.take 200))
      go fuel (files.drop 200)

def removeWorktree (g : Checkout) (dir : String) : Exec Bool := do
  return (← tryRun g (.worktreeRemove dir)).code = 0

/-- The remote's URL, without credentials. -/
def getRemoteUrl (g : Checkout) (svc : Service) : Exec String := do
  return redactUrl (trimText (← tryRun g (.remoteUrl svc.remote)).stdout)
where
  redactUrl (url : String) : String :=
    match url.toList.splitOn '@' with
    | before :: rest =>
      match before.splitOn '/' with
      | [scheme, [], _] =>
        if rest.isEmpty then url
        else String.ofList (scheme ++ ['/', '/'] ++ ['@'].intercalate rest)
      | _ => url
    | [] => url

end Git

/-! ### systemd -/

namespace Systemd

/-- `SOCKET_SAFE_ACTIONS`, of the actions there are. -/
def socketSafe : Action → Bool
  | .show | .start | .enable | .listUnits | .listUnitFiles => true
  | .stop | .restart | .reload | .daemonReload => false

/-- `ALLOWED_ACTIONS`. -/
def allowed (action : Action) : Bool := action ≠ .stop

def actionName : Action → String
  | .show => "show"
  | .start => "start"
  | .stop => "stop"
  | .restart => "restart"
  | .reload => "reload"
  | .enable => "enable"
  | .daemonReload => "daemon-reload"
  | .listUnits => "list-units"
  | .listUnitFiles => "list-unit-files"

/-- Every systemctl call but those of `rebindSocket`; it never stops a socket unit. -/
def systemctl (action : Action) (unit : Option String) : Exec RunResult :=
  if allowed action = false then
    throw (.plain ("ovhost does not run \"systemctl " ++ actionName action ++ "\""))
  else
    match unit with
    | some name =>
      if endsWith name ".socket" ∧ socketSafe action = false then
        throw (.socketGuard ("refusing \"systemctl " ++ actionName action ++ " " ++ name ++
          "\": socket units are never stopped or restarted"))
      else ask (S := Machine) (.systemctl action (some name)) fun answer => answer
    | none => ask (S := Machine) (.systemctl action none) fun answer => answer

structure UnitState where
  unit : String
  active : String
  sub : String
  mainPid : Nat
  type : String
  deriving DecidableEq, Repr

/-- A property of `systemctl show`, `NAME=value` on a line; the last one counts. -/
def property (stdout name : String) : Option String :=
  ((linesOf stdout).reverse.find? (beginsWith · (name ++ "="))).map
    fun line => String.ofList (line.toList.drop (name.length + 1))

def orUnknown (value : Option String) : String :=
  match value with
  | some "" | none => "unknown"
  | some text => text

def showUnit (unit : String) : Exec UnitState := do
  let r ← systemctl .show (some unit)
  return {
    unit
    active := orUnknown (property r.stdout "ActiveState")
    sub := orUnknown (property r.stdout "SubState")
    mainPid := ((property r.stdout "MainPID").bind (·.toNat?)).getD 0
    type := (property r.stdout "Type").getD "" }

def showUnits (units : List String) : Exec (List UnitState) :=
  fold units [] fun shown unit => do return shown ++ [← showUnit unit]

/-- Throws when systemctl refuses; `what` is what the message says was refused. -/
def must (what : String) (r : RunResult) : Exec Unit :=
  if r.code ≠ 0 then throw (.plain ("systemctl " ++ what ++ " failed: " ++ trimText r.stderr))
  else pure ()

def restart (unit : String) : Exec Unit := do
  must ("restart " ++ unit) (← systemctl .restart (some unit))

/-- A socket unit that is not listening gets started, never restarted. -/
def ensureSocketActive (socketUnit : String) : Exec Unit := do
  let state ← showUnit socketUnit
  if state.active = "active" then pure ()
  else must ("start " ++ socketUnit) (← systemctl .start (some socketUnit))

def daemonReload : Exec Unit := do must "daemon-reload" (← systemctl .daemonReload none)

def reloadNginx : Exec Unit := do must "reload nginx" (← systemctl .reload (some "nginx.service"))

def enable (unit : String) : Exec Bool := do
  return (← systemctl .enable (some unit)).code = 0

/-- The words of a line. -/
def words (line : String) : List String :=
  (line.toList.splitOnP Json.blank).filter (· ≠ []) |>.map String.ofList

/-- Unit files matching a glob. -/
def listUnitFiles (pattern : String) : Exec (List String) := do
  let r ← systemctl .listUnitFiles (some pattern)
  if r.code ≠ 0 ∧ trimText r.stdout ≠ "" then
    throw (.plain ("systemctl list-unit-files " ++ pattern ++ " failed: " ++ trimText r.stderr))
  else
    return (linesOf r.stdout).filterMap fun line =>
      match words line with
      | unit :: _ =>
        if endsWith unit ".service" ∧ ¬ endsWith unit "@.service" then some unit else none
      | [] => none

structure Instance where
  unit : String
  active : String
  sub : String
  deriving DecidableEq, Repr

/-- The part of a unit's name before `.service`. -/
def stem (unit : String) : String :=
  String.ofList (unit.toList.take (unit.length - ".service".length))

/-- Loaded instances of a worker unit. -/
def instances (workerUnit : String) : Exec (List Instance) := do
  let pattern := if endsWith workerUnit "@.service" then stem workerUnit ++ "*.service" else workerUnit
  let r ← systemctl .listUnits (some pattern)
  if r.code ≠ 0 then
    throw (.plain ("systemctl list-units " ++ pattern ++ " failed: " ++ trimText r.stderr))
  else
    return (linesOf r.stdout).filterMap fun line =>
      match words line with
      | unit :: rest =>
        if endsWith unit ".service" then
          some { unit, active := rest.getD 1 "", sub := rest.getD 2 "" }
        else none
      | [] => none

structure SocketHold where
  held : Bool
  holders : List Listener
  deriving DecidableEq, Repr

/-- Whether pid 1 holds the listener on `port`. -/
def socketHeld (port : Nat) : Exec SocketHold := do
  let holders ← Exec.listeners port
  return { holders, held := holders.any fun h =>
    h.pid = some 1 && (h.process = none || h.process = some "" || h.process = some "systemd") }

inductive RebindReason where
  | socketChanged
  | socketNotHeld
  deriving DecidableEq, Repr

/-- The one sequence that stops a service and restarts its socket unit. -/
def rebindSocket (serviceUnit socketUnit : String) : Exec Unit := do
  if ¬ endsWith serviceUnit ".service" ∨ ¬ endsWith socketUnit ".socket" then
    throw (.socketGuard ("rebind needs a .service and a .socket unit (got " ++ serviceUnit ++
      ", " ++ socketUnit ++ ")"))
  else
    let _ ← ask (S := Machine) (.systemctl .stop (some serviceUnit)) fun answer => answer
    let _ ← ask (S := Machine) (.systemctl .restart (some socketUnit)) fun answer => answer
    let start ← ask (S := Machine) (.systemctl .start (some serviceUnit)) fun answer => answer
    must ("start " ++ serviceUnit) start

end Systemd

end OpenVibeHost
