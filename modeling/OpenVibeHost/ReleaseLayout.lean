import OpenVibeHost.ReleaseOps

/-! The release-layout strategy, `lib/release-layout.js`: a directory per release,
and a `current` link that a deploy or rollback switches from one to another. -/
namespace OpenVibeHost.ReleaseLayout
open Effects Program Releases ReleaseOps

def gitClone (svc : Service) (rel : ReleaseConfig) : Checkout := { dir := rel.git, owner := svc.owner }

def gitRelease (svc : Service) (dir : String) : Checkout :=
  { dir, owner := svc.owner, safeDirectory := true }

/-- A release's name: the commit, or the time with the commit's first eight digits. -/
def newReleaseId (ms : Nat) (sha : String) : ReleaseIdFormat → String
  | .sha12 => sha12 sha
  | .timeSha8 => Dates.stamp ms ++ "-" ++ String.ofList (sha.toList.take 8)

/-- The hexadecimal end of a name, `([0-9a-f]{8,40})$`. -/
def shaSuffix (name : String) : Option String :=
  let suffix := (name.toList.reverse.takeWhile Readiness.isHex).take 40
  if 8 ≤ suffix.length then some (String.ofList suffix.reverse) else none

/-- The sha a release directory holds: its worktree's HEAD, else the sha its name ends in. -/
def releaseSha (svc : Service) (rel : ReleaseConfig) (dir : String) : Exec (Option String) := do
  let h ← attempt (some <$> Git.getHead (gitRelease svc dir)) fun _ => pure none
  match h.filter (Readiness.hexName 40 40) with
  | some sha => return some sha
  | none =>
    match shaSuffix (baseName dir) with
    | none => return none
    | some short => attempt (some <$> Git.resolve (gitClone svc rel) short) fun _ => pure none

/-- `path.resolve` of an absolute directory and a link's target. -/
def resolvePath (dir target : String) : String :=
  let whole := if beginsWith target "/" then target else dir ++ "/" ++ target
  let parts := (whole.toList.splitOn '/').foldl
    (fun parts part =>
      if part = [] ∨ part = ['.'] then parts
      else if part = ['.', '.'] then parts.dropLast
      else parts ++ [part]) []
  String.ofList ('/' :: ['/'].intercalate parts)

structure Current where
  dir : String
  id : String
  sha : Option String

/-- Where `current` points now; none where that is no release, with the link's target. -/
def currentRelease (svc : Service) (rel : ReleaseConfig) :
    Exec (Except (Option String) Current) := do
  match ← Exec.readlink rel.current with
  | none | some "" => return .error none
  | some target =>
    let dir := resolvePath (dirName rel.current) target
    let inside := beginsWith dir (rel.releasesDir ++ "/") && decide (dirName dir = rel.releasesDir)
    let st ← Exec.stat dir
    if inside = false ∨ (st.map (·.isDir)).getD false = false then return .error (some target)
    else return .ok { dir, id := baseName dir, sha := ← releaseSha svc rel dir }

structure Listed where
  id : String
  dir : String
  mtime : Nat

/-- Newest first: time ids by name, the others by mtime and then by name. -/
def newerFirst (format : ReleaseIdFormat) (a b : Listed) : Bool :=
  match format with
  | .timeSha8 => decide (b.id ≤ a.id)
  | .sha12 => decide (b.mtime < a.mtime ∨ (a.mtime = b.mtime ∧ b.id ≤ a.id))

/-- Every release directory, newest first. -/
def listReleases (rel : ReleaseConfig) : Exec (List Listed) := do
  let entries := ((← Exec.readdir rel.releasesDir).getD []).filter fun e =>
    e.isDir && !beginsWith e.name "."
  let out ← fold entries [] fun out e => do
    let dir := joinPath rel.releasesDir e.name
    let st ← Exec.stat dir
    return out ++ [{ id := e.name, dir, mtime := (st.map (·.mtime)).getD 0 }]
  return out.insertionSort fun a b => newerFirst rel.id a b = true

/-- The first part of a path below `dir`. -/
def firstBelow (dir path : String) : Option String :=
  if beginsWith path (dir ++ "/") then
    some (String.ofList ((path.toList.drop (dir.length + 1)).takeWhile (· ≠ '/')))
  else none

/-- The instance of a unit, `@([^@]+)\.service$`. -/
def instanceOf (unit : String) : Option String :=
  if endsWith unit ".service" then
    match (Systemd.stem unit).toList.splitOn '@' with
    | _ :: rest@(_ :: _) => match rest.getLast? with
      | some (c :: name) => some (String.ofList (c :: name))
      | _ => none
    | _ => none
  else none

/-- The releases that the service's processes or a worker instance still run from. -/
def releasesInUse (svc : Service) (rel : ReleaseConfig) : Exec (List String) := do
  let mine ← fold svc.units [] fun used u => do
    let pid ← attempt (do return (← Systemd.showUnit u).mainPid) fun _ => pure 0
    if pid = 0 then return used
    else
      let cwd ← Exec.readlink ("/proc/" ++ toString pid ++ "/cwd")
      return used ++ ((cwd.bind (firstBelow rel.releasesDir)).filter (· ≠ "")).toList
  fold (svc.workerUnits.filter (endsWith · "@.service")) mine fun used w => do
    let list ← attempt (Systemd.instances w) fun _ => pure []
    let live := list.filter fun i => ¬ (i.active ∈ ["inactive", "dead"] ∧ i.sub = "dead")
    return used ++ live.filterMap fun i => instanceOf i.unit

structure Target where
  id : String
  dir : String
  sha : Option String

/-- The first release whose sha starts with `short`. -/
def findBySha (svc : Service) (rel : ReleaseConfig) (short : String) (list : List Listed) :
    Exec (Option Target) :=
  firstOf list fun r => do
    match ← releaseSha svc rel r.dir with
    | some sha =>
      if sha ≠ "" ∧ beginsWith sha short then return some { id := r.id, dir := r.dir, sha := some sha }
      else return none
    | none => return none

/-- The release that the log says `id` replaced and that is still there, of the
records newest first. -/
def replacedBy (id : String) (list : List Listed) : List Json → Except Failure (Option Listed)
  | [] => .ok none
  | .null :: _ => .error (.plain "Cannot read properties of null (reading 'result')")
  | r :: older =>
    match textField r "result", textField r "toRelease", textField r "fromRelease" with
    | some "deployed", some toRelease, some fromRelease =>
      if toRelease = id ∧ fromRelease ≠ "" ∧ fromRelease ≠ id then
        match list.find? (·.id = fromRelease) with
        | some hit => .ok (some hit)
        | none => replacedBy id list older
      else replacedBy id list older
    | _, _, _ => replacedBy id list older

/-- The release a rollback returns to. -/
def rollbackTarget (inv : Inventory) (svc : Service) (rel : ReleaseConfig) (cur : Current)
    (target : Option String) : Exec Target := do
  let list ← listReleases rel
  let withSha (r : Listed) : Exec Target := do
    return { id := r.id, dir := r.dir, sha := ← releaseSha svc rel r.dir }
  match target with
  | some name =>
    if refName ['.', '_', '-'] 99 name = false then
      throw (opError ("\"" ++ name ++ "\" is not a release id or sha") .usage)
    else
      match list.find? (·.id = name) with
      | some hit => withSha hit
      | none =>
        let hit ← (if Readiness.hexName 7 40 name then findBySha svc rel name list else pure none :
          Exec (Option Target))
        match hit with
        | some hit => return hit
        | none => throw (opError ("no release " ++ name ++ " in " ++ rel.releasesDir) .usage)
  | none =>
    let records ← Releases.list inv svc.id
    match ← orThrow (replacedBy cur.id list records.reverse) with
    | some hit => withSha hit
    | none =>
      match list.find? (·.id ≠ cur.id) with
      | some other => withSha other
      | none => throw (opError ("no previous release to roll back to in " ++ rel.releasesDir) .usage)

/-! ### Plan -/

/-- An install of a release, or the release whose modules it takes. -/
structure LayoutPlan where
  fromSha : String
  toSha : String
  fromRelease : String
  toRelease : String
  currentDir : String
  targetDir : String
  reuse : Bool
  upToDate : Bool
  commits : List String := []
  changed : List String := []
  lockfileChanged : Bool := false
  installs : List InstallStep := []
  restartNeeded : Bool := false
  unitDrift : List Drift := []
  backupNeeded : Bool := false

/-- Which release the plan is for: its commit, directory and id, and whether it is one
prepared earlier. -/
def planRelease (inv : Inventory) (svc : Service) (rel : ReleaseConfig) (cur : Current)
    (mode : Mode) (opts : Options) : Exec (String × String × String × Bool) :=
  match mode with
  | .deploy => do
    let g := gitClone svc rel
    whenever opts.fetch (Git.fetchRemote g svc)
    let target ← Git.resolve g (opts.target.getD (svc.remote ++ "/" ++ svc.branch))
    let targetId := newReleaseId (← now) target rel.id
    let dir := joinPath rel.releasesDir targetId
    let reuse ← (if rel.id = .sha12 ∧ targetId ≠ cur.id then do return (← Exec.stat dir).isSome
      else pure false : Exec Bool)
    return (target, dir, targetId, reuse)
  | .rollback => do
    let t ← rollbackTarget inv svc rel cur opts.target
    match t.sha with
    | none | some "" => throw (opError ("cannot tell which commit " ++ t.dir ++ " holds") .usage)
    | some target => return (target, t.dir, t.id, false)

def planSteps (svc : Service) (rel : ReleaseConfig) (cur : Current) (fromSha toSha : String)
    (own : Bool) : Exec (List InstallStep) := do
  let found ← Deps.expandPackages svc cur.dir
  fold (if found = [] then ["."] else found) [] fun steps pkg => do
    if own then return steps ++ [{ pkg := pkg }]
    else
      let need ← (if fromSha = toSha then pure {}
        else Deps.needsInstall (gitClone svc rel) fromSha toSha pkg svc.install.lockfile :
        Exec Deps.Need)
      let modules ← hasModules cur.dir pkg
      return steps ++ [{ pkg, need, missingNodeModules := !modules
                         install := need.needed || !rel.reuseModules || !modules }]

def socketPort (svc : Service) (rel : ReleaseConfig) : Option Nat := rel.socketPort.or svc.port

/-- Whether systemd holds the listener of the socket unit. -/
def planSocket (svc : Service) (rel : ReleaseConfig) : Exec (Option Systemd.SocketHold) :=
  match svc.socketUnit, socketPort svc rel with
  | some _, some port => some <$> Systemd.socketHeld port
  | _, _ => pure none

/-- `computePlan`. -/
def computePlan (inv : Inventory) (svc : Service) (rel : ReleaseConfig) (mode : Mode)
    (opts : Options) : Exec LayoutPlan := do
  let target := opts.target.getD ""
  if mode = .deploy ∧ opts.target.isSome ∧ isRef target = false then
    throw (opError ("\"" ++ target ++ "\" is not a sha or ref name") .usage)
  else
    match ← currentRelease svc rel with
    | .error link =>
      throw (opError (rel.current ++ " is not a link to a release in " ++ rel.releasesDir ++
        (match link with
          | some target => " (it points at " ++ target ++ ")"
          | none => "") ++
        "; set up the release layout first (Live: deploy/scripts/migrate-to-releases.sh)") .usage)
    | .ok cur =>
      match cur.sha with
      | none | some "" => throw (opError ("cannot tell which commit " ++ cur.dir ++ " holds") .usage)
      | some fromSha =>
        if (← Exec.stat rel.git).isNone then
          throw (opError (rel.git ++ " (release.git) does not exist") .usage)
        else
          let g := gitClone svc rel
          let (toSha, targetDir, toRelease, reuse) ← planRelease inv svc rel cur mode opts
          let same := decide (toSha = fromSha)
          let changed ← (if same then pure [] else Git.changedBetween g fromSha toSha :
            Exec (List String))
          let commits ← planCommits g mode fromSha toSha
          let codeChanged := changed.filter fun f => !matchesPath f svc.noRestartPaths
          let unitDrift ← findDrift svc g toSha
          let restartNeeded := decide (svc.units ≠ []) &&
            (opts.restart || decide (codeChanged ≠ []) || decide (unitDrift ≠ []))
          let installs ← planSteps svc rel cur fromSha toSha (decide (mode = .rollback) || reuse)
          let _ ← planSessions svc restartNeeded
          let _ ← planSocket svc rel
          return {
            fromSha, toSha, fromRelease := cur.id, toRelease, currentDir := cur.dir, targetDir, reuse
            upToDate := match mode with
              | .deploy => same
              | .rollback => decide (toRelease = cur.id)
            commits, changed, lockfileChanged := installs.any (·.need.lockfileChanged), installs
            restartNeeded, unitDrift
            backupNeeded := decide (svc.databases ≠ []) && changed.any (svc.backupOnChange.contains ·) }

/-! ### Steps -/

def temporaryLink (rel : ReleaseConfig) : String :=
  joinPath (dirName rel.current) ("." ++ baseName rel.current ++ ".tmp")

/-- Point `current` at `dir`: a new link beside the old one, renamed over it. -/
def switchCurrent (rel : ReleaseConfig) (dir : String) : Exec Unit := do
  let tmp := temporaryLink rel
  Exec.removeFile tmp true
  Exec.symlink dir tmp true
  let r ← Exec.run "mv" ["-T", "-f", tmp, rel.current] { privileged := true }
  if r.code ≠ 0 then
    throw (.plain ("could not switch " ++ rel.current ++ " to " ++ dir ++ ": " ++ trimText r.stderr))

structure UnitsChanged where
  changed : List String := []
  socketChanged : Bool := false

/-- One unit file of a release, installed where it differs. -/
def installReleaseUnit (svc : Service) (dir : String) (done : UnitsChanged)
    (entry : String × String) : Exec UnitsChanged := do
  let (unit, source) := entry
  let file := joinPath dir source
  match ← Exec.readFile file with
  | none => return done
  | some want =>
    let dest := joinPath "/etc/systemd/system" unit
    let installed ← Exec.readFile dest true
    if installed = some want then return done
    else
      let r ← Exec.run "install" ["-m", "0644", "-D", file, dest] { privileged := true }
      if r.code ≠ 0 then
        throw (.plain ("could not install " ++ dest ++ ": " ++ trimText r.stderr))
      else return {
        changed := done.changed ++ [unit]
        socketChanged := done.socketChanged || (decide (svc.socketUnit = some unit) && installed.isSome) }

/-- Install the unit files a release carries. -/
def installReleaseUnits (svc : Service) (dir : String) : Exec UnitsChanged := do
  let done ← fold svc.unitSources {} (installReleaseUnit svc dir)
  whenever (done.changed ≠ []) do
    Systemd.daemonReload
    forEach (svc.socketUnit.toList ++ svc.units) fun u => do
      let _ ← Systemd.enable u
  return done

structure Restarted where
  ready : Readiness.Waited
  rebind : Option Systemd.RebindReason := none
  socketHeld : Option Bool := none

/-- Why the socket must be bound again, once it is known to be active. -/
def rebindReason (svc : Service) (rel : ReleaseConfig) (socketChanged : Bool) :
    Exec (Option Systemd.RebindReason) :=
  match svc.socketUnit with
  | none => pure none
  | some socketUnit => do
    Systemd.ensureSocketActive socketUnit
    let held ← (match socketPort svc rel with
      | some port => do return (← Systemd.socketHeld port).held
      | none => pure true : Exec Bool)
    return if socketChanged then some .socketChanged
      else if held = false then some .socketNotHeld else none

/-- Binds the socket again and starts the first unit on it; the units that are left. -/
def rebindFirst (svc : Service) (rebind : Option Systemd.RebindReason) : Exec (List String) :=
  match rebind, svc.socketUnit with
  | some _, some socketUnit =>
    match svc.units with
    | first :: rest => do
      Systemd.rebindSocket first socketUnit
      return rest
    | [] => throw (.plain "Cannot read properties of undefined (reading 'endsWith')")
  | _, _ => pure svc.units

/-- Restart the units (rebinding the socket only when it must) and wait for readiness. -/
def restartRelease (svc : Service) (rel : ReleaseConfig) (opts : Options) (socketChanged : Bool)
    (expectSha : String) : Exec Restarted := do
  let rebind ← rebindReason svc rel socketChanged
  let units ← rebindFirst svc rebind
  forEach units Systemd.restart
  let ready ← Readiness.waitReady svc opts.readyTimeout (some expectSha) svc.units
  match svc.socketUnit, socketPort svc rel with
  | some _, some port =>
    if ready.ok then
      let held ← Systemd.socketHeld port
      return { ready, rebind, socketHeld := some held.held }
    else return { ready, rebind }
  | _, _ => return { ready, rebind }

/-- Remove releases beyond `keep`: never the current one, one of `keepIds`, or one that
still runs. -/
def prune (svc : Service) (rel : ReleaseConfig) (keepIds : List String) : Exec (List String) := do
  let list ← listReleases rel
  let cur ← currentRelease svc rel
  let curId := match cur with
    | .ok cur => some cur.id
    | .error _ => none
  let inUse ← releasesInUse svc rel
  let g := gitClone svc rel
  let removed ← fold (list.drop rel.keep) [] fun removed r => do
    if some r.id = curId ∨ r.id ∈ keepIds ∨ r.id ∈ inUse then return removed
    else
      let gone ← Git.removeWorktree g r.dir
      whenever (gone = false) do
        let _ ← Exec.run "rm" ["-rf", "--", r.dir] { privileged := true }
      return removed ++ [r.id]
  let _ ← Git.tryRun g .worktreePrune
  return removed

/-- The links made in a new release. -/
def makeLinks (rel : ReleaseConfig) (dir : String) : Exec Unit :=
  forEach rel.links fun (name, target) => do
    let place := joinPath dir name
    let link ← Exec.readlink place
    if link ≠ none ∧ link ≠ some "" then pure ()
    else
      let there ← Exec.stat place
      whenever there.isSome do
        let _ ← Exec.run "rm" ["-rf", "--", place] { privileged := true }
      Exec.symlink target place true

/-- The dependencies of a new release: installed, or the current ones hard-linked. -/
def takeModules (svc : Service) (plan : LayoutPlan) : Ops Unit :=
  forEach plan.installs fun i => do
    let dir := plan.targetDir
    if i.install then
      Deps.install svc (gitRelease svc dir) dir false i.pkg
      setRecord fun r => { r with installed := r.installed ++ [i.pkg] }
    else
      let r ← Exec.run "cp" ["-al", joinPath (joinPath plan.currentDir i.pkg) "node_modules",
        joinPath (joinPath dir i.pkg) "node_modules"] { asUser := some svc.owner }
      if r.code ≠ 0 then throw (.plain ("cp -al node_modules failed: " ++ trimText r.stderr))

/-- The worktree of a new release, with its links and modules. -/
def makeRelease (svc : Service) (rel : ReleaseConfig) (plan : LayoutPlan) : Ops Unit := do
  Exec.mkdir rel.releasesDir
  let _ ← Git.mustRun (gitClone svc rel) (.worktreeAdd plan.targetDir plan.toSha)
  setRecord fun r => { r with prepared := some plan.toRelease }
  makeLinks rel plan.targetDir
  takeModules svc plan

/-- Make the new release: worktree, links, node_modules, dependencies, preflight, owner. -/
def prepare (svc : Service) (rel : ReleaseConfig) (plan : LayoutPlan) : Ops Unit := do
  let dir := plan.targetDir
  whenever (plan.reuse = false) (makeRelease svc rel plan)
  let pkgDirs ← Deps.expandPackages svc dir
  let v ← Deps.verifyAndRepair svc (gitRelease svc dir) dir false pkgDirs
  setRecord fun r => { r with depsVerified := some (decide (v.problems = [])), depsRepaired := v.repaired }
  if v.problems ≠ [] then
    throw (opError ("dependencies do not resolve: " ++ "; ".intercalate (v.problems.map fun p =>
      p.pkg ++ ": " ++ p.dep.getD "undefined" ++ " (" ++ p.reason ++ ")")) .validation)
  else
    let pf ← PreflightChecks.run svc dir plan.changed pkgDirs
    if pf.problems ≠ [] then
      setRecord fun r => { r with preflight := some pf }
      throw (opError ("preflight failed: " ++ "; ".intercalate pf.problems) .validation)
    else
      whenever (svc.preflight.checks ≠ [] ∨ svc.preflight.syntaxCheck = true)
        (setRecord fun r => { r with preflight := some pf })
      match rel.chown with
      | none => pure ()
      | some owner =>
        let r ← Exec.run "chown" ["-R", owner, dir] { privileged := true }
        if r.code ≠ 0 then
          throw (.plain ("chown -R " ++ owner ++ " " ++ dir ++ " failed: " ++ trimText r.stderr))

/-! ### Apply -/

def removePrepared (svc : Service) (rel : ReleaseConfig) (dir : String) : Ops Unit := do
  let _ ← Git.removeWorktree (gitClone svc rel) dir
  setRecord fun r => { r with removedPrepared := true }

/-- A new release that could not be prepared is removed. -/
def undoPrepare (svc : Service) (rel : ReleaseConfig) (plan : LayoutPlan) (err : Failure) :
    Ops Unit := do
  let prepared := (← own).record.prepared
  whenever prepared.isSome (removePrepared svc rel plan.targetDir)
  let message := err.message ++ " (release " ++ plan.toRelease ++
    (if prepared.isSome then " removed; " else " not made; ") ++ plan.fromRelease ++
    " untouched; nothing restarted)"
  match err with
  | .op _ exitCode _ => throw (.op message exitCode none)
  | _ => throw (opError message .validation)

/-- Sessions first, then the backup, then the sessions again. -/
def guardRestart (inv : Inventory) (svc : Service) (opts : Options) (plan : LayoutPlan) :
    Ops Unit := do
  guardSessions inv svc opts "before the switch"
  whenever plan.backupNeeded do
    backupBeforeRestart inv svc
    guardSessions inv svc opts "immediately before the restart"

/-- Refused or given up: the new release is removed again. -/
def undoGuard (svc : Service) (rel : ReleaseConfig) (plan : LayoutPlan) (dir : String)
    (err : Failure) : Ops Unit := do
  let prepared := (← own).record.prepared
  if prepared.isSome then
    removePrepared svc rel dir
    match err with
    | .op message exitCode result =>
      throw (.op (message ++ " (release " ++ plan.toRelease ++ " removed; " ++ plan.fromRelease ++
        " keeps serving)") exitCode result)
    | other => throw other
  else throw err

def switchTo (rel : ReleaseConfig) (plan : LayoutPlan) (dir : String) : Ops Unit :=
  if dir = plan.currentDir then pure ()
  else do
    switchCurrent rel dir
    setRecord fun r => { r with switched := true }

def recordPrune (svc : Service) (rel : ReleaseConfig) (mode : Mode) (plan : LayoutPlan) :
    Ops Unit :=
  match mode with
  | .rollback => pure ()
  | .deploy => do
    let pruned ← prune svc rel [plan.fromRelease]
    setRecord fun r => { r with pruned := some pruned }

/-- What the ready URL answers a while after a switch. -/
def settle (svc : Service) (rel : ReleaseConfig) : Ops (Option Bool) :=
  if svc.ready.isSome then do
    Exec.sleep (rel.settleSeconds * 1000)
    let p ← Readiness.probe svc
    setRecord fun r => { r with ready := p.ok }
    return p.ok
  else pure (some true)

/-- A change that needs no restart: switch, settle, and switch back where the ready URL
does not answer. -/
def switchOnly (svc : Service) (rel : ReleaseConfig) (mode : Mode) (plan : LayoutPlan)
    (dir : String) : Ops Applied := do
  switchTo rel plan dir
  let p ← settle svc rel
  if p ≠ some true then
    switchCurrent rel plan.currentDir
    let back ← Readiness.probe svc
    setRecord fun r => { r with
      autoRollback := some { back := plan.fromRelease, ready := back.ok }
      result := some .failedRolledBack }
    return { exitCode := Exit.rolledBack.code }
  else
    setResult (doneResult mode)
    recordPrune svc rel mode plan
    return { exitCode := Exit.ok.code }

/-- Not ready: back to the release we left. -/
def rollBack (svc : Service) (rel : ReleaseConfig) (opts : Options) (plan : LayoutPlan) :
    Ops Applied := do
  setRecord fun r => { r with autoRollback := some { back := plan.fromRelease } }
  attempt
    (do
      let switched := (← own).record.switched
      whenever switched (switchCurrent rel plan.currentDir)
      let back ← installReleaseUnits svc plan.currentDir
      let b ← restartRelease svc rel opts back.socketChanged plan.fromSha
      setRecord fun r => { r with
        autoRollback := some { back := plan.fromRelease, ready := some b.ready.ok } }
      if b.ready.ok then
        setResult .failedRolledBack
        return { exitCode := Exit.rolledBack.code }
      else
        setResult .rollbackFailed
        return { exitCode := Exit.rollbackFailed.code })
    fun err => do
      setRecord fun r => { r with result := some .rollbackFailed, error := some err.message }
      return { exitCode := Exit.rollbackFailed.code }

/-- The switch with a restart, and the way back where the service does not get ready. -/
def switchAndRestart (svc : Service) (rel : ReleaseConfig) (mode : Mode) (opts : Options)
    (plan : LayoutPlan) (dir : String) : Ops Applied := do
  switchTo rel plan dir
  let u ← installReleaseUnits svc dir
  setRecord fun r => { r with unitsInstalled := some u.changed }
  let r ← restartRelease svc rel opts u.socketChanged plan.toSha
  setRecord fun record => { record with
    restarted := true, ready := some r.ready.ok, socketRebind := r.rebind, socketHeld := r.socketHeld }
  if r.ready.ok then
    setResult (doneResult mode)
    recordPrune svc rel mode plan
    return { exitCode := Exit.ok.code }
  else rollBack svc rel opts plan

/-- The release itself, once there is one to make. -/
def release (inv : Inventory) (svc : Service) (rel : ReleaseConfig) (mode : Mode) (opts : Options)
    (plan : LayoutPlan) : Ops Applied := do
  whenever (mode = .deploy ∧ plan.upToDate = false)
    (attempt (prepare svc rel plan) (undoPrepare svc rel plan))
  let dir := if plan.upToDate then plan.currentDir else plan.targetDir
  if opts.prepareOnly then
    setResult .prepared
    return { exitCode := Exit.ok.code }
  else if plan.restartNeeded = false then switchOnly svc rel mode plan dir
  else
    attempt (guardRestart inv svc opts plan) (undoGuard svc rel plan dir)
    switchAndRestart svc rel mode opts plan dir

/-- The run under the lock of the service. -/
def applyLocked (inv : Inventory) (svc : Service) (rel : ReleaseConfig) (mode : Mode)
    (opts : Options) : Ops Applied := do
  Locks.acquireHost inv svc
  update fun s => { s with hostLock := true }
  let plan ← computePlan inv svc rel mode opts
  setRecord fun r => { r with
    fromSha := some plan.fromSha, toSha := some plan.toSha, fromRelease := some plan.fromRelease
    toRelease := some plan.toRelease, commits := plan.commits.length
    lockfileChanged := plan.lockfileChanged, restartNeeded := some plan.restartNeeded }
  if plan.upToDate ∧ opts.restart = false then
    setResult .unchanged
    update fun s => { s with writeRecord := false }
    return { exitCode := Exit.ok.code }
  else release inv svc rel mode opts plan

/-- `apply` of the release-layout strategy. -/
def apply (inv : Inventory) (pid : Nat) (svc : Service) (rel : ReleaseConfig) (mode : Mode)
    (opts : Options) : Ops Applied := do
  if svc.managed = false then throw (unmanaged svc)
  else
    Locks.acquire inv svc.id pid
    startRecord svc mode (some "release")
    ensure (attempt (applyLocked inv svc rel mode opts) recordFailure) (finish inv svc)

end OpenVibeHost.ReleaseLayout
