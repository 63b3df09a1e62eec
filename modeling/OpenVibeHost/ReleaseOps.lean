import OpenVibeHost.Backup
import OpenVibeHost.ReleasePlan

/-! Deploys and rollbacks in place, `lib/release-ops.js`: the session guard, the
steps of a release, and `apply`, which moves the checkout, restarts the units and
takes both back when the service does not get ready. -/
namespace OpenVibeHost.ReleaseOps
open Effects Program Releases

/-! ### Protected sessions -/

/-- Release the host lock only while the protected-session poll waits, then take it
back. -/
def waitOutsideLock (inv : Inventory) (svc : Service) (work : Ops Unit) : Ops Unit := do
  Locks.releaseHost
  update fun s => { s with hostLock := false }
  ensure work do
    Locks.acquireHost inv svc
    update fun s => { s with hostLock := true }

def describe (sessions : Probes.Sessions) : String :=
  match sessions.count with
  | .ok n => toString n ++ " " ++ sessions.label
  | .error unknown => sessions.label ++ ": unknown (" ++ unknown ++ ") — treated as active"

def setSessions (f : SessionsRecord → SessionsRecord) : Ops Unit :=
  setRecord fun r => { r with protectedSessions := r.protectedSessions.map f }

/-- One turn of the wait for idle sessions: the idle checks in a row, and the last one. -/
def pollTurn (svc : Service) (start : Nat) (carried : Nat × Probes.Sessions) :
    Ops (Nat × Probes.Sessions ⊕ Unit) := do
  Exec.sleep svc.drain.pollMs
  let last ← Probes.countProtected svc
  let quiet := if last.idle then carried.1 + 1 else 0
  if svc.drain.enough quiet then
    let t ← now
    setSessions fun s => { s with waitedSeconds := some ((t - start + 500) / 1000), count := some 0 }
    return .inr ()
  else return .inl (quiet, last)

def poll (svc : Service) (start : Nat) (first : Probes.Sessions) : Ops Unit := do
  match ← whileWithin start svc.drain.waitMaxMs (pollTurn svc start) (0, first) with
  | .inr () => pure ()
  | .inl (_, last) =>
    throw (opError (describe last ++ " after waiting " ++ svc.drain.waitMaxSeconds.shown ++
      "s — gave up; nothing was restarted") .protected' (some .gaveUpWaiting))

/-- The protected sessions are idle, dropped by `--force`, or waited for; else it throws. -/
def guardSessions (inv : Inventory) (svc : Service) (opts : Options) (checkedWhen : String) :
    Ops Unit := do
  let first ← Probes.countProtected svc
  setRecord fun r => { r with protectedSessions := some {
    count := match first.count with
      | .ok n => some n
      | .error _ => none
    label := first.label
    unknown := match first.count with
      | .ok _ => none
      | .error unknown => some unknown
    checkedWhen } }
  let known := match first.count with
    | .ok _ => true
    | .error _ => false
  if first.idle then pure ()
  else if opts.force then setRecord fun r => { r with forced := true }
  else if svc.drain.policy = .report ∧ known = true ∧ opts.waitIdle = false then pure ()
  else if opts.waitIdle = false ∧ svc.drain.policy ≠ .wait then
    throw (opError (describe first ++ " — refusing to restart " ++ ", ".intercalate svc.units ++ " (" ++
      checkedWhen ++ "). Re-run with --wait-idle to hold until idle, or --force to drop them.")
      .protected' (some .refused))
  else
    let start ← now
    waitOutsideLock inv svc (poll svc start first)

/-! ### Helpers -/

def installAll (svc : Service) (installs : List InstallStep) : Ops Unit :=
  forEach installs fun i =>
    if i.install then do
      Deps.install svc svc.checkout svc.repo svc.install.restoreLockfile i.pkg
      setRecord fun r => { r with installed := r.installed ++ [i.pkg] }
    else pure ()

structure VerifiedDeps where
  pkgDirs : List String
  problems : List Deps.Problem
  repaired : List String

def verifyDeps (svc : Service) : Exec VerifiedDeps := do
  let pkgDirs ← Deps.expandPackages svc svc.repo
  let v ← Deps.verifyAndRepair svc svc.checkout svc.repo svc.install.restoreLockfile pkgDirs
  return { pkgDirs, problems := v.problems, repaired := v.repaired }

def runBuild (svc : Service) : Exec Unit :=
  forEach svc.build fun (cmd, arguments) => do
    let r ← Exec.run cmd arguments { asUser := some svc.owner, cwd := some svc.repo }
    if r.code ≠ 0 then
      throw (.plain ("build step \"" ++ " ".intercalate (cmd :: arguments) ++ "\" failed: " ++
        Deps.failureText r))
    else pure ()

def installRepoVhosts (inv : Inventory) (svc : Service) : Exec Unit :=
  match svc.nginx with
  | none => pure ()
  | some n =>
    match n.repoVhosts.or n.repoVhost with
    | none => pure ()
    | some pattern => do
      let names ← (if endsWith pattern "*.conf" then do
          let dir := dirName pattern
          let entries := (← Exec.readdir (joinPath svc.repo dir)).getD []
          return (entries.filter fun e => !e.isDir && endsWith e.name ".conf" &&
            !n.skipVhosts.contains e.name).map fun e => joinPath dir e.name
        else pure [pattern] : Exec (List String))
      let files ← fold (names.insertionSort (· ≤ ·)) [] fun files rel => do
        return files ++ [{ name := baseName rel, text := ← Exec.readFile (joinPath svc.repo rel) }]
      Nginx.install inv files []

/-- Installs the unit files that differ; an `install` that fails is passed over. -/
def installUnits (svc : Service) : Ops Unit := do
  let changed ← (fold svc.unitSources [] fun changed (unit, source) => do
    match ← Exec.readFile (joinPath svc.repo source) with
    | none => return changed
    | some want =>
      let dest := joinPath "/etc/systemd/system" unit
      let installed ← Exec.readFile dest true
      if installed = some want then return changed
      else
        let _ ← Exec.run "install" ["-m", "0644", "-D", joinPath svc.repo source, dest]
          { privileged := true }
        return changed ++ [unit] : Exec (List String))
  whenever (changed ≠ []) Systemd.daemonReload
  setRecord fun r => { r with unitsInstalled := some changed }
  whenever svc.enableUnits
    (forEach (svc.units ++ svc.auxiliaryUnits.map (·.unit)) fun unit => do
      let enabled ← Systemd.systemctl .enable (some unit)
      if enabled.code ≠ 0 then
        throw (.plain ("systemctl enable " ++ unit ++ " failed: " ++ trimText enabled.stderr))
      else pure () : Exec Unit)

def backupBeforeRestart (inv : Inventory) (svc : Service) : Ops Unit := do
  let record := (← own).record
  let res ← Backup.backup inv svc ("pre-deploy " ++ sha12 (record.toSha.getD "")) false
  setRecord fun r => { r with backup := some (res.files.map (·.dest)) }

/-- Restart the service units (never the socket) and poll readiness. -/
def restartAndWait (svc : Service) (opts : Options) (units : List String) (expectSha : String) :
    Exec Readiness.Waited := do
  forEach svc.socketUnit.toList Systemd.ensureSocketActive
  forEach units Systemd.restart
  Readiness.waitReady svc opts.readyTimeout (some expectSha) units

/-- Put the checkout back on `sha` and make node_modules match it again. -/
def restoreCheckout (svc : Service) (sha : String) : Ops Unit := do
  let g := svc.checkout
  let _ ← Git.mustRun g (.resetHard sha)
  let record := (← own).record
  forEach record.installed fun pkg =>
    liftM (Deps.install svc g svc.repo svc.install.restoreLockfile pkg)
  let v ← verifyDeps svc
  if v.problems ≠ [] then
    throw (.plain ("after restoring " ++ sha12 sha ++ " these dependencies still do not resolve"))
  else if record.built then liftM (runBuild svc)
  else pure ()

structure Announcement where
  service : String
  release : String
  origin : String
  deriving DecidableEq, Repr

/-- The names `^[a-z][a-z0-9-]{1,39}$`, `^[0-9a-f]{7,40}$` and `^[a-z0-9.-]+$` of an
announcement. -/
def announceable (service release domain : String) : Bool :=
  (match service.toList with
    | [] => false
    | first :: rest => first.isLower && decide (1 ≤ rest.length ∧ rest.length ≤ 39) &&
        rest.all fun c => c.isLower || c.isDigit || c == '-') &&
  Readiness.hexName 7 40 release &&
  !domain.toList.isEmpty && domain.toList.all fun c => c.isLower || c.isDigit || c == '.' || c == '-'

/-- One release notification per `dist/<domain>/release.json`. -/
def releaseAnnouncements (svc : Service) : Exec (Option (List Announcement)) :=
  match svc.releaseFiles with
  | none => pure none
  | some pattern => do
    let dir := String.ofList (pattern.toList.takeWhile (· ≠ '/'))
    let entries := (← Exec.readdir (joinPath svc.repo dir)).getD []
    let domains := ((entries.filter (·.isDir)).map (·.name)).insertionSort (· ≤ ·)
    some <$> fold domains [] fun out domain => do
      let m ← attempt
        (do return Json.parseFile (← Exec.readFile
          (joinPath (joinPath (joinPath svc.repo dir) domain) "release.json")))
        fun _ => pure none
      match m with
      | none => return out
      | some m =>
        match textField m "service", textField m "release" with
        | some service, some release =>
          if announceable service release domain then
            return out ++ [{ service, release, origin := "https://" ++ domain }]
          else return out
        | _, _ => return out

/-! ### Apply -/

structure Applied where
  exitCode : Nat
  announcements : Option (List Announcement) := none

def setResult (result : Result) : Ops Unit := setRecord fun r => { r with result := some result }

/-- The result of a release that is in service. -/
def doneResult : Mode → Result
  | .deploy => .deployed
  | .rollback => .rolledBack

/-- The record a run starts with. -/
def startRecord (svc : Service) (mode : Mode) (layout : Option String) : Ops Unit := do
  let random ← ask (S := Machine) .randomId fun answer => answer
  let t ← now
  let operator ← Exec.operatorName
  let host ← Exec.hostname
  update fun _ => { record := {
    id := newId t random, service := svc.id, strategy := svc.strategy, layout, action := mode
    startedAt := Dates.isoString t, operator, host } }

/-- What blocks the merge and loses nothing goes out of its way. -/
def clearTheWay (svc : Service) (plan : Plan) : Ops Unit := do
  let g := svc.checkout
  whenever (plan.generatedDirty ≠ [] ∧ plan.upToDate = false) (Git.checkoutPaths g plan.generatedDirty)
  forEach (plan.untrackedLockfiles ++ plan.untrackedGenerated) fun f => do
    let _ ← Exec.run "rm" ["-f", "--", joinPath svc.repo f] { asUser := some svc.owner }
    setRecord fun r => { r with removedUntracked := r.removedUntracked ++ [f] }
  forEach plan.untrackedDeleted fun f => do
    let _ ← Git.tryRun g (.noSkipWorktree f)
    let _ ← Git.mustRun g (.rmCached f)
    setRecord fun r => { r with droppedFromIndex := r.droppedFromIndex ++ [f] }

def moveCheckout (svc : Service) (mode : Mode) (plan : Plan) : Ops Unit :=
  if plan.upToDate then pure ()
  else do
    let _ ← Git.mustRun svc.checkout (match mode with
      | .deploy => .ffMerge plan.toSha
      | .rollback => .resetHard plan.toSha)
    setRecord fun r => { r with checkoutMoved := true }

/-- Everything between the move of the checkout and the restart. -/
def prepareRestart (inv : Inventory) (svc : Service) (opts : Options) (plan : Plan) : Ops Unit := do
  installAll svc plan.installs
  let v ← verifyDeps svc
  setRecord fun r => { r with depsVerified := some (decide (v.problems = [])), depsRepaired := v.repaired }
  if v.problems ≠ [] then
    throw (opError ("dependencies do not resolve: " ++ "; ".intercalate (v.problems.map fun p =>
      p.pkg ++ ": " ++ p.dep.getD "undefined" ++ " (" ++ p.reason ++ ")")) .validation)
  else
    whenever (svc.build ≠ []) (setRecord fun r => { r with built := true })
    runBuild svc
    let pf ← PreflightChecks.run svc svc.repo plan.changed v.pkgDirs
    if pf.problems ≠ [] then
      setRecord fun r => { r with preflight := some pf }
      throw (opError ("preflight failed: " ++ "; ".intercalate pf.problems) .validation)
    else
      whenever (svc.preflight.checks ≠ [] ∨ svc.preflight.syntaxCheck = true)
        (setRecord fun r => { r with preflight := some pf })
      whenever plan.installVhosts
        (attempt (installRepoVhosts inv svc) fun err => throw (opError err.message .validation))
      whenever (opts.installUnits ∨ svc.installUnits) (installUnits svc)
      whenever (plan.backupNeeded ∧ plan.restartNeeded) (backupBeforeRestart inv svc)
      whenever plan.restartNeeded (guardSessions inv svc opts "immediately before the restart")
      setRecord fun r => { r with auxApplyPending := r.auxApplyPending ++ plan.auxApply }
      forEach plan.auxRestart fun u => do
        Systemd.restart u
        setRecord fun r => { r with auxRestarted := r.auxRestarted ++ [u] }

/-- Nothing has been restarted: the files go back to what the running process expects. -/
def undoPrepare (svc : Service) (plan : Plan) (err : Failure) : Ops Unit := do
  let record := (← own).record
  whenever record.checkoutMoved
    (attempt
      (do
        restoreCheckout svc plan.fromSha
        setRecord fun r => { r with checkoutRestored := true })
      fun e2 => throw (opError (err.message ++ "\nAND restoring " ++ sha12 plan.fromSha ++ " failed: " ++
        e2.message ++ " — MANUAL INTERVENTION REQUIRED") .rollbackFailed (some .restoreFailed)))
  let restored := (← own).record.checkoutRestored
  match err with
  | .op message exitCode result =>
    throw (.op (message ++ if restored then " (checkout restored to " ++ sha12 plan.fromSha ++
      "; nothing restarted)" else " (nothing restarted)") exitCode result)
  | other =>
    throw (opError (other.message ++ (if restored then " (checkout restored to " ++
      sha12 plan.fromSha ++ "; nothing restarted)" else " (nothing restarted)")) .validation)

/-- No unit needs a restart: the ready URL is asked, and what it answers recorded. -/
def finishWithoutRestart (svc : Service) (mode : Mode) : Ops Unit := do
  setResult (doneResult mode)
  match svc.ready with
  | some _ =>
    let p ← Readiness.probe svc
    setRecord fun r => { r with ready := p.ok }
  | none => pure ()

/-- Not ready: back to where we were. -/
def rollBack (svc : Service) (opts : Options) (plan : Plan) : Ops Applied := do
  setRecord fun r => { r with autoRollback := some { back := plan.fromSha } }
  attempt
    (do
      restoreCheckout svc plan.fromSha
      let back ← restartAndWait svc opts plan.units plan.fromSha
      setRecord fun r => { r with autoRollback := some { back := plan.fromSha, ready := some back.ok } }
      if back.ok then
        setResult .failedRolledBack
        return { exitCode := Exit.rolledBack.code }
      else
        setResult .rollbackFailed
        return { exitCode := Exit.rollbackFailed.code })
    fun err => do
      setRecord fun r => { r with result := some .rollbackFailed, error := some err.message }
      return { exitCode := Exit.rollbackFailed.code }

/-- The restart, and the way back where it does not get the service ready. -/
def restartStage (svc : Service) (mode : Mode) (opts : Options) (plan : Plan)
    (announcements : Option (List Announcement)) : Ops Applied := do
  let r ← restartAndWait svc opts plan.units plan.toSha
  setRecord fun record => { record with restarted := true, ready := some r.ok }
  if r.ok then
    setResult (doneResult mode)
    return { exitCode := Exit.ok.code, announcements }
  else rollBack svc opts plan

/-- The release itself, once there is one to make. -/
def release (inv : Inventory) (svc : Service) (mode : Mode) (opts : Options) (plan : Plan) :
    Ops Applied := do
  whenever plan.restartNeeded (guardSessions inv svc opts "before the checkout moves")
  clearTheWay svc plan
  moveCheckout svc mode plan
  attempt (prepareRestart inv svc opts plan) (undoPrepare svc plan)
  let announcements ← releaseAnnouncements svc
  if plan.restartNeeded = false then
    finishWithoutRestart svc mode
    return { exitCode := Exit.ok.code, announcements }
  else restartStage svc mode opts plan announcements

/-- The run under the lock of the service. -/
def applyLocked (inv : Inventory) (svc : Service) (mode : Mode) (opts : Options) : Ops Applied := do
  Locks.acquireHost inv svc
  update fun s => { s with hostLock := true }
  let plan ← computePlan svc mode opts
  setRecord fun r => { r with
    fromSha := some plan.fromSha, toSha := some plan.toSha, commits := plan.commits.length
    lockfileChanged := plan.lockfileChanged, restartNeeded := some plan.restartNeeded }
  if plan.branch ≠ svc.branch then
    throw (opError (svc.repo ++ " is on \"" ++ plan.branch ++ "\", expected \"" ++ svc.branch ++ "\"")
      .usage)
  else if plan.dirty ≠ [] then
    throw (opError (svc.repo ++ " has tracked local changes (" ++ ", ".intercalate (plan.dirty.take 5) ++
      (if 5 < plan.dirty.length then ", …" else "") ++ "); commit or discard them first") .validation)
  else if plan.upToDate ∧ opts.restart = false then
    if opts.installUnits ∧ plan.unitDrift ≠ [] ∧ mode = .deploy then
      installUnits svc
      setResult .unitsInstalled
      return { exitCode := Exit.ok.code }
    else
      setResult .unchanged
      update fun s => { s with writeRecord := false }
      return { exitCode := Exit.ok.code }
  else release inv svc mode opts plan

/-- `catch (err)`: the record says what failed, and the error goes on. -/
def recordFailure (err : Failure) : Ops α := do
  setRecord fun r => { r with
    result := some ((err.result.or r.result).getD .failed), error := some err.message }
  throw err

/-- `finally`: the record is appended and both locks are given back. -/
def finish (inv : Inventory) (svc : Service) : Ops Unit := do
  let t ← now
  setRecord fun r => { r with finishedAt := some (Dates.isoString t) }
  let s ← own
  whenever s.writeRecord (attempt (append inv s.record) fun _ => pure ())
  whenever s.hostLock Locks.releaseHost
  Locks.release inv svc.id

def unmanaged (svc : Service) : Failure :=
  opError (svc.id ++ " is not managed by ovhost" ++
    (match svc.unmanagedReason with
      | some reason => ": " ++ reason
      | none => "")) .usage

/-- `apply` of an in-place strategy. -/
def applyInPlace (inv : Inventory) (pid : Nat) (svc : Service) (mode : Mode) (opts : Options) :
    Ops Applied := do
  if svc.managed = false then throw (unmanaged svc)
  else if opts.prepareOnly then
    throw (opError ("--prepare-only needs a release-layout service; " ++ svc.id ++ " is " ++
      svc.strategy.name) .usage)
  else
    let current ← Exec.readlink (joinPath svc.repo "current")
    if current ≠ none ∧ current ≠ some "" then
      throw (opError (svc.repo ++ " uses the releases/current layout; set strategy \"release-layout\" for " ++
        svc.id ++ " (docs/deploy-strategies.md)") .usage)
    else
      Locks.acquire inv svc.id pid
      startRecord svc mode none
      ensure (attempt (applyLocked inv svc mode opts) recordFailure) (finish inv svc)

end OpenVibeHost.ReleaseOps
