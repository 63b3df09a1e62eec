import OpenVibeHost.Backup
import OpenVibeHost.EffectFrames

/-! Which calls the adapters and the steps of a deploy make. Each call is of a kind;
a footprint theorem says which kinds a function keeps to, for any set of calls that
allows them. -/
namespace OpenVibeHost
open Effects Program

/-- The kinds of calls, by what they can change or tell. -/
inductive Kind where
  /-- It changes nothing. -/
  | look
  /-- It reads which commit a name or the checkout is at. -/
  | position
  /-- It moves a checkout to another commit. -/
  | move
  /-- It adds or removes a worktree. -/
  | worktree
  /-- It stops or restarts a unit. -/
  | restart
  /-- It starts a unit. -/
  | start
  /-- It renames a link over another. -/
  | switch
  /-- It takes or gives back the host-wide lock. -/
  | lock
  /-- It appends to a log. -/
  | log
  /-- It changes something else. -/
  | change
  deriving DecidableEq, Repr

@[grind =] def Git.kind : Git → Kind
  | .head | .revParse _ => .position
  | .branch | .hasCommit _ | .dirty | .skipWorktree | .fetch .. | .changedFiles .. | .addedFiles ..
  | .log .. | .show .. | .remoteUrl _ => .look
  | .ffMerge _ | .resetHard _ => .move
  | .worktreeAdd .. | .worktreeRemove _ => .worktree
  | .noSkipWorktree _ | .rmCached _ | .checkout _ | .worktreePrune => .change

@[grind =] def Action.kind : Action → Kind
  | .show | .listUnits | .listUnitFiles => .look
  | .start => .start
  | .stop | .restart => .restart
  | .reload | .enable | .daemonReload => .change

/-- `mv -T -f`, as root. -/
@[grind =] def switches (cmd : String) (args : List String) (options : RunOptions) : Bool :=
  options.privileged && decide (cmd = "mv" ∧ args.take 2 = ["-T", "-f"])

@[grind =] def Call.kind : Call → Kind
  | .git _ _ _ command => command.kind
  | .systemctl action _ => action.kind
  | .run cmd args options => if switches cmd args options then .switch else .change
  | .readFile .. | .readlink _ | .stat _ | .readdir _ | .pidAlive _ | .http .. | .request ..
  | .psql .. | .statfs _ | .listeners _ | .memAvailableBytes | .sleep _ | .hostname
  | .operatorName | .randomId | .isRoot | .sha256 _ => .look
  | .writeFile .. | .removeFile .. | .symlink .. | .mkdir .. | .createExclusive .. | .kill .. => .change
  | .appendFile .. => .log
  | .acquireDeployLock .. | .releaseDeployLock => .lock

/-- Every call of the kind is one of `calls`. -/
def Allows (calls : Machine.Call → Bool) (kind : Kind) : Prop :=
  ∀ call : Call, call.kind = kind → calls call = true

section
variable {calls : Machine.Call → Bool} {α : Type}

@[grind ←] theorem emits_call {σ : Type} {call : Call} {read : Machine.Answer call → α}
    (allowed : Allows calls call.kind) : Emits calls (ask call read : Ovhost σ α) :=
  emits_ask (allowed call rfl)

@[grind ←] theorem emits_orReject {call : Call} {read : Machine.Answer call → Except String α}
    (allowed : Allows calls call.kind) : Emits calls (Exec.orReject call read) := by
  unfold Exec.orReject
  grind

/-- A command that is not `mv -T -f` as root. -/
@[grind ←] theorem emits_run (change : Allows calls .change) {cmd : String} {args : List String}
    {options : RunOptions} (plain : switches cmd args options = false) :
    Emits calls (Exec.run cmd args options) := by
  unfold Exec.run
  grind

attribute [grind =] Exec.readFile Exec.writeFile Exec.appendFile Exec.removeFile Exec.symlink
  Exec.readlink Exec.stat Exec.readdir Exec.mkdir Exec.createExclusive Exec.pidAlive Exec.http
  Exec.request Exec.psql Exec.statfs Exec.listeners Exec.memAvailableBytes Exec.sleep Exec.hostname
  Exec.operatorName

/-! ### Git and systemd -/

@[grind ←] theorem emits_tryRun {g : Checkout} {command : Git}
    (allowed : Allows calls command.kind) : Emits calls (Git.tryRun g command) := by
  unfold Git.tryRun
  grind

@[grind ←] theorem emits_mustRun {g : Checkout} {command : Git}
    (allowed : Allows calls command.kind) : Emits calls (Git.mustRun g command) := by
  unfold Git.mustRun
  grind

attribute [grind =] Git.getHead Git.getBranch Git.resolve Git.hasCommitIn Git.dirtyFiles
  Git.skipWorktreeFiles Git.fetchRemote Git.changedBetween Git.addedBetween Git.commitsBetween
  Git.showFile Git.removeWorktree Git.getRemoteUrl

@[grind ←] theorem emits_checkoutPaths (change : Allows calls .change) (g : Checkout)
    (files : List String) : Emits calls (Git.checkoutPaths g files) := by
  have go (fuel : Nat) (files : List String) : Emits calls (Git.checkoutPaths.go g fuel files) := by
    induction fuel generalizing files with
    | zero => unfold Git.checkoutPaths.go; grind
    | succ fuel ih => unfold Git.checkoutPaths.go; grind
  exact go _ _

@[grind ←] theorem emits_systemctl {action : Action} {unit : Option String}
    (allowed : Allows calls action.kind) : Emits calls (Systemd.systemctl action unit) := by
  unfold Systemd.systemctl
  grind

/-- An action that is allowed for any unit is given to systemctl. -/
theorem systemctl_safe {action : Action} {unit : Option String}
    (allowed : Systemd.allowed action = true) (safe : Systemd.socketSafe action = true) :
    Systemd.systemctl action unit =
      ask (S := Machine) (.systemctl action unit) fun answer => answer := by
  unfold Systemd.systemctl
  rw [if_neg (by simp [allowed])]
  cases unit with
  | none => rfl
  | some name => exact if_neg (by simp [safe])

/-- So is every one for a service unit. -/
theorem systemctl_service {action : Action} {unit : String}
    (service : endsWith unit ".service" = true) (allowed : Systemd.allowed action = true := by rfl) :
    Systemd.systemctl action (some unit) =
      ask (S := Machine) (.systemctl action (some unit)) fun answer => answer := by
  unfold Systemd.systemctl
  rw [if_neg (by simp [allowed])]
  exact if_neg (by simp [service_no_socket service])

@[grind ←] theorem emits_must (what : String) (r : RunResult) :
    Emits calls (Systemd.must what r) := by
  unfold Systemd.must
  grind

attribute [grind =] Systemd.showUnit Systemd.showUnits Systemd.restart Systemd.daemonReload
  Systemd.reloadNginx Systemd.enable Systemd.listUnitFiles Systemd.instances Systemd.socketHeld

@[grind ←] theorem emits_ensureSocketActive (look : Allows calls .look) (start : Allows calls .start)
    (unit : String) : Emits calls (Systemd.ensureSocketActive unit) := by
  unfold Systemd.ensureSocketActive
  grind

@[grind ←] theorem emits_rebindSocket (restart : Allows calls .restart) (start : Allows calls .start)
    (serviceUnit socketUnit : String) :
    Emits calls (Systemd.rebindSocket serviceUnit socketUnit) := by
  unfold Systemd.rebindSocket
  grind

/-! ### Probes -/

section
variable (look : Allows calls .look)
include look

@[grind ←] theorem emits_probe (svc : Service) : Emits calls (Readiness.probe svc) := by
  unfold Readiness.probe
  grind

@[grind ←] theorem emits_releaseMismatch (ready : Ready) (sha : String) :
    Emits calls (Readiness.releaseMismatch ready sha) := by
  unfold Readiness.releaseMismatch
  grind

@[grind ←] theorem emits_missing (ready : Ready) (units : List String) (expectSha : Option String) :
    Emits calls (Readiness.missing ready units expectSha) := by
  unfold Readiness.missing
  exact emits_bind (by grind) fun states => by grind

@[grind ←] theorem emits_waitTurn (svc : Service) (ready : Ready) (units : List String)
    (expectSha : Option String) (start : Nat) (last : Option String) :
    Emits calls (Readiness.waitTurn svc ready units expectSha start last) := by
  unfold Readiness.waitTurn
  refine emits_bind (by grind) fun last => emits_bind (by grind) fun found => ?_
  refine emits_bind (by grind) fun t => ?_
  split
  · grind
  · exact emits_bind (by grind) fun shown => by grind

@[grind ←] theorem emits_waitReady (svc : Service) (timeoutSeconds : Option Nat)
    (expectSha : Option String) (units : List String) :
    Emits calls (Readiness.waitReady svc timeoutSeconds expectSha units) := by
  unfold Readiness.waitReady
  grind

@[grind ←] theorem emits_countOne (probe : CountProbe) : Emits calls (Probes.countOne probe) := by
  unfold Probes.countOne
  cases probe with
  | httpJsonCount => grind
  | postgresqlCount => exact emits_attempt (emits_bind (by grind) fun rows => by grind) (by grind)

@[grind ←] theorem emits_countSum (i : Nat) (total : Rat) (parts : List CountProbe) :
    Emits calls (Probes.countSum i total parts) := by
  induction parts generalizing i total with
  | nil => unfold Probes.countSum; grind
  | cons part rest ih => unfold Probes.countSum; grind

@[grind ←] theorem emits_running (svc : Service) : Emits calls (Probes.running svc) := by
  unfold Probes.running
  grind

@[grind ←] theorem emits_countProtected (svc : Service) :
    Emits calls (Probes.countProtected svc) := by
  unfold Probes.countProtected
  grind

end

/-! ### Locks -/

@[grind ←] theorem emits_acquire (look : Allows calls .look) (change : Allows calls .change)
    (inv : Inventory) (id : String) (pid : Nat) : Emits calls (Locks.acquire inv id pid) := by
  unfold Locks.acquire
  refine emits_bind (by grind) fun t => emits_bind (by grind) fun created => ?_
  split
  · grind
  · refine emits_bind (by grind) fun holder => emits_bind (by grind) fun alive => ?_
    grind

@[grind ←] theorem emits_acquireHost (lock : Allows calls .lock) (inv : Inventory) (svc : Service) :
    Emits calls (Locks.acquireHost inv svc) := by
  unfold Locks.acquireHost
  grind

attribute [grind =] Locks.release Locks.releaseHost

@[grind ←] theorem emits_memoryTurn (look : Allows calls .look) (config : MemoryGuard)
    (start : Nat) (u : Unit) : Emits calls (Locks.memoryTurn config start u) := by
  unfold Locks.memoryTurn
  grind

@[grind ←] theorem emits_enoughMemory (look : Allows calls .look) (config : MemoryGuard) :
    Emits calls (Locks.enoughMemory config) := by
  unfold Locks.enoughMemory
  grind

/-! ### Dependencies and preflight -/

section
variable (look : Allows calls .look)
include look

@[grind ←] theorem emits_expandPackages (svc : Service) (root : String) :
    Emits calls (Deps.expandPackages svc root) := by
  unfold Deps.expandPackages
  refine emits_fold fun out pattern _ => ?_
  split
  · exact emits_bind (by grind) fun entries => by grind
  · grind

@[grind ←] theorem emits_needsInstall (g : Checkout) (source target pkgDir lockfile : String) :
    Emits calls (Deps.needsInstall g source target pkgDir lockfile) := by
  unfold Deps.needsInstall
  refine emits_bind (by grind) fun lockA => emits_bind (by grind) fun lockB => ?_
  grind

@[grind ←] theorem emits_verifyOne (root pkgDir dep : String) :
    Emits calls (Deps.verifyOne root pkgDir dep) := by
  unfold Deps.verifyOne
  grind

@[grind ←] theorem emits_verify (root : String) (pkgDirs : List String) :
    Emits calls (Deps.verify root pkgDirs) := by
  unfold Deps.verify
  grind

variable (change : Allows calls .change)
include change

@[grind ←] theorem emits_install (svc : Service) (g : Checkout) (root : String)
    (restoreLockfile : Bool) (pkgDir : String) :
    Emits calls (Deps.install svc g root restoreLockfile pkgDir) := by
  unfold Deps.install
  refine emits_bind (by grind) fun _ => emits_bind (by grind) fun r => ?_
  grind

@[grind ←] theorem emits_verifyAndRepair (svc : Service) (g : Checkout) (root : String)
    (restoreLockfile : Bool) (pkgDirs : List String) :
    Emits calls (Deps.verifyAndRepair svc g root restoreLockfile pkgDirs) := by
  unfold Deps.verifyAndRepair
  refine emits_bind (by grind) fun problems => ?_
  split
  · grind
  · refine emits_bind (emits_fold fun repaired pkgDir _ => ?_) fun repaired => by grind
    exact emits_bind (by grind) fun _ => by grind

@[grind ←] theorem emits_syntaxOne (svc : Service) (root : String)
    (out : PreflightChecks.Outcome) (f : String) :
    Emits calls (PreflightChecks.syntaxOne svc root out f) := by
  unfold PreflightChecks.syntaxOne
  grind

@[grind ←] theorem emits_checkOne (svc : Service) (root : String) (check : PreflightCheck)
    (out : PreflightChecks.Outcome) (pkg : String) :
    Emits calls (PreflightChecks.checkOne svc root check out pkg) := by
  unfold PreflightChecks.checkOne
  grind

@[grind ←] theorem emits_preflight (svc : Service) (root : String) (changed pkgDirs : List String) :
    Emits calls (PreflightChecks.run svc root changed pkgDirs) := by
  unfold PreflightChecks.run
  refine emits_bind (by grind) fun checked => ?_
  split
  · grind
  · refine emits_bind (by grind) fun _ => by grind

/-! ### Vhosts -/

omit look in
@[grind ←] theorem emits_undo (undo : Nginx.Undo) : Emits calls undo.run := by
  unfold Nginx.Undo.run
  grind

@[grind ←] theorem emits_removeOne (inv : Inventory) (files : List Nginx.VhostFile)
    (done : Nginx.Installed) (name : String) :
    Emits calls (Nginx.removeOne inv files done name) := by
  unfold Nginx.removeOne
  split
  · grind
  · refine emits_bind (by grind) fun prevText => emits_bind (by grind) fun target => ?_
    refine emits_bind (by grind) fun there => emits_bind ?_ fun unlinked => ?_
    · split
      · exact emits_bind (by grind) fun undo => by grind
      · grind
    · exact emits_bind (by grind) fun undo => by grind

@[grind ←] theorem emits_installOne (inv : Inventory) (done : Nginx.Installed)
    (f : Nginx.VhostFile) : Emits calls (Nginx.installOne inv done f) := by
  unfold Nginx.installOne
  split
  · grind
  · refine emits_bind (by grind) fun prev => emits_bind (by grind) fun written => ?_
    grind

@[grind ←] theorem emits_nginxInstall (inv : Inventory) (files : List Nginx.VhostFile)
    (remove : List String) : Emits calls (Nginx.install inv files remove) := by
  unfold Nginx.install
  refine emits_bind (by grind) fun removed => emits_bind (by grind) fun done => ?_
  split
  · grind
  · exact emits_bind (emits_run change (by simp [switches])) fun t => by grind

end

/-! ### Backups -/

section
variable (look : Allows calls .look) (change : Allows calls .change)
include look change

omit look in
@[grind ←] theorem emits_verifyPgBackRest : Emits calls Backup.verifyPgBackRest := by
  unfold Backup.verifyPgBackRest
  refine emits_bind (by grind) fun t => emits_bind (by grind) fun r => ?_
  split
  · grind
  · split
    · grind
    · dsimp only
      split
      · grind
      · split <;> grind

@[grind ←] theorem emits_verifyPostgres (inv : Inventory) :
    Emits calls (Backup.verifyPostgres inv) := by
  unfold Backup.verifyPostgres
  refine emits_attempt ?_ (by grind)
  refine emits_bind (by grind) fun _ => emits_bind ?_ fun failed => emits_bind ?_ fun previous => ?_
  · unfold Backup.walFailedCount
    grind
  · unfold Backup.readArchiver
    grind
  · refine emits_bind ?_ fun _ => by grind
    unfold Backup.writeArchiver
    grind

omit look in
@[grind ←] theorem emits_lockDown (path mode : String) : Emits calls (Backup.lockDown path mode) := by
  unfold Backup.lockDown
  grind

omit look in
@[grind ←] theorem emits_privateDir (path : String) : Emits calls (Backup.privateDir path) := by
  unfold Backup.privateDir
  grind

omit look in
@[grind ←] theorem emits_dumpOne (dir stage : String) (db : Database) :
    Emits calls (Backup.dumpOne dir stage db) := by
  unfold Backup.dumpOne
  grind

omit change in
@[grind ←] theorem emits_shortOfSpace (inv : Inventory) (sourceBytes : Option Nat) :
    Emits calls (Backup.shortOfSpace inv sourceBytes) := by
  unfold Backup.shortOfSpace
  split
  · exact emits_bind (by grind) fun free => emits_pure _
  · exact emits_pure _

@[grind ←] theorem emits_archiveOne (inv : Inventory) (dir stage : String)
    (obj : ObjectDirectory) : Emits calls (Backup.archiveOne inv dir stage obj) := by
  unfold Backup.archiveOne
  refine emits_bind (by grind) fun st => ?_
  split
  · exact emits_pure _
  · refine emits_bind (by grind) fun du => ?_
    refine emits_bind (by grind) fun short => ?_
    split
    · exact emits_pure _
    · refine emits_bind (by grind) fun _ => ?_
      refine emits_bind (by grind) fun r => ?_
      split <;> exact emits_pure _

@[grind ←] theorem emits_checkCopy (stage : String) (f : BackupFile) :
    Emits calls (Backup.checkCopy stage f) := by
  unfold Backup.checkCopy
  grind

@[grind ←] theorem emits_copyAll (inv : Inventory) (svc : Service) (due : Bool)
    (dir stage : String) : Emits calls (Backup.copyAll inv svc due dir stage) := by
  unfold Backup.copyAll
  refine emits_bind (by grind) fun dumps => emits_bind (by grind) fun _ => ?_
  refine emits_bind (by grind) fun made => emits_bind (by grind) fun files => ?_
  refine emits_bind (by grind) fun entries => emits_bind (by grind) fun _ => ?_
  refine emits_bind (emits_whenever fun _ => ?_) fun _ => by grind
  exact emits_bind (emits_run change (by simp [switches])) fun mv => by grind

@[grind ←] theorem emits_clearStage (stage : String) : Emits calls (Backup.clearStage stage) := by
  unfold Backup.clearStage
  grind

variable (log : Allows calls .log)
include log

omit look change in
@[grind ←] theorem emits_appendRecord (inv : Inventory) (id : String) (record : BackupRecord) :
    Emits calls (Backup.appendRecord inv id record) := by
  unfold Backup.appendRecord
  grind

@[grind ←] theorem emits_makeCopies (inv : Inventory) (svc : Service) (reason : String)
    (due : Bool) (verified : Option Verified) :
    Emits calls (Backup.makeCopies inv svc reason due verified) := by
  unfold Backup.makeCopies
  refine emits_bind (by grind) fun t => emits_bind (by grind) fun there => ?_
  split
  · grind
  · refine emits_bind (by grind) fun _ => emits_bind (by grind) fun _ => ?_
    refine emits_bind (by grind) fun _ => emits_bind (by grind) fun _ => ?_
    refine emits_bind (by grind) fun _ => emits_bind (by grind) fun _ => ?_
    exact emits_bind (by grind) fun files => by grind

@[grind ←] theorem emits_backup (inv : Inventory) (svc : Service) (reason : String)
    (logical : Bool) : Emits calls (Backup.backup inv svc reason logical) := by
  unfold Backup.backup
  split
  · grind
  · refine emits_bind (by grind) fun verified => ?_
    split
    · grind
    · refine emits_bind (by grind) fun due => by grind

end

end

end OpenVibeHost
