import OpenVibeHost.ReleaseLog

/-! What an in-place deploy or rollback would do: `computePlan` of
`lib/release-ops.js`. It fetches the remote and changes nothing else. -/
namespace OpenVibeHost
open Effects Program

/-- The exit codes of `lib/release-ops.js`. -/
inductive Exit where
  | ok
  | usage
  | validation
  | rolledBack
  | rollbackFailed
  | protected'
  | frozen
  deriving DecidableEq, Repr

def Exit.code : Exit → Nat
  | .ok => 0
  | .usage => 1
  | .validation => 2
  | .rolledBack => 3
  | .rollbackFailed => 4
  | .protected' => 5
  | .frozen => 6

/-- `new OpError(message, exitCode, { result })`. -/
def opError (message : String) (exit : Exit) (result : Option Result := none) : Failure :=
  .op message exit.code result

namespace ReleaseOps

def matchesPath (file : String) (patterns : List String) : Bool :=
  patterns.any fun p =>
    if endsWith p "/" then beginsWith file p
    else if beginsWith p "*." then
      !file.toList.contains '/' && endsWith file (String.ofList (p.toList.drop 1))
    else if beginsWith p "**/*." then endsWith file (String.ofList (p.toList.drop 4))
    else decide (file = p)

/-- A letter or digit, and at most `limit` more of them or of `extra`. -/
def refName (extra : List Char) (limit : Nat) (text : String) : Bool :=
  match text.toList with
  | [] => false
  | first :: rest =>
    first.isAlphanum && decide (rest.length ≤ limit) &&
      rest.all fun c => c.isAlphanum || extra.contains c

/-- What `--to` may be: at most 200 letters, digits and `. _ / -`, a letter or digit first. -/
def isRef (text : String) : Bool := refName ['.', '_', '/', '-'] 199 text

/-- An install of one package directory. -/
structure InstallStep where
  pkg : String
  need : Deps.Need := {}
  missingNodeModules : Bool := false
  install : Bool := false
  deriving DecidableEq, Repr

structure Drift where
  unit : String
  source : String
  installed : Bool
  deriving DecidableEq, Repr

structure Plan where
  branch : String
  fromSha : String
  toSha : String
  upToDate : Bool
  dirty : List String := []
  untrackedDeleted : List String := []
  generatedDirty : List String := []
  commits : List String := []
  changed : List String := []
  lockfileChanged : Bool := false
  installs : List InstallStep := []
  untrackedLockfiles : List String := []
  untrackedGenerated : List String := []
  restartNeeded : Bool := false
  units : List String := []
  auxRestart : List String := []
  auxApply : List String := []
  extraUnits : List String := []
  unitDrift : List Drift := []
  backupNeeded : Bool := false
  installVhosts : Bool := false
  vhostsRemoved : List String := []

/-- The commit a plan is for: what the remote branch or `--to` names, or the given
commit of a rollback. -/
def planTarget (svc : Service) (g : Checkout) (mode : Mode) (opts : Options) : Exec String :=
  match mode with
  | .deploy => do
    whenever opts.fetch (Git.fetchRemote g svc)
    Git.resolve g (opts.target.getD (svc.remote ++ "/" ++ svc.branch))
  | .rollback =>
    match opts.target with
    | none | some "" => throw (opError "rollback needs a target sha" .usage)
    | some target => do
      if ¬ (← Git.hasCommitIn g target) then
        throw (opError ("commit " ++ target ++ " is not in " ++ svc.repo) .usage)
      else Git.resolve g target

/-- Of the changed or skip-worktree paths, those the release stops tracking: all of
them, or none. -/
def stoppedTracking (g : Checkout) (fromSha toSha : String) (paths : List String) :
    Exec (List String) := do
  let stopped ← fold paths [] fun stopped f => do
    match ← Git.showFile g fromSha f with
    | none => return stopped
    | some _ =>
      match ← Git.showFile g toSha f with
      | none => return stopped ++ [f]
      | some _ => return stopped
  return if stopped.length = paths.length then stopped else []

/-- Whether a `package.json` in `dir` belongs to the service's packages. -/
def inPackages (svc : Service) (dir : String) : Bool :=
  svc.packages.any fun p => p = dir ||
    (endsWith p "/*" && dirName dir = String.ofList (p.toList.take (p.length - 2)))

/-- The package directories, those that the release adds included. -/
def packageDirs (svc : Service) (changed : List String) : Exec (List String) := do
  let dirs ← Deps.expandPackages svc svc.repo
  return changed.foldl
    (fun dirs f =>
      let dir := dirName f
      if baseName f = "package.json" ∧ inPackages svc dir ∧ dir ∉ dirs ∧
          Deps.skipped dir svc.skipPackages = false then dirs ++ [dir]
      else dirs)
    dirs

/-- Untracked files that the merge would refuse to overwrite and that lose nothing:
generated lockfiles, and files with the bytes the release brings. -/
def untrackedIncoming (svc : Service) (g : Checkout) (toSha : String) (added : List String) :
    Exec (List String) :=
  fold added [] fun found f => do
    match ← Exec.stat (joinPath svc.repo f) with
    | none => return found
    | some _ =>
      if svc.removeUntrackedLockfiles ∧ baseName f = svc.install.lockfile ∧
          Deps.skipped (dirName f) svc.skipPackages = false then return found ++ [f]
      else
        let mine ← Exec.readFile (joinPath svc.repo f)
        let theirs ← Git.showFile g toSha f
        return if mine = theirs then found ++ [f] else found

def isRepoVhost (svc : Service) (f : String) : Bool :=
  match svc.nginx.bind (·.repoVhosts) with
  | none => false
  | some pattern =>
    if endsWith pattern "*.conf" then
      decide (dirName f = dirName pattern) && endsWith (baseName f) ".conf"
    else decide (f = pattern)

def skipsVhost (svc : Service) (name : String) : Bool :=
  ((svc.nginx.map (·.skipVhosts)).getD []).contains name

/-- Untracked build output and vhosts that the release starts to track. -/
def untrackedOutput (svc : Service) (g : Checkout) (fromSha toSha : String)
    (changed removed : List String) : Exec (List String) :=
  if svc.generated = [] ∧ (svc.nginx.bind (·.repoVhosts)).isNone then pure []
  else
    fold changed [] fun found f => do
      if isRepoVhost svc f ∧ skipsVhost svc (baseName f) then return found
      else if (matchesPath f svc.generated = false ∧ isRepoVhost svc f = false) ∨ f ∈ removed then
        return found
      else
        match ← Git.showFile g fromSha f with
        | some _ => return found
        | none =>
          match ← Git.showFile g toSha f with
          | none => return found
          | some _ =>
            match ← Exec.stat (joinPath svc.repo f) with
            | some _ => return found ++ [f]
            | none => return found

def hasModules (root pkg : String) : Exec Bool := do
  return (← Exec.stat (joinPath (joinPath root pkg) "node_modules")).isSome

/-- What to install: once at the root of a workspace, else in each package. -/
def planInstalls (svc : Service) (g : Checkout) (fromSha toSha : String) (pkgDirs : List String) :
    Exec (List InstallStep) := do
  let needs (pkg : String) : Exec Deps.Need :=
    if fromSha = toSha then pure {}
    else Deps.needsInstall g fromSha toSha pkg svc.install.lockfile
  if svc.install.workspace then
    let need ← (if fromSha = toSha then pure {}
      else fold ("." :: pkgDirs) {} fun need pkg => do
        let n ← needs pkg
        return {
          lockfileChanged := if pkg = "." then n.lockfileChanged else need.lockfileChanged
          depsChanged := need.depsChanged || n.depsChanged } : Exec Deps.Need)
    let modules ← hasModules svc.repo "."
    return [{ pkg := ".", need, missingNodeModules := !modules
              install := need.needed || svc.install.always || !modules }]
  else
    fold pkgDirs [] fun steps pkg => do
      let need ← needs pkg
      let modules ← hasModules svc.repo pkg
      return steps ++ [{ pkg, need, missingNodeModules := !modules
                         install := need.needed || svc.install.always || !modules }]

/-- Unit files on the host that `unitsMatch` names and the inventory does not; oneshot
units are jobs and left alone. -/
def findExtraUnits (svc : Service) : Exec (List String) :=
  match svc.unitsMatch with
  | none => pure []
  | some pattern => do
    let found ← attempt
      (do
        let files ← Systemd.listUnitFiles pattern
        return files.filter fun u => u ∉ svc.units ∧ u ∉ svc.workerUnits)
      fun _ => pure []
    fold found [] fun extra u => do
      let type ← attempt (do return (← Systemd.showUnit u).type) fun _ => pure ""
      return if type = "oneshot" then extra else extra ++ [u]

/-- The unit files that differ from the release's. -/
def findDrift (svc : Service) (g : Checkout) (toSha : String) : Exec (List Drift) :=
  fold svc.unitSources [] fun drift (unit, source) => do
    match ← Git.showFile g toSha source with
    | none => return drift
    | some want =>
      let installed ← Exec.readFile (joinPath "/etc/systemd/system" unit) true
      return if installed ≠ some want then drift ++ [{ unit, source, installed := installed.isSome }]
        else drift

/-- Vhosts the release no longer has; they stay installed. -/
def removedVhosts (svc : Service) (g : Checkout) (toSha : String) (changed : List String) :
    Exec (List String) :=
  match svc.nginx with
  | some n =>
    match n.repoVhosts with
    | some pattern =>
      if n.installOnDeploy then
        fold changed [] fun removed f => do
          if endsWith f ".conf" ∧ dirName f = dirName pattern ∧ baseName f ∉ n.skipVhosts then
            match ← Git.showFile g toSha f with
            | none => return removed ++ [baseName f]
            | some _ => return removed
          else return removed
      else pure []
    | none => pure []
  | none => pure []

/-- The auxiliary units with a changed path among those that `paths` names. -/
def auxiliaryFor (svc : Service) (mode : Mode) (changed : List String)
    (paths : AuxiliaryUnit → List String) : List String :=
  match mode with
  | .rollback => []
  | .deploy => (svc.auxiliaryUnits.filter fun a => changed.any (matchesPath · (paths a))).map (·.unit)

/-- The commits between the two, in the direction of the plan. -/
def planCommits (g : Checkout) (mode : Mode) (fromSha toSha : String) : Exec (List String) :=
  if fromSha = toSha then pure []
  else match mode with
    | .deploy => Git.commitsBetween g fromSha toSha
    | .rollback => Git.commitsBetween g toSha fromSha

/-- The sessions a restart would cut, where there is one. -/
def planSessions (svc : Service) (restartNeeded : Bool) : Exec (Option Probes.Sessions) :=
  if restartNeeded then some <$> Probes.countProtected svc else pure none

/-- `computePlan`. -/
def computePlan (svc : Service) (mode : Mode) (opts : Options) : Exec Plan := do
  let target := opts.target.getD ""
  if opts.target.isSome ∧ isRef target = false then
    throw (opError ("\"" ++ target ++ "\" is not a sha or ref name") .usage)
  else
    let g := svc.checkout
    let fromSha ← Git.getHead g
    let branch ← Git.getBranch g
    let dirtyAll ← Git.dirtyFiles g
    let generatedDirty := dirtyAll.filter (matchesPath · svc.generated)
    let dirty := dirtyAll.filter fun f => !matchesPath f svc.generated
    let toSha ← planTarget svc g mode opts
    let same := decide (fromSha = toSha)
    let changed ← (if same then pure [] else Git.changedBetween g fromSha toSha : Exec (List String))
    let commits ← planCommits g mode fromSha toSha
    let skipWorktree ← Git.skipWorktreeFiles g
    let paths := (dirty ++ skipWorktree.filter fun f => !matchesPath f svc.generated).reverse.dedup.reverse
    let untrackedDeleted ← stoppedTracking g fromSha toSha paths
    let pkgDirs ← packageDirs svc changed
    let added ← (if same then pure [] else Git.addedBetween g fromSha toSha : Exec (List String))
    let untrackedLockfiles ← untrackedIncoming svc g toSha added
    let untrackedGenerated ← untrackedOutput svc g fromSha toSha changed untrackedLockfiles
    let installs ← planInstalls svc g fromSha toSha pkgDirs
    let codeChanged := changed.filter fun f => !matchesPath f svc.noRestartPaths
    let extraUnits ← findExtraUnits svc
    let units := svc.units ++ extraUnits
    let restartNeeded := decide (units ≠ []) && (opts.restart || decide (codeChanged ≠ []))
    let unitDrift ← findDrift svc g toSha
    let _ ← planSessions svc restartNeeded
    let vhostsRemoved ← removedVhosts svc g toSha changed
    return {
      branch, fromSha, toSha, upToDate := same
      dirty := dirty.filter (· ∉ untrackedDeleted)
      untrackedDeleted, generatedDirty, commits, changed
      lockfileChanged := installs.any (·.need.lockfileChanged)
      installs, untrackedLockfiles, untrackedGenerated, restartNeeded, units
      auxRestart := auxiliaryFor svc mode changed (·.restartOn)
      auxApply := auxiliaryFor svc mode changed (·.applyOn)
      extraUnits, unitDrift
      backupNeeded := decide (svc.databases ≠ []) && changed.any (svc.backupOnChange.contains ·)
      installVhosts := (svc.nginx.map (·.installOnDeploy)).getD false
      vhostsRemoved }

end ReleaseOps

end OpenVibeHost
