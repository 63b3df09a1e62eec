import OpenVibeHost.Probes
import Mathlib.Data.List.Sort

/-! What a deploy prepares before it restarts anything: dependencies,
`lib/deps.js`; preflight checks, `lib/preflight.js`; vhosts, `lib/nginx.js`; and
the locks it holds meanwhile, `lib/lock.js` and `lib/deploy-guard.js`. -/
namespace OpenVibeHost
open Effects Program

/-- `path.normalize` of a relative path without `..`. -/
def normalizePath (path : String) : String :=
  match (path.toList.splitOn '/').filter fun part => part ≠ [] ∧ part ≠ ['.'] with
  | [] => "."
  | parts => String.ofList (['/'].intercalate parts)

/-! ### Locks -/

namespace Locks

def lockFile (inv : Inventory) (id : String) : String := inv.stateDir ++ "/locks/" ++ id ++ ".lock"

def lockBody (pid at' : Nat) : String :=
  "\x7b\"pid\":" ++ toString pid ++ ",\"at\":" ++ toString at' ++ "\x7d"

/-- The pid a lock file names. A file that does not parse names none. -/
def holderOf (text : Option String) : Option Nat :=
  match Json.parseFile text with
  | some holder =>
    match holder.field "pid" with
    | some (.num pid) => if 0 < pid ∧ pid.den = 1 then some pid.num.toNat else none
    | _ => none
  | none => none

/-- `lock.acquire`. -/
def acquire (inv : Inventory) (id : String) (pid : Nat) : Exec Unit := do
  let file := lockFile inv id
  let body := lockBody pid (← now)
  if ← Exec.createExclusive file body then pure ()
  else
    let holder ← attempt (do return holderOf (← Exec.readFile file)) fun _ => pure none
    let alive ← (match holder with
      | some other => Exec.pidAlive other
      | none => pure false : Exec Bool)
    if alive then
      throw (.locked ("another ovhost operation on " ++ id ++ " is running; lock: " ++ file))
    else
      Exec.removeFile file
      if ← Exec.createExclusive file body then pure ()
      else throw (.locked ("could not take the lock " ++ file))

def release (inv : Inventory) (id : String) : Exec Unit := Exec.removeFile (lockFile inv id)

/-- `deployGuard.acquire`: the host-wide lock, a kernel flock. -/
def acquireHost (inv : Inventory) (svc : Service) : Exec Unit := do
  match ← ask (S := Machine) (.acquireDeployLock svc.id inv.lockWaitSeconds) fun answer => answer with
  | .ok () => pure ()
  | .error message => throw (.locked message)

def releaseHost : Exec Unit := ask (S := Machine) .releaseDeployLock fun answer => answer

/-- One turn of the wait for memory. -/
def memoryTurn (config : MemoryGuard) (start : Nat) (_ : Unit) : Exec (Unit ⊕ Unit) := do
  match ← Exec.memAvailableBytes with
  | none =>
    throw (.plain "cannot read MemAvailable from /proc/meminfo; refusing dependency install")
  | some bytes =>
    if config.minAvailableMiB * (1024 * 1024) ≤ bytes then return .inr ()
    else
      let t ← now
      if config.memoryWaitSeconds * 1000 ≤ t - start then
        throw (.plain ("MemAvailable stayed below " ++ toString config.minAvailableMiB ++
          " MiB for " ++ toString config.memoryWaitSeconds ++
          "s; dependency install was not started"))
      else
        Exec.sleep (min (config.memoryPollSeconds * 1000)
          (config.memoryWaitSeconds * 1000 - (t - start)))
        return .inl ()

/-- Waits for memory; it has a turn for every millisecond it may wait. -/
def enoughMemory (config : MemoryGuard) : Exec Unit := do
  let start ← now
  let _ ← loop (memoryTurn config start) (config.memoryWaitSeconds * 1000 + 1) ()

end Locks

/-! ### Dependencies -/

namespace Deps

def skipped (dir : String) (patterns : List String) : Bool :=
  patterns.any fun p =>
    if endsWith p "*" then beginsWith dir (String.ofList p.toList.dropLast)
    else dir = normalizePath p

/-- Package directories from patterns such as `.` and `apps/*`, under `root`. -/
def expandPackages (svc : Service) (root : String) : Exec (List String) :=
  fold svc.packages [] fun out pattern =>
    if endsWith pattern "/*" then do
      let base := String.ofList (pattern.toList.take (pattern.length - 2))
      let entries := (← Exec.readdir (joinPath root base)).getD []
      let names := ((entries.filter (·.isDir)).map (·.name)).insertionSort (· ≤ ·)
      fold names out fun out name => do
        let dir := joinPath base name
        if skipped dir svc.skipPackages then return out
        else
          let there ← Exec.stat (joinPath (joinPath root dir) "package.json")
          return if there.isSome then out ++ [dir] else out
    else if skipped (normalizePath pattern) svc.skipPackages then return out
    else do
      let there ← Exec.stat (joinPath (joinPath root pattern) "package.json")
      return if there.isSome then out ++ [normalizePath pattern] else out

/-- `depFields`: none where the text is no object with fields. -/
def depFields (text : Option String) : Option Json :=
  match Json.parseFile text with
  | none | some .null => none
  | some j => some (.arr
      [j.fieldOrEmpty "dependencies", j.fieldOrEmpty "optionalDependencies", j.fieldOrEmpty "engines"])

structure Need where
  lockfileChanged : Bool := false
  depsChanged : Bool := false
  deriving DecidableEq, Repr

def Need.needed (need : Need) : Bool := need.lockfileChanged || need.depsChanged

/-- Whether a package needs an install between two revisions. -/
def needsInstall (g : Checkout) (source target pkgDir lockfile : String) : Exec Need := do
  let lock := joinPath pkgDir lockfile
  let pkg := joinPath pkgDir "package.json"
  let lockA ← Git.showFile g source lock
  let lockB ← Git.showFile g target lock
  let pkgA ← Git.showFile g source pkg
  let pkgB ← Git.showFile g target pkg
  let sameDeps := match depFields pkgA, depFields pkgB with
    | none, none => true
    | some a, some b => a.sameText b
    | _, _ => false
  return { lockfileChanged := lockA ≠ lockB, depsChanged := !sameDeps }

def failureText (r : RunResult) : String := trimText (if r.stderr ≠ "" then r.stderr else r.stdout)

/-- Installs as the owner, then puts the lockfile back. -/
def install (svc : Service) (g : Checkout) (root : String) (restoreLockfile : Bool)
    (pkgDir : String) : Exec Unit := do
  Locks.enoughMemory svc.memory
  let r ← Exec.run svc.install.command svc.install.arguments
    { asUser := some svc.owner, cwd := some (joinPath root pkgDir) }
  if r.code ≠ 0 then
    throw (.plain (" ".intercalate (svc.install.command :: svc.install.arguments) ++ " failed in " ++
      pkgDir ++ ": " ++ failureText r))
  else if restoreLockfile then
    let lock := joinPath pkgDir svc.install.lockfile
    let dirty ← Git.dirtyFiles g
    if lock ∈ dirty then
      let _ ← Git.mustRun g (.checkout [lock])
    else pure ()
  else pure ()

structure Problem where
  pkg : String
  dep : Option String
  reason : String
  deriving DecidableEq, Repr

/-- What is wrong with one installed dependency. -/
def verifyOne (root pkgDir dep : String) : Exec (Option Problem) := do
  match ← Exec.readFile (pathJoin (joinPath root pkgDir) ("node_modules/" ++ dep ++ "/package.json")) with
  | none =>
    return some ⟨pkgDir, some dep, "node_modules/" ++ dep ++ "/package.json is missing"⟩
  | some text =>
    match Json.parse text with
    | none => return some ⟨pkgDir, some dep, "its package.json does not parse"⟩
    | some .null => throw (.plain "Cannot read properties of null (reading name)")
    | some json =>
      match json.field "name" with
      | some (.str name) =>
        if name = dep then return none
        else return some ⟨pkgDir, some dep, "installed package is named \"" ++ name ++ "\""⟩
      | other => return some ⟨pkgDir, some dep, "installed package is named \"" ++
          (other.map Json.shown).getD "undefined" ++ "\""⟩

/-- Every declared dependency that does not resolve. -/
def verify (root : String) (pkgDirs : List String) : Exec (List Problem) :=
  fold pkgDirs [] fun problems pkgDir => do
    match Json.parseFile (← Exec.readFile (joinPath (joinPath root pkgDir) "package.json")) with
    | none => return problems ++ [⟨pkgDir, none, "package.json does not parse"⟩]
    | some .null => throw (.plain "Cannot read properties of null (reading dependencies)")
    | some pkg =>
      fold (pkg.fieldOrEmpty "dependencies").keys problems fun problems dep => do
        return problems ++ (← verifyOne root pkgDir dep).toList

structure Repaired where
  problems : List Problem
  repaired : List String
  deriving DecidableEq, Repr

/-- Verifies; removes and reinstalls what is broken once; verifies again. -/
def verifyAndRepair (svc : Service) (g : Checkout) (root : String) (restoreLockfile : Bool)
    (pkgDirs : List String) : Exec Repaired := do
  let problems ← verify root pkgDirs
  if problems = [] then return ⟨[], []⟩
  else
    let packages := (problems.map (·.pkg)).reverse.dedup.reverse
    let repaired ← fold packages [] fun repaired pkgDir => do
      forEach (problems.filter (·.pkg = pkgDir)) fun p =>
        match p.dep with
        | some "" | none => pure ()
        | some dep => do
          let _ ← Exec.run "rm"
            ["-rf", "--", pathJoin (joinPath root pkgDir) ("node_modules/" ++ dep)]
            { asUser := some svc.owner }
      let at' := if svc.install.workspace then "." else pkgDir
      if at' ∈ repaired then return repaired
      else
        install svc g root restoreLockfile at'
        return repaired ++ [at']
    return ⟨← verify root pkgDirs, repaired⟩

end Deps

/-! ### Preflight -/

namespace PreflightChecks

structure Outcome where
  checksRun : Nat := 0
  syntaxChecked : Nat := 0
  problems : List String := []
  deriving DecidableEq, Repr

def syntaxOne (svc : Service) (root : String) (out : Outcome) (f : String) : Exec Outcome := do
  let file := joinPath root f
  if endsWith f ".js" ∨ endsWith f ".cjs" then
    match ← Exec.stat file with
    | some st =>
      if st.isFile then
        let r ← Exec.run "node" ["--check", file] { asUser := some svc.owner, cwd := some root }
        return { out with
          syntaxChecked := out.syntaxChecked + 1
          problems := if r.code ≠ 0 then
              out.problems ++ ["syntax error in " ++ f ++ ": " ++ Deps.failureText r]
            else out.problems }
      else return out
    | none => return out
  else if endsWith f ".json" then
    match ← Exec.readFile file with
    | none => return out
    | some text =>
      if (Json.parse text).isNone then
        return { out with problems := out.problems ++ ["invalid JSON in " ++ f] }
      else return out
  else return out

def checkOne (svc : Service) (root : String) (check : PreflightCheck) (out : Outcome)
    (pkg : String) : Exec Outcome := do
  let cwd := joinPath root pkg
  match ← Exec.stat cwd with
  | none => return { out with problems := out.problems ++ [check.label ++ ": " ++ pkg ++ " does not exist"] }
  | some _ =>
    let r ← Exec.run check.command check.arguments { asUser := some svc.runAs, cwd := some cwd }
    return { out with
      checksRun := out.checksRun + 1
      problems := if r.code ≠ 0 then
          out.problems ++ [check.label ++ " failed in " ++ pkg ++ ": " ++ Deps.failureText r]
        else out.problems }

/-- `preflight.run`: never restarts or changes a unit. -/
def run (svc : Service) (root : String) (changed pkgDirs : List String) : Exec Outcome := do
  let p := svc.preflight
  let checked ← (if p.syntaxCheck ∧ changed ≠ [] then fold changed {} (syntaxOne svc root)
    else pure {} : Exec Outcome)
  if checked.problems ≠ [] then return checked
  else
    forEach pkgDirs fun pkg => forEach p.dirs fun d => do
      let dir := joinPath (joinPath root pkg) d
      match ← Exec.stat dir with
      | some _ => pure ()
      | none => Exec.mkdir dir (some svc.runAs)
    fold p.checks checked fun out check =>
      fold (check.packages.getD pkgDirs) out (checkOne svc root check)

end PreflightChecks

/-! ### Vhosts -/

namespace Nginx

structure VhostFile where
  name : String
  text : Option String
  deriving DecidableEq, Repr

/-- A step that puts back what was there. -/
inductive Undo where
  | remove (path : String)
  | write (path content : String)
  | link (target path : String)
  deriving DecidableEq, Repr

def Undo.run : Undo → Exec Unit
  | .remove path => Exec.removeFile path true
  | .write path content => Exec.writeFile path content true
  | .link target path => Exec.symlink target path true

structure Installed where
  undo : List Undo := []
  changed : List String := []
  removed : List String := []
  deriving DecidableEq, Repr

def plainName (name : String) : Bool :=
  !name.toList.isEmpty && name.toList.all fun c => c.isAlphanum || c == '.' || c == '_' || c == '-'

/-- Takes one vhost out of sites-enabled and sites-available. -/
def removeOne (inv : Inventory) (files : List VhostFile) (done : Installed) (name : String) :
    Exec Installed := do
  if ¬ plainName name ∨ files.any (·.name = name) then
    throw (.plain ("cannot remove vhost \"" ++ name ++ "\""))
  else
    let available := joinPath inv.sitesAvailable name
    let enabled := joinPath inv.sitesEnabled name
    let prevText ← Exec.readFile available true
    let target ← Exec.readlink enabled
    let there ← (match target with
      | some _ => pure true
      | none => do return (← Exec.stat enabled).isSome : Exec Bool)
    let unlinked ← (if there then do
        let undo ← (match target with
          | some destination => pure (.link destination enabled)
          | none => do return .write enabled ((← Exec.readFile enabled true).getD "") : Exec Undo)
        Exec.removeFile enabled true
        return done.undo ++ [undo]
      else pure done.undo : Exec (List Undo))
    let undo ← (match prevText with
      | some text => do
        Exec.removeFile available true
        return unlinked ++ [.write available text]
      | none => pure unlinked : Exec (List Undo))
    return { done with
      undo, removed := if there || prevText.isSome then done.removed ++ [name] else done.removed }

/-- Writes one vhost to sites-available and links it into sites-enabled. -/
def installOne (inv : Inventory) (done : Installed) (f : VhostFile) : Exec Installed := do
  if ¬ plainName f.name then throw (.plain ("vhost name \"" ++ f.name ++ "\" is not a file name"))
  else
    let available := joinPath inv.sitesAvailable f.name
    let enabled := joinPath inv.sitesEnabled f.name
    let prev ← Exec.readFile available true
    let written ← (if prev ≠ f.text then
        match f.text with
        | none => throw (.plain "the data to write must be a string")
        | some text => do
          Exec.writeFile available text true
          return { done with
            undo := done.undo ++ [match prev with
              | none => .remove available
              | some content => .write available content]
            changed := done.changed ++ [f.name] }
      else pure done : Exec Installed)
    match ← Exec.stat enabled with
    | some _ => return written
    | none =>
      Exec.symlink available enabled true
      return { written with
        undo := written.undo ++ [.remove enabled]
        changed := if f.name ∈ written.changed then written.changed else written.changed ++ [f.name] }

/-- `nginx.install`: `nginx -t` decides whether the new files stay. -/
def install (inv : Inventory) (files : List VhostFile) (remove : List String) : Exec Unit := do
  let removed ← fold remove {} (removeOne inv files)
  let done ← fold files removed (installOne inv)
  if done.changed = [] ∧ done.removed = [] then pure ()
  else
    let t ← Exec.run inv.nginxBin ["-t"] { privileged := true }
    if t.code ≠ 0 then
      forEach done.undo.reverse Undo.run
      throw (.plain ("nginx -t failed; the previous vhost files were restored:\n" ++
        trimText (t.stderr ++ t.stdout)))
    else Systemd.reloadNginx

end Nginx

end OpenVibeHost
