import OpenVibeHost.Runs

/-! `ovhost self-update`: the install of ovhost itself is brought to `origin/main`. What a history
of updates leaves there is read off its events: the commit that is checked out, and the one its
dependencies were installed for. -/
namespace OpenVibeHost.SelfUpdate
open Effects Program

def remote : String := "origin"

def branch : String := "main"

/-- `NPM_CI`. -/
def npmCi : List String := ["ci", "--omit=dev", "--no-audit", "--no-fund"]

/-- The remote branch, `origin/main`. -/
def tracked : String := remote ++ "/" ++ branch

structure Report where
  installDir : String
  branch : String
  remote : String
  oldSha : String
  newSha : String
  commits : Nat
  upToDate : Bool
  dryRun : Bool
  updated : Bool := false
  lockfileRestored : Bool := false
  npm : Option Nat := none
  deriving DecidableEq, Repr

/-- The directory of `installDirFor`, of the script's real path. -/
def installDirFor (self : String) : String := dirName (dirName self)

def refuse {α : Type} (message : String) : Exec α := throw (opError message .usage)

/-- The checkout that ovhost runs from. -/
def installOf (self : String) : Exec Checkout := do
  let dir := installDirFor self
  if baseName self ≠ "ovhost" ∨ baseName (dirName self) ≠ "bin" then
    refuse ((if self ≠ "" then self else "ovhost's own path") ++ " is not <install>/bin/ovhost — self-update " ++
      "only updates the installed CLI (README \"Installing on the host\")")
  else do
    let root ← Exec.isRoot
    if ¬ root then
      refuse ("self-update must run as root (sudo ovhost self-update): the install is root-owned and it " ++
        "replaces node_modules")
    else
      match ← Exec.stat dir with
      | some st =>
        if st.isDir then pure { dir, owner := (st.owner.filter (· ≠ "")).getD "root" }
        else refuse (dir ++ " is not a directory — cannot self-update")
      | none => refuse (dir ++ " is not a directory — cannot self-update")

/-- `text.split('\n')[0]`. -/
def firstLine (text : String) : String := String.ofList (text.toList.takeWhile (· ≠ '\n'))

/-- The commit of the checkout, which is on main and has no changes of its own. -/
def cleanHead (g : Checkout) : Exec String := do
  let oldSha ← attempt (Git.getHead g) fun err => refuse (g.dir ++ " is not a git checkout: " ++ firstLine err.message)
  let current ← Git.getBranch g
  if current ≠ branch then
    refuse (g.dir ++ " is on branch \"" ++ current ++ "\", not \"" ++ branch ++ "\" — refusing to self-update " ++
      "(put it back on " ++ branch ++ " by hand)")
  else do
    let dirty ← Git.dirtyFiles g
    if dirty ≠ [] then
      refuse (g.dir ++ " has local changes (" ++ ", ".intercalate (dirty.take 5) ++
        (if 5 < dirty.length then ", +" ++ toString (dirty.length - 5) ++ " more" else "") ++
        ") — refusing to self-update; nothing was fetched or changed")
    else pure oldSha

/-- The commit of `origin/main`, fetched. -/
def fetchedHead (g : Checkout) : Exec String := do
  attempt (do let _ ← Git.mustRun g (.fetch remote branch)) fun err =>
    refuse ("git fetch " ++ remote ++ " " ++ branch ++ " failed in " ++ g.dir ++ ": " ++ err.message)
  let newSha ← Git.resolve g tracked
  if newSha = "" then refuse (tracked ++ " not found in " ++ g.dir) else pure newSha

/-- The last three lines of what a command said. -/
def lastLines (r : RunResult) : String :=
  let lines := (trimText (if r.stderr ≠ "" then r.stderr else r.stdout)).toList.splitOn '\n'
  " / ".intercalate ((lines.drop (lines.length - 3)).map String.ofList)

/-- `npm ci`, and the lockfile put back where it rewrote it. -/
def installDeps (g : Checkout) (report : Report) : Exec Report := do
  let npm ← Exec.run "npm" npmCi { asUser := some g.owner, cwd := some g.dir }
  if npm.code ≠ 0 then
    throw (opError ("the code is now at " ++ sha12 report.newSha ++ ", but \"npm ci --omit=dev --no-audit --no-fund\" " ++
      "failed (exit " ++ toString npm.code ++ ") in " ++ g.dir ++ ": " ++ lastLines npm ++ " — re-run it there by hand")
      .validation)
  else do
    let dirty ← Git.dirtyFiles g
    if "package-lock.json" ∈ dirty then do
      let _ ← Git.mustRun g (.checkout ["package-lock.json"])
      return { report with updated := true, npm := some npm.code, lockfileRestored := true }
    else return { report with updated := true, npm := some npm.code }

/-- The update, where `origin/main` is another commit. -/
def moveOn (g : Checkout) (report : Report) : Exec Report := do
  let ff ← Exec.run "git" ["-C", g.dir, "merge-base", "--is-ancestor", report.oldSha, report.newSha]
    { asUser := some g.owner }
  if ff.code ≠ 0 then
    refuse (g.dir ++ " has diverged from " ++ tracked ++ " (" ++ sha12 report.oldSha ++ " is not an ancestor of " ++
      sha12 report.newSha ++ ") — refusing, not a fast-forward; fix it by hand")
  else if report.dryRun then return report
  else do
    attempt (do let _ ← Git.mustRun g (.ffMerge report.newSha)) fun err =>
      refuse ("git merge --ff-only " ++ sha12 report.newSha ++ " failed in " ++ g.dir ++ ": " ++ err.message)
    installDeps g report

/-- `selfUpdate`. -/
def selfUpdate (self : String) (dryRun : Bool) : Exec Report := do
  let g ← installOf self
  let oldSha ← cleanHead g
  let newSha ← fetchedHead g
  let commits ← (if newSha = oldSha then pure [] else Git.commitsBetween g oldSha newSha : Exec (List String))
  let report : Report := { installDir := g.dir, branch, remote, oldSha, newSha, commits := commits.length,
                           upToDate := newSha = oldSha, dryRun }
  if newSha = oldSha then return report else moveOn g report

/-! ### What the events leave -/

/-- The install as its events leave it: the commit checked out, the one its dependencies are
installed for, the one that `origin/main` was last found at, and whether the last `npm ci` failed. -/
structure Install where
  head : String
  deps : Option String
  origin : String := ""
  failed : Bool := false
  deriving DecidableEq, Repr

/-- A git command in the install: a merge that succeeds moves the checkout. -/
def Install.git (i : Install) (command : Git) (r : RunResult) : Install :=
  match command with
  | .ffMerge sha => if r.code = 0 then { i with head := sha } else i
  | .revParse ref => if ref = tracked ∧ r.code = 0 then { i with origin := trimText r.stdout } else i
  | _ => i

/-- `npm ci` in the install: it removes what is there first. -/
def Install.npm (i : Install) (r : RunResult) : Install :=
  if r.code = 0 then { i with deps := some i.head, failed := false } else { i with deps := none, failed := true }

def Install.after (dir : String) (i : Install) (event : Event Machine) : Install :=
  match event with
  | ⟨.git other _ _ command, answer, _⟩ => if other = dir then i.git command answer else i
  | ⟨.run cmd args options, answer, _⟩ =>
    if cmd = "npm" ∧ args = npmCi ∧ options.cwd = some dir then i.npm answer else i
  | _ => i

def Install.afterAll (dir : String) (start : Install) (events : List (Event Machine)) : Install :=
  events.foldl (Install.after dir) start

/-- What `git rev-parse HEAD` answers in the install is the commit that is checked out. -/
def Honest (env : Environment Machine) (dir : String) (start : Install) : Prop :=
  ∀ (trace : List (Event Machine)) (safe : Bool) (owner : String) (r : RunResult),
    env.answer trace (.git dir safe owner .head) = r → r.code = 0 →
      trimText r.stdout = (start.afterAll dir trace).head

/-- The world after a history of updates, each with or without `--dry-run`, whatever came of each. -/
def afterRuns (env : Environment Machine) (self : String) : World Machine Unit → List Bool → World Machine Unit
  | w, [] => w
  | w, dryRun :: later => afterRuns env self (Program.run (selfUpdate self dryRun) env w).2 later

section
variable {env : Environment Machine} {dir : String} {start i : Install}

theorem afterAll_snoc (events : List (Event Machine)) (event : Event Machine) :
    start.afterAll dir (events ++ [event]) = (start.afterAll dir events).after dir event := by
  simp [Install.afterAll, List.foldl_append]

/-- The events so far have left the install at `i`. -/
def At (dir : String) (start i : Install) (w : World Machine Unit) : Prop := start.afterAll dir w.trace = i

theorem at_present (dir : String) (start : Install) (w : World Machine Unit) : At dir start (start.afterAll dir w.trace) w := rfl

theorem Install.git_failed {command : Git} {r : RunResult} (failed : r.code ≠ 0) : i.git command r = i := by
  unfold Install.git
  split
  · exact if_neg failed
  · exact if_neg fun both => failed both.2
  · rfl

/-! ### What each call does to the install -/

theorem meets_tryRun {g : Checkout} {command : Git} {err : Failure → World Machine Unit → Prop} (inDir : g.dir = dir) :
    Meets env (At dir start i) (Git.tryRun g command) (fun r => At dir start (i.git command r)) err := by
  rintro w rfl
  refine (afterAll_snoc _ _).trans ?_
  rw [inDir]
  exact if_pos rfl

theorem meets_mustRun {g : Checkout} {command : Git} (inDir : g.dir = dir) :
    Meets env (At dir start i) (Git.mustRun g command)
      (fun r w => r.code = 0 ∧ At dir start (i.git command r) w) (fun _ => At dir start i) := by
  unfold Git.mustRun
  refine meets_bind (meets_tryRun inDir) fun r => ?_
  split
  · rename_i failed
    exact meets_throw fun w at' => by rwa [Install.git_failed failed] at at'
  · rename_i done
    exact meets_pure fun w at' => ⟨not_not.mp done, at'⟩

/-- A git command that leaves the install as it is. -/
theorem meets_mustRun_still {g : Checkout} {command : Git} (inDir : g.dir = dir)
    (still : ∀ r, i.git command r = i) :
    Meets env (At dir start i) (Git.mustRun g command) (fun _ => At dir start i) (fun _ => At dir start i) :=
  (meets_mustRun inDir).weaken (fun _ h => h) (fun r _ ⟨_, at'⟩ => still r ▸ at') fun _ _ h => h

theorem meets_dirtyFiles {g : Checkout} (inDir : g.dir = dir) :
    Meets env (At dir start i) (Git.dirtyFiles g) (fun _ => At dir start i) (fun _ => At dir start i) :=
  meets_bind (meets_mustRun_still inDir fun _ => rfl) fun _ => meets_pure fun _ h => h

theorem meets_run_still {cmd : String} {args : List String} {options : RunOptions}
    {err : Failure → World Machine Unit → Prop} (other : ¬ (cmd = "npm" ∧ args = npmCi ∧ options.cwd = some dir)) :
    Meets env (At dir start i) (Exec.run cmd args options) (fun _ => At dir start i) err := by
  rintro w rfl
  exact (afterAll_snoc _ _).trans (if_neg other)

theorem meets_tryHead {g : Checkout} (inDir : g.dir = dir) (honest : Honest env dir start) :
    Meets env (At dir start i) (Git.tryRun g .head)
      (fun r w => (r.code = 0 → trimText r.stdout = i.head) ∧ At dir start i w) (fun _ => At dir start i) := by
  rintro w rfl
  subst inDir
  have said := honest w.trace g.safeDirectory g.owner
  have at' := @meets_tryRun env g.dir start (start.afterAll g.dir w.trace) g .head (fun _ _ => True) rfl w rfl
  exact ⟨said _ rfl, at'⟩

theorem meets_getHead {g : Checkout} (inDir : g.dir = dir) (honest : Honest env dir start) :
    Meets env (At dir start i) (Git.getHead g) (fun sha w => sha = i.head ∧ At dir start i w)
      (fun _ => At dir start i) := by
  have answered : Meets env (At dir start i) (Git.mustRun g .head)
      (fun r w => trimText r.stdout = i.head ∧ At dir start i w) (fun _ => At dir start i) := by
    unfold Git.mustRun
    refine meets_bind (meets_tryHead inDir honest) fun r => ?_
    split
    · exact meets_throw fun _ h => h.2
    · rename_i done
      exact meets_pure fun _ ⟨said, at'⟩ => ⟨said (not_not.mp done), at'⟩
  exact meets_bind answered fun r => meets_pure fun _ h => h

/-- A refusal changes nothing. -/
theorem meets_refuse {α : Type} {message : String} {pre : World Machine Unit → Prop} {ok : α → World Machine Unit → Prop} :
    Meets env pre (refuse message) ok (fun _ => pre) := meets_throw fun _ h => h

theorem meets_installOf (self : String) : Meets env (At dir start i) (installOf self)
    (fun g w => g.dir = installDirFor self ∧ At dir start i w) (fun _ => At dir start i) := by
  unfold installOf
  dsimp only
  split
  · exact meets_refuse
  · have root : Meets env (At dir start i) Exec.isRoot (fun _ => At dir start i) (fun _ => At dir start i) := by
      rintro w rfl
      exact afterAll_snoc _ _
    refine meets_bind root fun root => ?_
    split
    · exact meets_refuse
    · have found : Meets env (At dir start i) (Exec.stat (installDirFor self)) (fun _ => At dir start i)
          (fun _ => At dir start i) := by
        rintro w rfl
        exact afterAll_snoc _ _
      refine meets_bind found fun st => ?_
      split
      · split
        · refine meets_pure fun _ at' => ⟨?_, at'⟩
          dsimp only
        · exact meets_refuse
      · exact meets_refuse

theorem meets_cleanHead {g : Checkout} (inDir : g.dir = dir) (honest : Honest env dir start) :
    Meets env (At dir start i) (cleanHead g) (fun sha w => sha = i.head ∧ At dir start i w)
      (fun _ => At dir start i) := by
  unfold cleanHead
  refine meets_bind (meets_attempt (meets_getHead inDir honest) fun _ => meets_refuse) fun sha => ?_
  refine meets_given (fun _ h => h.1) fun same => ?_
  have current : Meets env (At dir start i) (Git.getBranch g) (fun _ => At dir start i) (fun _ => At dir start i) :=
    meets_bind (meets_mustRun_still inDir fun _ => rfl) fun _ => meets_pure fun _ h => h
  refine meets_bind (current.weaken (fun _ h => h.2) (fun _ _ h => h) fun _ _ h => h) fun _ => ?_
  split
  · exact meets_refuse
  · refine meets_bind (meets_dirtyFiles inDir) fun dirty => ?_
    split
    · exact meets_refuse
    · exact meets_pure fun _ at' => ⟨same, at'⟩

/-- `origin/main` is what it is found at. -/
def Install.found (i : Install) (sha : String) : Install := { i with origin := sha }

theorem meets_fetchedHead {g : Checkout} (inDir : g.dir = dir) :
    Meets env (At dir start i) (fetchedHead g) (fun sha => At dir start (i.found sha))
      (fun _ w => ∃ sha, At dir start (i.found sha) w) := by
  have same : ∀ w, At dir start i w → At dir start (i.found i.origin) w := fun _ h => h
  unfold fetchedHead
  refine meets_bind (M := fun _ => At dir start i) (meets_attempt (T := fun _ => At dir start i) ?_ fun _ =>
    meets_throw fun w at' => ⟨i.origin, same w at'⟩) fun _ => ?_
  · exact meets_bind (meets_mustRun_still inDir fun _ => rfl) fun _ => meets_pure fun _ h => h
  refine meets_bind (M := fun sha => At dir start (i.found sha)) ?_ fun sha => ?_
  · unfold Git.resolve
    refine meets_bind ((meets_mustRun inDir).weaken (fun _ h => h) (fun _ _ h => h)
      fun _ w at' => ⟨i.origin, same w at'⟩) fun r => meets_pure fun w ⟨done, at'⟩ => ?_
    rwa [Install.git, if_pos ⟨rfl, done⟩] at at'
  · split
    · exact meets_throw fun _ at' => ⟨sha, at'⟩
    · exact meets_pure fun _ at' => at'

/-- The dependencies are those of the commit exactly where the last `npm ci` did not fail. -/
def Sound (i : Install) : Prop := i.deps = some i.head ↔ i.failed = false

/-- The install is at `origin/main`, with its dependencies. -/
def UpToDate (i : Install) : Prop := i.head = i.origin ∧ i.deps = some i.origin

/-- What an update that returns leaves of an install that was at `i`. -/
def Left (i : Install) (dryRun : Bool) (report : Report) (final : Install) : Prop :=
  Sound final ∧ (dryRun = false →
    report.newSha = final.origin ∧ (UpToDate final ↔ final.origin ≠ i.head ∨ i.failed = false))

theorem sound_npm (i : Install) (r : RunResult) : Sound (i.npm r) := by
  unfold Install.npm
  split
  · exact ⟨fun _ => rfl, fun _ => rfl⟩
  · exact ⟨nofun, nofun⟩

theorem meets_installDeps {g : Checkout} {report : Report} (inDir : g.dir = dir) :
    Meets env (At dir start i) (installDeps g report)
      (fun report' w => report'.newSha = report.newSha ∧
        At dir start { i with deps := some i.head, failed := false } w)
      (fun _ w => ∃ final, At dir start final w ∧ Sound final) := by
  have npm : Meets env (At dir start i) (Exec.run "npm" npmCi { asUser := some g.owner, cwd := some g.dir })
      (fun r => At dir start (i.npm r)) (fun _ w => ∃ final, At dir start final w ∧ Sound final) := by
    rintro w rfl
    refine (afterAll_snoc _ _).trans ?_
    rw [inDir]
    exact if_pos ⟨rfl, rfl, rfl⟩
  have throws (i : Install) (sound : Sound i) : ∀ (e : Failure) w, At dir start i w →
      ∃ final, At dir start final w ∧ Sound final := fun _ _ at' => ⟨i, at', sound⟩
  unfold installDeps
  refine meets_bind npm fun r => ?_
  split
  · exact meets_throw fun w at' => ⟨_, at', sound_npm i r⟩
  · rename_i done
    have moved : i.npm r = { i with deps := some i.head, failed := false } := if_pos (not_not.mp done)
    rw [moved]
    have sound := moved ▸ sound_npm i r
    refine meets_bind ((meets_dirtyFiles inDir).weaken (fun _ h => h) (fun _ _ h => h) (throws _ sound))
      fun dirty => ?_
    split
    · refine meets_bind ((meets_mustRun_still inDir fun _ => rfl).weaken (fun _ h => h) (fun _ _ h => h)
        (throws _ sound)) fun _ => ?_
      exact meets_pure fun _ h => ⟨rfl, h⟩
    · exact meets_pure fun _ h => ⟨rfl, h⟩

theorem meets_moveOn {g : Checkout} {report : Report} (inDir : g.dir = dir) (sound : Sound i) :
    Meets env (At dir start i) (moveOn g report)
      (fun report' w => report'.newSha = report.newSha ∧ if report.dryRun then At dir start i w
        else At dir start { i with head := report.newSha, deps := some report.newSha, failed := false } w)
      (fun _ w => ∃ final, At dir start final w ∧ Sound final) := by
  have base : Meets env (At dir start i)
      (Exec.run "git" ["-C", g.dir, "merge-base", "--is-ancestor", report.oldSha, report.newSha]
        { asUser := some g.owner }) (fun _ => At dir start i)
      (fun _ w => ∃ final, At dir start final w ∧ Sound final) :=
    meets_run_still fun both => absurd both.1 (by decide)
  unfold moveOn
  refine meets_bind base fun ff => ?_
  split
  · exact meets_throw fun w at' => ⟨i, at', sound⟩
  split
  · exact meets_pure fun w at' => ⟨rfl, at'⟩
  · refine meets_bind (M := fun _ => At dir start { i with head := report.newSha }) ?_ fun _ => ?_
    · refine meets_attempt (T := fun _ => At dir start i) ?_ fun _ => meets_throw fun w at' => ⟨i, at', sound⟩
      refine meets_bind (meets_mustRun inDir) fun r => meets_pure fun w ⟨done, at'⟩ => ?_
      rwa [Install.git, if_pos done] at at'
    · refine (meets_installDeps inDir).weaken (fun _ h => h) (fun _ _ h => h) fun _ _ h => h

/-- An update that returns leaves what `Left` says; one that fails leaves the install sound. -/
theorem meets_selfUpdate {self : String} (dryRun : Bool) (inDir : installDirFor self = dir)
    (honest : Honest env dir start) (sound : Sound i) :
    Meets env (At dir start i) (selfUpdate self dryRun)
      (fun report w => ∃ final, At dir start final w ∧ Left i dryRun report final)
      (fun _ w => ∃ final, At dir start final w ∧ Sound final) := by
  have still : ∀ w, At dir start i w → ∃ final, At dir start final w ∧ Sound final :=
    fun _ at' => ⟨i, at', sound⟩
  have foundSound (sha : String) : Sound (i.found sha) := sound
  unfold selfUpdate
  refine meets_bind ((meets_installOf self).weaken (fun _ h => h) (fun _ _ h => h) fun _ => still) fun g => ?_
  refine meets_given (fun _ h => h.1.trans inDir) fun inDir => ?_
  refine meets_bind ((meets_cleanHead inDir honest).weaken (fun _ h => h.2) (fun _ _ h => h) fun _ => still)
    fun oldSha => ?_
  refine meets_given (fun _ h => h.1) fun old => ?_
  refine meets_bind ((meets_fetchedHead inDir).weaken (fun _ h => h.2) (fun _ _ h => h)
    fun _ w ⟨sha, at'⟩ => ⟨_, at', foundSound sha⟩) fun newSha => ?_
  refine meets_bind (M := fun _ => At dir start (i.found newSha)) ?_ fun commits => ?_
  · split
    · exact meets_pure fun _ h => h
    · exact meets_bind (meets_tryRun inDir) fun _ => meets_pure fun _ h => h
  split
  · rename_i upToDate
    refine meets_pure fun w at' => ⟨_, at', foundSound newSha, fun _ => ⟨rfl, ?_⟩⟩
    have same : i.head = newSha := (upToDate.trans old).symm
    have sound' : i.deps = some newSha ↔ i.failed = false := same ▸ sound
    simp [UpToDate, Install.found, same, sound']
  · rename_i moved
    refine (meets_moveOn inDir (foundSound newSha)).weaken (fun _ h => h) (fun report w ⟨same, at'⟩ => ?_)
      fun _ _ h => h
    cases dryRun with
    | true => exact ⟨_, at', foundSound newSha, nofun⟩
    | false =>
      have differ : newSha ≠ i.head := old ▸ moved
      refine ⟨_, at', ⟨fun _ => rfl, fun _ => rfl⟩, fun _ => ⟨same, ?_⟩⟩
      simp [UpToDate, Install.found, differ]

/-- A history of updates leaves the install sound. -/
theorem sound_afterRuns {self : String} (inDir : installDirFor self = dir) (honest : Honest env dir start)
    {w : World Machine Unit} (sound : Sound (start.afterAll dir w.trace)) (history : List Bool) :
    Sound (start.afterAll dir (afterRuns env self w history).trace) := by
  induction history generalizing w with
  | nil => exact sound
  | cons dryRun later ih =>
    refine ih ?_
    have ended := meets_selfUpdate dryRun inDir honest sound w (at_present dir start w)
    cases ran : Program.run (selfUpdate self dryRun) env w with
    | mk result next =>
      rw [ran] at ended
      cases result with
      | ok report =>
        obtain ⟨final, at', left, -⟩ := ended
        exact at' ▸ left
      | error e =>
        obtain ⟨final, at', left⟩ := ended
        exact at' ▸ left

end

/-- An install whose dependencies are those of its commit. -/
def Install.matching (sha : String) : Install := { head := sha, deps := some sha }

/-- After any history of updates, one that returns leaves the install at `origin/main` with its
dependencies exactly where it finds another commit there, or the last `npm ci` before it did not
fail. -/
theorem update_leaves_install {env : Environment Machine} {self sha : String}
    (honest : Honest env (installDirFor self) (.matching sha)) (history : List Bool) {report : Report}
    {w final : World Machine Unit} (reached : afterRuns env self ⟨(), 0, []⟩ history = w)
    (ran : Program.run (selfUpdate self false) env w = (.ok report, final)) :
    let before := (Install.matching sha).afterAll (installDirFor self) w.trace
    let after := (Install.matching sha).afterAll (installDirFor self) final.trace
    report.newSha = after.origin ∧ (UpToDate after ↔ after.origin ≠ before.head ∨ before.failed = false) := by
  subst reached
  intro before after
  have sound : Sound before := sound_afterRuns rfl honest ⟨fun _ => rfl, fun _ => rfl⟩ history
  have ended := meets_selfUpdate false rfl honest sound _ (at_present _ _ _)
  rw [ran] at ended
  obtain ⟨left, at', -, leaves⟩ := ended
  have reached : after = left := at'
  rw [reached]
  exact leaves rfl

/-- What `git rev-parse HEAD` says of a commit, where it is a name that is not trimmed. -/
def headAnswer (head : String) : RunResult := if trimText head = head then { stdout := head } else { code := 1 }

/-- The answers of a host whose remote is at `upstream`, and where `npm ci` ends with `code`. -/
def answersAt (head upstream : String) (code : Nat) : (call : Call) → call.Answer
  | .git _ _ _ .head => headAnswer head
  | .git _ _ _ .branch => ({ stdout := "main" } : RunResult)
  | .git _ _ _ (.revParse _) => ({ stdout := upstream } : RunResult)
  | .run cmd _ _ => ({ code := if cmd = "npm" then code else 0 } : RunResult)
  | .stat _ => some { isFile := false, isDir := true, owner := some "root" }
  | call => steady call

def hostAt (dir sha upstream : String) (code : Nat) : Environment Machine where
  answer trace call := answersAt ((Install.matching sha).afterAll dir trace).head upstream code call
  takes _ _ := 0

theorem headAnswer_ok {head : String} (done : (headAnswer head).code = 0) : trimText (headAnswer head).stdout = head := by
  unfold headAnswer at done ⊢
  split at done
  · rename_i same
    rwa [if_pos same]
  · exact nomatch done

theorem hostAt_head (dir sha upstream : String) (code : Nat) (trace : List (Event Machine)) (safe : Bool) (owner : String) :
    (hostAt dir sha upstream code).answer trace (.git dir safe owner .head) =
      headAnswer ((Install.matching sha).afterAll dir trace).head := by
  unfold hostAt
  dsimp only
  unfold answersAt
  rfl

theorem honest_hostAt (dir sha upstream : String) (code : Nat) :
    Honest (hostAt dir sha upstream code) dir (.matching sha) := by
  intro trace safe owner r answered done
  have same : r = headAnswer ((Install.matching sha).afterAll dir trace).head :=
    answered.symm.trans (hostAt_head dir sha upstream code trace safe owner)
  rw [same] at done ⊢
  exact headAnswer_ok done

def ovhost : String := "/usr/local/lib/openvibe-host/bin/ovhost"

/-- The world after a first update, on a host where `npm ci` ends with `code`. -/
def afterFirst (code : Nat) : World Machine Unit :=
  (Program.run (selfUpdate ovhost false) (hostAt "/usr/local/lib/openvibe-host" "a1" "b2" code) ⟨(), 0, []⟩).2

def firstReport : Report where
  installDir := "/usr/local/lib/openvibe-host"
  branch := "main"
  remote := "origin"
  oldSha := "a1"
  newSha := "b2"
  commits := 0
  upToDate := false
  dryRun := false
  updated := true
  npm := some 0

theorem first_update_ran : Program.run (selfUpdate ovhost false)
    (hostAt "/usr/local/lib/openvibe-host" "a1" "b2" 0) ⟨(), 0, []⟩ = (.ok firstReport, afterFirst 0) := by
  refine Prod.ext ?_ rfl
  rfl

/-- The first update finds a new commit, and leaves the install at it. -/
theorem first_update_leaves_install :
    let before := (Install.matching "a1").afterAll (installDirFor ovhost) []
    let after := (Install.matching "a1").afterAll (installDirFor ovhost) (afterFirst 0).trace
    firstReport.newSha = after.origin ∧ (UpToDate after ↔ after.origin ≠ before.head ∨ before.failed = false) :=
  @update_leaves_install (hostAt "/usr/local/lib/openvibe-host" "a1" "b2" 0) ovhost "a1"
    (honest_hostAt "/usr/local/lib/openvibe-host" "a1" "b2" 0) [] firstReport ⟨(), 0, []⟩ (afterFirst 0) rfl first_update_ran

/-- After an update whose `npm ci` fails, the next one says that the install is up to date, without
dependencies. -/
theorem failed_install_stays : ∃ (env : Environment Machine) (self sha : String) (history : List Bool)
    (report : Report) (final : World Machine Unit), Honest env (installDirFor self) (.matching sha) ∧
      Program.run (selfUpdate self false) env (afterRuns env self ⟨(), 0, []⟩ history) = (.ok report, final) ∧
      report.upToDate = true ∧ ((Install.matching sha).afterAll (installDirFor self) final.trace).deps = none :=
  ⟨hostAt "/usr/local/lib/openvibe-host" "a1" "b2" 1, ovhost, "a1", [false], _, _,
    honest_hostAt "/usr/local/lib/openvibe-host" "a1" "b2" 1, rfl, rfl, rfl⟩

end OpenVibeHost.SelfUpdate
