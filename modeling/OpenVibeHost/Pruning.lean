import OpenVibeHost.Runs

/-! Which releases `prune` may remove. What it must keep is said of the host as it is; what
it keeps is found out by calls that may fail, and a failed one counts as "not in use". -/
namespace OpenVibeHost.Pruning
open Effects Program ReleaseLayout

/-! ### The host -/

/-- What there is on a host while releases are pruned. -/
structure Host where
  /-- The directory of the release that `current` points to. -/
  current : Option String
  /-- The main process of a unit, 0 where there is none. -/
  pid : String → Nat
  /-- The directory that a process runs in. -/
  cwd : Nat → String
  /-- The instances of a worker template that are up. -/
  workers : String → List String

/-- A main process, or a worker instance, of the service runs from the release. -/
def RunsFrom (host : Host) (svc : Service) (rel : ReleaseConfig) (id : String) : Prop :=
  (∃ unit ∈ svc.units, host.pid unit ≠ 0 ∧ id ≠ "" ∧
    firstBelow rel.releasesDir (host.cwd (host.pid unit)) = some id) ∨
  ∃ worker ∈ svc.workerUnits, endsWith worker "@.service" = true ∧
    ∃ unit ∈ host.workers worker, instanceOf unit = some id

/-- A release that pruning must leave. -/
def Needed (host : Host) (svc : Service) (rel : ReleaseConfig) (keepIds : List String)
    (id : String) : Prop :=
  host.current.map baseName = some id ∨ id ∈ keepIds ∨ RunsFrom host svc rel id

/-! ### What it answers -/

/-- The release directory that a link's target is. -/
def linkedRelease (rel : ReleaseConfig) (target : String) : Option String :=
  let dir := resolvePath (dirName rel.current) target
  if beginsWith dir (rel.releasesDir ++ "/") && decide (dirName dir = rel.releasesDir) then some dir
  else none

abbrev cwdLink (pid : Nat) : String := "/proc/" ++ toString pid ++ "/cwd"

def mainPid (r : RunResult) : Nat := ((Systemd.property r.stdout "MainPID").bind (·.toNat?)).getD 0

def instancePattern (worker : String) : String :=
  if endsWith worker "@.service" then Systemd.stem worker ++ "*.service" else worker

def instancesIn (r : RunResult) : List Systemd.Instance :=
  (linesOf r.stdout).filterMap fun line =>
    match Systemd.words line with
    | unit :: rest =>
      if endsWith unit ".service" then some { unit, active := rest.getD 1 "", sub := rest.getD 2 "" }
      else none
    | [] => none

def live (i : Systemd.Instance) : Bool :=
  decide (¬ (i.active ∈ ["inactive", "dead"] ∧ i.sub = "dead"))

/-- Every query that is answered, is answered as the host is. -/
structure Truthful (env : Environment Machine) (rel : ReleaseConfig) (host : Host) : Prop where
  link : ∀ past target, env.answer past (.readlink rel.current) = some target → target ≠ "" →
    linkedRelease rel target = host.current
  directory : ∀ past dir st, host.current = some dir →
    env.answer past (.stat dir) = some st → st.isDir = true
  main : ∀ past unit, RunResult.code (env.answer past (.systemctl .show (some unit))) = 0 →
    mainPid (env.answer past (.systemctl .show (some unit))) = host.pid unit
  cwd : ∀ past pid dir, env.answer past (.readlink (cwdLink pid)) = some dir → dir = host.cwd pid
  workers : ∀ past worker,
    RunResult.code (env.answer past (.systemctl .listUnits (some (instancePattern worker)))) = 0 →
      ∀ unit ∈ host.workers worker,
        ∃ i ∈ instancesIn (env.answer past (.systemctl .listUnits (some (instancePattern worker)))),
          i.unit = unit ∧ live i = true

/-- A query that failed, or was not answered. -/
inductive Unanswered (rel : ReleaseConfig) (host : Host) : Event Machine → Prop
  | link {target t} (none : target = none ∨ target = some "") :
      Unanswered rel host ⟨.readlink rel.current, target, t⟩
  | directory {dir t} (current : host.current = some dir) : Unanswered rel host ⟨.stat dir, none, t⟩
  | main {unit t} {r : RunResult} (failed : r.code ≠ 0) :
      Unanswered rel host ⟨.systemctl .show (some unit), r, t⟩
  | cwd {pid t} : Unanswered rel host ⟨.readlink (cwdLink pid), none, t⟩
  | workers {pattern t} {r : RunResult} (failed : r.code ≠ 0) :
      Unanswered rel host ⟨.systemctl .listUnits (some pattern), r, t⟩

/-! ### What pruning finds out -/

/-- What is found out before the first release is removed: the id of the current one, and
which are in use. -/
def survey (svc : Service) (rel : ReleaseConfig) : Exec (Option String × List String) := do
  let cur ← currentRelease svc rel
  let curId := match cur with
    | .ok cur => some cur.id
    | .error _ => none
  let inUse ← releasesInUse svc rel
  return (curId, inUse)

/-- A release that pruning knows to leave. -/
def Known (keepIds : List String) (found : Option String × List String) (id : String) : Prop :=
  some id = found.1 ∨ id ∈ keepIds ∨ id ∈ found.2

instance (keepIds : List String) (found : Option String × List String) (id : String) :
    Decidable (Known keepIds found id) := by unfold Known; infer_instance

/-- One release beyond `keep`. -/
def sweepOne (svc : Service) (rel : ReleaseConfig) (keepIds : List String)
    (found : Option String × List String) (removed : List String) (r : Listed) :
    Exec (List String) :=
  if Known keepIds found r.id then return removed
  else do
    let gone ← Git.removeWorktree (gitClone svc rel) r.dir
    whenever (gone = false) do
      let _ ← Exec.run "rm" ["-rf", "--", r.dir] { privileged := true }
    return removed ++ [r.id]

theorem prune_eq (svc : Service) (rel : ReleaseConfig) (keepIds : List String) :
    prune svc rel keepIds = do
      let list ← listReleases rel
      let found ← survey svc rel
      let removed ← fold (list.drop rel.keep) [] (sweepOne svc rel keepIds found)
      let _ ← Git.tryRun (gitClone svc rel) .worktreePrune
      return removed := by
  unfold prune survey
  simp only [bind_assoc, pure_bind]
  rfl

theorem asks_main (unit : String) :
    attempt (do return (← Systemd.showUnit unit).mainPid) (fun _ => pure 0) =
      (ask (S := Machine) (.systemctl .show (some unit)) mainPid : Exec Nat) := by
  unfold Systemd.showUnit
  rw [systemctl_safe rfl rfl]
  rfl

theorem asks_instances (worker : String) :
    attempt (Systemd.instances worker) (fun _ => pure []) =
      (ask (S := Machine) (.systemctl .listUnits (some (instancePattern worker))) fun r =>
        if RunResult.code r ≠ 0 then [] else instancesIn r : Exec (List Systemd.Instance)) := by
  unfold Systemd.instances
  dsimp only
  rw [systemctl_safe rfl rfl]
  exact attempt_ask

section
variable {env : Environment Machine} {svc : Service} {rel : ReleaseConfig} {host : Host}
  {base : List (Event Machine)}

/-- Every query was answered. -/
def Determined (rel : ReleaseConfig) (host : Host) (events : List (Event Machine)) : Prop :=
  ∀ event ∈ events, ¬ Unanswered rel host event

theorem Determined.earlier {before later : List (Event Machine)}
    (determined : Determined rel host (before ++ later)) : Determined rel host before :=
  fun event member => determined event (List.mem_append_left later member)

theorem Determined.last {before : List (Event Machine)} {event : Event Machine}
    (determined : Determined rel host (before ++ [event])) : ¬ Unanswered rel host event :=
  determined event (by simp)

/-- The main processes that are found to run from a release. -/
theorem meets_mine (truthful : Truthful env rel host) (used : List String) (unit : String)
    (done : List String) :
    Meets env (Since base fun more _ => Determined rel host more → ∀ u ∈ done, ∀ id,
        host.pid u ≠ 0 → id ≠ "" → firstBelow rel.releasesDir (host.cwd (host.pid u)) = some id →
          id ∈ used)
      (do
        let pid ← attempt (do return (← Systemd.showUnit unit).mainPid) fun _ => pure 0
        if pid = 0 then return used
        else
          let cwd ← Exec.readlink ("/proc/" ++ toString pid ++ "/cwd")
          return used ++ ((cwd.bind (firstBelow rel.releasesDir)).filter (· ≠ "")).toList)
      (fun used => Since base fun more _ => Determined rel host more → ∀ u ∈ done ++ [unit], ∀ id,
        host.pid u ≠ 0 → id ≠ "" → firstBelow rel.releasesDir (host.cwd (host.pid u)) = some id →
          id ∈ used)
      fun _ _ => False := by
  rw [asks_main]
  refine meets_since_answer_then fun past clock => ?_
  split
  · rename_i none
    refine meets_pure fun w since => since.mono fun more _ ⟨before, split, kept⟩ => ?_
    subst split
    intro determined u member id running named below
    obtain earlier | last := List.mem_append.mp member
    · exact kept determined.earlier u earlier id running named below
    · obtain rfl := List.mem_singleton.mp last
      have answered := not_not.mp fun failed => determined.last (.main failed)
      exact absurd ((truthful.main past u answered).symm.trans none) running
  · refine meets_since_answer_then fun past' clock' => ?_
    refine meets_pure fun w since => since.mono fun more _ ⟨_, split, before, split', kept⟩ => ?_
    subst split split'
    intro determined u member id running named below
    obtain earlier | last := List.mem_append.mp member
    · exact List.mem_append_left _
        (kept determined.earlier.earlier u earlier id running named below)
    · obtain rfl := List.mem_singleton.mp last
      have answered := not_not.mp fun failed => determined.earlier.last (.main failed)
      have pid := truthful.main past u answered
      have asked := determined.last
      cases link : env.answer past' (.readlink (cwdLink
          (mainPid (env.answer past (.systemctl .show (some u)))))) with
      | none =>
        rw [link] at asked
        exact absurd .cwd asked
      | some dir =>
        have place : dir = host.cwd (host.pid u) := pid ▸ truthful.cwd _ _ _ link
        refine List.mem_append_right _ ?_
        rw [Option.mem_toList]
        simp [place, below, named]

/-- The releases in use are found, where every query is answered. -/
theorem meets_releasesInUse (truthful : Truthful env rel host) :
    Meets env (Since base fun _ _ => True) (releasesInUse svc rel)
      (fun used => Since base fun more _ => Determined rel host more → ∀ id,
        RunsFrom host svc rel id → id ∈ used)
      fun _ _ => False := by
  unfold releasesInUse
  refine meets_bind (M := fun used => Since base fun more _ => Determined rel host more →
    ∀ u ∈ svc.units, ∀ id, host.pid u ≠ 0 → id ≠ "" →
      firstBelow rel.releasesDir (host.cwd (host.pid u)) = some id → id ∈ used) ?_ fun mine => ?_
  · refine (meets_fold_upto (I := fun done used => Since base fun more _ => Determined rel host more →
      ∀ u ∈ done, ∀ id, host.pid u ≠ 0 → id ≠ "" →
        firstBelow rel.releasesDir (host.cwd (host.pid u)) = some id → id ∈ used)
      fun done unit used _ => meets_mine truthful used unit done).weaken (fun w since => ?_)
        (fun _ _ => id) fun _ _ => id
    exact since.mono fun more _ _ _ u member => nomatch member
  · refine (meets_fold_upto (I := fun done used => Since base fun more _ => Determined rel host more →
      (∀ u ∈ svc.units, ∀ id, host.pid u ≠ 0 → id ≠ "" →
        firstBelow rel.releasesDir (host.cwd (host.pid u)) = some id → id ∈ used) ∧
      ∀ worker ∈ done, ∀ unit ∈ host.workers worker, ∀ id, instanceOf unit = some id → id ∈ used)
      fun done worker used _ => ?_).weaken (fun w since => ?_) (fun used w since => ?_) fun _ _ => id
    · rw [asks_instances]
      refine meets_since_answer_then fun past clock => ?_
      refine meets_pure fun w since => since.mono fun more _ ⟨before, split, kept⟩ => ?_
      subst split
      intro determined
      obtain ⟨main, workers⟩ := kept determined.earlier
      refine ⟨fun u member id running named below =>
        List.mem_append_left _ (main u member id running named below), fun other member unit up id names => ?_⟩
      obtain earlier | last := List.mem_append.mp member
      · exact List.mem_append_left _ (workers other earlier unit up id names)
      · obtain rfl := List.mem_singleton.mp last
        have answered := not_not.mp fun failed => determined.last (.workers failed)
        obtain ⟨i, listed, same, isLive⟩ := truthful.workers past other answered unit up
        rw [if_neg (not_not.mpr answered)]
        refine List.mem_append_right _ (List.mem_filterMap.mpr ⟨i, ?_, same ▸ names⟩)
        exact List.mem_filter.mpr ⟨listed, isLive⟩
    · exact since.mono fun more _ kept determined => ⟨kept determined, fun _ member => nomatch member⟩
    · refine since.mono fun more _ kept determined id => ?_
      rintro (⟨u, member, running, named, below⟩ | ⟨worker, member, template, unit, up, names⟩)
      · exact (kept determined).1 u member id running named below
      · exact (kept determined).2 worker (List.mem_filter.mpr ⟨member, template⟩) unit up id names

theorem never_releaseSha (dir : String) : Blames (fun _ => False) (releaseSha svc rel dir) := by
  unfold releaseSha
  refine blames_bind (blames_attempt fun _ => blames_pure _) fun h => ?_
  split
  · exact blames_pure _
  · split
    · exact blames_pure _
    · exact blames_attempt fun _ => blames_pure _

/-- So is the release that `current` points to. -/
theorem meets_currentRelease (truthful : Truthful env rel host) :
    Meets env (Since base fun _ _ => True) (currentRelease svc rel)
      (fun cur => Since base fun more _ => Determined rel host more → ∀ id,
        host.current.map baseName = some id → ∃ found, cur = .ok found ∧ found.id = id)
      fun _ _ => False := by
  unfold currentRelease
  refine meets_since_answer_then fun past clock => ?_
  have unanswered {more : List (Event Machine)} (determined : Determined rel host more)
      (asked : ∃ before, more = before ++ [⟨.readlink rel.current,
        env.answer past (.readlink rel.current), clock⟩] ∧ True) :
      ¬ (env.answer past (.readlink rel.current) = none ∨
        env.answer past (.readlink rel.current) = some "") := by
    obtain ⟨before, split, -⟩ := asked
    subst split
    exact fun none => determined.last (.link none)
  split
  · rename_i none
    exact meets_pure fun w since => since.mono fun more _ asked determined =>
      absurd (.inl none) (unanswered determined asked)
  · rename_i empty
    exact meets_pure fun w since => since.mono fun more _ asked determined =>
      absurd (.inr empty) (unanswered determined asked)
  · rename_i target named pointed
    have linked := truthful.link past target pointed named
    unfold linkedRelease at linked
    dsimp only at linked ⊢
    refine meets_since_answer_then fun past' clock' => ?_
    have answered {more : List (Event Machine)} {dir : String} (determined : Determined rel host more)
        (asked : ∃ before, more = before ++ [⟨.stat (resolvePath (dirName rel.current) target),
          env.answer past' (.stat (resolvePath (dirName rel.current) target)), clock'⟩])
        (current : host.current = some dir) : resolvePath (dirName rel.current) target = dir ∧
          (beginsWith dir (rel.releasesDir ++ "/") && decide (dirName dir = rel.releasesDir)) = true ∧
          ∃ st, env.answer past' (.stat dir) = some st ∧ st.isDir = true := by
      obtain ⟨before, split⟩ := asked
      subst split
      rw [current] at linked
      split at linked
      · rename_i inside
        obtain rfl := Option.some.inj linked
        refine ⟨rfl, inside, ?_⟩
        have seen := determined.last
        cases found : env.answer past' (.stat (resolvePath (dirName rel.current) target)) with
        | none =>
          rw [found] at seen
          exact absurd (.directory current) seen
        | some st => exact ⟨st, rfl, truthful.directory past' _ st current found⟩
      · exact nomatch linked
    split
    · rename_i none
      refine meets_pure fun w since => since.mono fun more _ asked determined id current => ?_
      obtain ⟨dir, known, -⟩ := Option.map_eq_some_iff.mp current
      obtain ⟨before, split, -⟩ := asked
      obtain ⟨rfl, inside, st, stat, isDir⟩ := answered determined ⟨before, split⟩ known
      simp [inside, stat, isDir] at none
    · refine meets_bind (M := fun _ => Since base fun more _ => Determined rel host more → ∀ id,
        host.current.map baseName = some id →
          baseName (resolvePath (dirName rel.current) target) = id) ?_ fun sha =>
          meets_pure fun w since => since.mono fun more _ found determined id current =>
            ⟨_, rfl, found determined id current⟩
      refine ((never_releaseSha _).meets_kept fun more later found determined =>
        found determined.earlier).weaken (fun w since => since.mono fun more _ asked => ?_)
          (fun _ _ => id) fun _ _ => id
      intro determined id current
      obtain ⟨dir, known, rfl⟩ := Option.map_eq_some_iff.mp current
      obtain ⟨before, split, -⟩ := asked
      obtain ⟨rfl, -⟩ := answered determined ⟨before, split⟩ known
      rfl

/-- Where every query was answered, the releases that are needed are known. -/
theorem meets_survey (truthful : Truthful env rel host) (keepIds : List String) :
    Meets env (Since base fun _ _ => True) (survey svc rel)
      (fun found => Since base fun more _ => Determined rel host more → ∀ id,
        Needed host svc rel keepIds id → Known keepIds found id)
      fun _ _ => False := by
  unfold survey
  refine meets_bind (meets_currentRelease truthful) fun cur => ?_
  have inUse : Meets env (Since base fun _ _ => True) (releasesInUse svc rel)
      (fun used => Since base fun more _ => Determined rel host more → ∀ id,
        RunsFrom host svc rel id → id ∈ used) (fun _ => Since base fun _ _ => False) :=
    (meets_releasesInUse truthful).weaken (fun _ => id) (fun _ _ => id) fun _ _ wrong => wrong.elim
  have both := inUse.with_kept (K := fun more => Determined rel host more → ∀ id,
    host.current.map baseName = some id → ∃ found, cur = .ok found ∧ found.id = id)
    fun more later found determined => found determined.earlier
  refine meets_bind (both.weaken (fun _ => id) (fun _ _ => id) fun _ _ ⟨_, _, _, wrong⟩ => wrong.elim)
    fun used => meets_pure fun w since => since.mono fun more _ ⟨current, runs⟩ determined id => ?_
  rintro (pointed | kept | running)
  · obtain ⟨found, rfl, rfl⟩ := current determined id pointed
    exact .inl rfl
  · exact .inr (.inl kept)
  · exact .inr (.inr (runs determined id running))

/-- Every release that is listed has its directory. -/
theorem meets_listReleases :
    Meets env (fun _ => True) (listReleases rel)
      (fun list _ => ∀ r ∈ list, r.dir = joinPath rel.releasesDir r.id) (fun _ _ => False) := by
  unfold listReleases
  refine meets_bind (M := fun _ _ => True) (fun _ _ => trivial) fun entries => ?_
  refine meets_bind (M := fun out _ => ∀ r ∈ out, r.dir = joinPath rel.releasesDir r.id) ?_
    fun out => meets_pure fun w all r member => ?_
  · refine (meets_fold (b := ([] : List Listed)) (I := fun out _ =>
      ∀ r ∈ out, r.dir = joinPath rel.releasesDir r.id) fun out e _ => ?_).weaken
        (fun _ _ r member => nomatch member) (fun _ _ => id) fun _ _ => id
    refine meets_bind (M := fun _ _ => ∀ r ∈ out, r.dir = joinPath rel.releasesDir r.id)
      (fun _ all => all) fun st => meets_pure fun w all r member => ?_
    obtain earlier | last := List.mem_append.mp member
    · exact all r earlier
    · obtain rfl := List.mem_singleton.mp last
      rfl
  · exact all r ((List.mem_insertionSort _).mp member)

end

/-! ### What is removed -/

/-- The directory that a call removes. -/
def removedDir : Call → Option String
  | .git _ _ _ (.worktreeRemove dir) => some dir
  | .run "rm" ["-rf", "--", dir] _ => some dir
  | _ => none

def removesNone (call : Machine.Call) : Bool := (removedDir call).isNone

section
variable {env : Environment Machine} {svc : Service} {rel : ReleaseConfig} {host : Host}
  {base : List (Event Machine)} {keepIds : List String} {found : Option String × List String}

/-- The releases of a list that are not known to be needed. -/
def unknown (keepIds : List String) (found : Option String × List String) (list : List Listed) :
    List String := (list.filter fun r => ¬ Known keepIds found r.id).map (·.id)

/-- Only the directories of these releases were removed. -/
def RemovesOnly (rel : ReleaseConfig) (ids : List String) (events : List (Event Machine)) : Prop :=
  ∀ event ∈ events, ∀ dir, removedDir event.call = some dir →
    ∃ id ∈ ids, dir = joinPath rel.releasesDir id

theorem RemovesOnly.more {ids ids' : List String} {events : List (Event Machine)}
    (only : RemovesOnly rel ids events) : RemovesOnly rel (ids ++ ids') events :=
  fun event member dir removes =>
    have ⟨id, listed, same⟩ := only event member dir removes
    ⟨id, List.mem_append_left _ listed, same⟩

theorem removesOnly_snoc {ids : List String} {events : List (Event Machine)} {event : Event Machine}
    (only : RemovesOnly rel ids events)
    (last : ∀ dir, removedDir event.call = some dir → ∃ id ∈ ids, dir = joinPath rel.releasesDir id) :
    RemovesOnly rel ids (events ++ [event]) := by
  intro other member
  obtain earlier | rfl := by simpa using member
  · exact only other earlier
  · exact last

theorem meets_sweepOne (done : List Listed) (r : Listed) (removed : List String)
    (place : r.dir = joinPath rel.releasesDir r.id) :
    Meets env
      (Since base fun more _ => removed = unknown keepIds found done ∧ RemovesOnly rel removed more)
      (sweepOne svc rel keepIds found removed r)
      (fun removed => Since base fun more _ => removed = unknown keepIds found (done ++ [r]) ∧
        RemovesOnly rel removed more)
      fun _ _ => False := by
  have onward : unknown keepIds found (done ++ [r]) = unknown keepIds found done ++
      if Known keepIds found r.id then [] else [r.id] := by
    unfold unknown
    rw [List.filter_append, List.map_append]
    congr 1
    by_cases known : Known keepIds found r.id <;> simp [known]
  unfold sweepOne
  by_cases known : Known keepIds found r.id
  · rw [if_pos known]
    rw [if_pos known, List.append_nil] at onward
    exact meets_pure fun w since => since.mono fun more _ ⟨same, only⟩ => ⟨same.trans onward.symm, only⟩
  · rw [if_neg known]
    rw [if_neg known] at onward
    have removes {more : List (Event Machine)} {event : Event Machine}
        (only : RemovesOnly rel (removed ++ [r.id]) more) (same : removedDir event.call = some r.dir) :
        RemovesOnly rel (removed ++ [r.id]) (more ++ [event]) :=
      removesOnly_snoc only fun dir removes => ⟨r.id, by simp, by
        rw [← place]
        exact Option.some.inj (removes.symm.trans same)⟩
    refine meets_bind (M := fun _ => Since base fun more _ => removed = unknown keepIds found done ∧
      RemovesOnly rel (removed ++ [r.id]) more) ?_ fun gone => ?_
    · refine meets_since_ask_then fun answer clock => meets_pure fun w since => since.mono ?_
      rintro more _ ⟨before, rfl, same, only⟩
      exact ⟨same, removes only.more rfl⟩
    · refine meets_bind (M := fun _ => Since base fun more _ => removed = unknown keepIds found done ∧
        RemovesOnly rel (removed ++ [r.id]) more) (meets_whenever (fun _ => ?_) fun _ _ => id) fun _ => ?_
      · refine meets_since_ask_then fun answer clock => meets_pure fun w since => since.mono ?_
        rintro more _ ⟨before, rfl, same, only⟩
        exact ⟨same, removes only rfl⟩
      · refine meets_pure fun w since => since.mono fun more _ ⟨same, only⟩ => ⟨?_, only⟩
        rw [onward, same]

/-- What is removed, of the releases beyond `keep` and of those known to be needed. -/
theorem meets_sweep (list : List Listed)
    (placed : ∀ r ∈ list, r.dir = joinPath rel.releasesDir r.id) :
    Meets env (Since base fun more _ => RemovesOnly rel [] more)
      (fold list [] (sweepOne svc rel keepIds found))
      (fun removed => Since base fun more _ => removed = unknown keepIds found list ∧
        RemovesOnly rel removed more)
      fun _ _ => False :=
  (meets_fold_upto (I := fun done removed => Since base fun more _ =>
    removed = unknown keepIds found done ∧ RemovesOnly rel removed more)
    fun done r removed member => meets_sweepOne done r removed (placed r member)).weaken
      (fun _ since => since.mono fun _ _ only => ⟨rfl, only⟩) (fun _ _ => id) fun _ _ => id

end

/-! ### Pruning -/

section
variable (env : Environment Machine) (svc : Service) (rel : ReleaseConfig) (host : Host)
  (keepIds : List String) (w : World Machine Unit)

/-- The world once the releases are listed. -/
def listed : World Machine Unit := (Program.run (listReleases rel) env w).2

/-- Every query was answered, in finding out what is in use. -/
def AllAnswered : Prop :=
  Since (listed env rel w).trace (fun events _ => Determined rel host events)
    (Program.run (survey svc rel) env (listed env rel w)).2

/-- Every release beyond `keep` is known to be needed. -/
def NoneBeyond : Prop :=
  ∀ list found, (Program.run (listReleases rel) env w).1 = .ok list →
    (Program.run (survey svc rel) env (listed env rel w)).1 = .ok found →
      ∀ r ∈ list.drop rel.keep, Known keepIds found r.id

/-- Pruning removes no release that is needed, and none at all where it cannot tell which
are in use. -/
def KeepsNeeded : Prop :=
  ∃ removed, (Program.run (prune svc rel keepIds) env w).1 = .ok removed ∧
    Since w.trace (fun events _ => RemovesOnly rel removed events)
      (Program.run (prune svc rel keepIds) env w).2 ∧
    (∀ id ∈ removed, ¬ Needed host svc rel keepIds id) ∧
    (¬ AllAnswered env svc rel host w → removed = [])

end

section
variable {env : Environment Machine} {svc : Service} {rel : ReleaseConfig} {host : Host}
  {keepIds : List String} {w : World Machine Unit}

theorem removes_nothing {p : Exec α} (emits : Emits removesNone p)
    {ids : List String} {base : List (Event Machine)} {w next : World Machine Unit}
    {result : Except Failure α} (ran : Program.run p env w = (result, next))
    (since : Since base (fun more _ => RemovesOnly rel ids more) w) :
    Since base (fun more _ => RemovesOnly rel ids more) next := by
  have kept : Meets env (Since base fun more _ => RemovesOnly rel ids more) p
      (fun _ => Since base fun more _ => RemovesOnly rel ids more)
      (fun _ => Since base fun more _ => RemovesOnly rel ids more) := by
    refine emits.meets_events fun more event none only => removesOnly_snoc only fun dir removes => ?_
    unfold removesNone at none
    rw [removes] at none
    exact nomatch none
  have ended := (kept w since).always
  rwa [ran] at ended

theorem look_removes_nothing {kind : Kind} (harmless : kind = .look ∨ kind = .position) :
    Allows removesNone kind := by
  rintro call rfl
  cases call with
  | git dir safe owner command => cases command <;> simp_all [Call.kind, Git.kind, removesNone, removedDir]
  | run cmd args options =>
    by_cases moves : switches cmd args options = true <;> simp [Call.kind, moves] at harmless
  | _ => rfl

theorem never_survey : Blames (fun _ => False) (survey svc rel) := by
  unfold survey currentRelease releasesInUse
  refine blames_bind (blames_bind blames_ask fun target => ?_) fun cur => ?_
  · split
    · exact blames_pure _
    · exact blames_pure _
    · refine blames_bind blames_ask fun st => ?_
      split
      · exact blames_pure _
      · exact blames_bind (never_releaseSha _) fun sha => blames_pure _
  · refine blames_bind (blames_bind (blames_fold fun used u _ => ?_) fun mine =>
      blames_fold fun used worker _ => ?_) fun inUse => blames_pure _
    · refine blames_bind (blames_attempt fun _ => blames_pure _) fun pid => ?_
      split
      · exact blames_pure _
      · exact blames_bind blames_ask fun cwd => blames_pure _
    · exact blames_bind (blames_attempt fun _ => blames_pure _) fun list => blames_pure _

/-- What pruning removes: the releases beyond `keep` that are not known to be needed. -/
theorem prune_removes : ∃ list found, (Program.run (listReleases rel) env w).1 = .ok list ∧
    (Program.run (survey svc rel) env (listed env rel w)).1 = .ok found ∧
    (Program.run (prune svc rel keepIds) env w).1 = .ok (unknown keepIds found (list.drop rel.keep)) ∧
    Since w.trace
      (fun events _ => RemovesOnly rel (unknown keepIds found (list.drop rel.keep)) events)
      (Program.run (prune svc rel keepIds) env w).2 := by
  have look := look_removes_nothing (.inl rfl)
  have position := look_removes_nothing (.inr rfl)
  have listing := @meets_listReleases env rel w trivial
  unfold listed
  cases lists : Program.run (listReleases rel) env w with
  | mk result w1 =>
    rw [lists] at listing
    cases result with
    | error e => exact listing.elim
    | ok list =>
      have placed : ∀ r ∈ list, r.dir = joinPath rel.releasesDir r.id := listing
      have kept1 : Since w.trace (fun more _ => RemovesOnly rel [] more) w1 :=
        removes_nothing (emits_listReleases look rel) lists (since_start fun _ none => nomatch none)
      have never := @never_survey svc rel env w1
      cases surveys : Program.run (survey svc rel) env w1 with
      | mk result w2 =>
        rw [surveys] at never
        cases result with
        | error e =>
          obtain ⟨-, -, -, -, wrong⟩ := never e rfl
          exact wrong.elim
        | ok found =>
          have asks : Emits removesNone (survey svc rel) :=
            emits_bind (emits_currentRelease look position svc rel) fun cur =>
              emits_bind (emits_releasesInUse look svc rel) fun inUse => emits_pure _
          have kept2 := removes_nothing asks surveys kept1
          have swept := @meets_sweep env svc rel w.trace keepIds found (list.drop rel.keep)
            (fun r member => placed r (List.mem_of_mem_drop member)) w2 kept2
          cases sweeps : Program.run (fold (list.drop rel.keep) []
              (sweepOne svc rel keepIds found)) env w2 with
          | mk result w3 =>
            rw [sweeps] at swept
            cases result with
            | error e => exact swept.elim
            | ok removed =>
              have since : Since w.trace (fun more _ => removed = unknown keepIds found
                (list.drop rel.keep) ∧ RemovesOnly rel removed more) w3 := swept
              obtain ⟨more, trace, rfl, only⟩ := since
              have runs : Program.run (prune svc rel keepIds) env w =
                  (.ok (unknown keepIds found (list.drop rel.keep)),
                    (Program.run (Git.tryRun (gitClone svc rel) .worktreePrune) env w3).2) := by
                rw [prune_eq, bind_eq, run_andThen_ok lists, bind_eq, run_andThen_ok surveys, bind_eq,
                  run_andThen_ok sweeps]
                rfl
              rw [runs]
              refine ⟨list, found, rfl, rfl, rfl, ?_⟩
              have asksGit : Emits removesNone
                  (Git.tryRun (gitClone svc rel) .worktreePrune) := emits_ask rfl
              exact removes_nothing asksGit rfl ⟨more, trace, only⟩

/-- `prune` keeps what is needed exactly where every query about it is answered, or where no
release is beyond `keep` but those that are known to be needed. -/
theorem keeps_needed_iff (truthful : Truthful env rel host) :
    KeepsNeeded env svc rel host keepIds w ↔
      AllAnswered env svc rel host w ∨ NoneBeyond env svc rel keepIds w := by
  obtain ⟨list, found, lists, surveys, prunes, only⟩ := @prune_removes env svc rel keepIds w
  have none : unknown keepIds found (list.drop rel.keep) = [] ↔ NoneBeyond env svc rel keepIds w := by
    unfold unknown NoneBeyond
    simp only [List.map_eq_nil_iff, List.filter_eq_nil_iff, decide_eq_true_eq, not_not]
    constructor
    · intro all list' found' lists' surveys'
      obtain rfl := Except.ok.inj (lists.symm.trans lists')
      obtain rfl := Except.ok.inj (surveys.symm.trans surveys')
      exact all
    · exact fun all => all list found lists surveys
  constructor
  · rintro ⟨removed, prunes', -, -, undetermined⟩
    obtain rfl := Except.ok.inj (prunes.symm.trans prunes')
    by_cases answered : AllAnswered env svc rel host w
    · exact .inl answered
    · exact .inr (none.mp (undetermined answered))
  · intro either
    refine ⟨_, prunes, only, ?_, fun open_ => none.mpr (either.resolve_left open_)⟩
    intro id member needed
    obtain answered | beyond := either
    · have surveyed := @meets_survey env svc rel host _ truthful keepIds (listed env rel w)
        (since_start trivial)
      have known : Known keepIds found id := by
        cases ran : Program.run (survey svc rel) env (listed env rel w) with
        | mk result next =>
          obtain ⟨more, trace, determined⟩ := answered
          rw [ran] at surveyed surveys trace
          obtain rfl : result = .ok found := surveys
          have since : Since (listed env rel w).trace (fun more _ => Determined rel host more → ∀ id,
            Needed host svc rel keepIds id → Known keepIds found id) next := surveyed
          exact since.at_end trace determined id needed
      obtain ⟨r, kept, rfl⟩ := List.mem_map.mp member
      exact absurd known (by simpa using (List.mem_filter.mp kept).2)
    · rw [none.mpr beyond] at member
      exact nomatch member

end

/-! ### A service that runs from an old release -/

def siteRelease : ReleaseConfig where
  git := "/srv/live/git"
  releasesDir := "/srv/live/releases"
  current := "/srv/live/current"
  keep := 2

def site : Service where
  id := "live"
  repo := "/srv/live/current"
  owner := "live"
  runAs := "live"
  strategy := .releaseLayout
  release := some siteRelease
  units := ["live.service"]
  unit_service := by decide
  socket_socket := Service.no_socket
  auxiliary_apart := by decide
  workers_service := Service.no_unit
  workers_apart := by decide
  auxiliary_no_worker := Service.no_auxiliary_worker
  sources_apart := Service.no_source
  sources_named := Service.no_source_named
  laid_out := by decide

/-- Four releases: the last one is current, and process `pid` of the service, if any, still
runs from the first. -/
def siteState (pid : Nat) : Host where
  current := some "/srv/live/releases/20260904-dddddddd"
  pid _ := pid
  cwd _ := "/srv/live/releases/20260901-aaaaaaaa"
  workers _ := []

/-- `systemctl show` ends with `code` and says of no main process. -/
def siteHost (code : Nat) : Environment Machine := hostOf fun
  | .readlink path => some (if path = "/srv/live/current" then "/srv/live/releases/20260904-dddddddd"
      else "/srv/live/releases/20260901-aaaaaaaa")
  | .stat _ => some { isFile := false, isDir := true }
  | .readdir _ => some (["20260901-aaaaaaaa", "20260902-bbbbbbbb", "20260903-cccccccc",
      "20260904-dddddddd"].map fun name => { name, isDir := true })
  | .systemctl .show _ => { code }
  | other => steady other

theorem site_truthful {code pid : Nat} (stopped : code = 0 → pid = 0) :
    Truthful (siteHost code) siteRelease (siteState pid) where
  link past target pointed _ := by
    obtain rfl : "/srv/live/releases/20260904-dddddddd" = target := Option.some.inj pointed
    show linkedRelease siteRelease "/srv/live/releases/20260904-dddddddd" =
      some "/srv/live/releases/20260904-dddddddd"
    decide +kernel
  directory past dir st _ found := by
    obtain rfl := Option.some.inj found
    rfl
  main past unit answered := by
    rw [show (siteState pid).pid unit = 0 from stopped answered]
    show mainPid { code := code } = 0
    rfl
  cwd past other dir found := by
    have apart : cwdLink other ≠ "/srv/live/current" := by
      intro same
      have letters := congrArg String.toList same
      simp [cwdLink] at letters
    have answers : some (if cwdLink other = "/srv/live/current" then
        "/srv/live/releases/20260904-dddddddd" else "/srv/live/releases/20260901-aaaaaaaa") =
        some dir := found
    rw [if_neg apart] at answers
    exact (Option.some.inj answers).symm
  workers past worker _ unit member := nomatch member

theorem keeps_needed_site : KeepsNeeded (siteHost 0) site siteRelease (siteState 0)
    ["20260903-cccccccc"] ⟨(), 0, []⟩ ↔
      AllAnswered (siteHost 0) site siteRelease (siteState 0) ⟨(), 0, []⟩ ∨
        NoneBeyond (siteHost 0) site siteRelease ["20260903-cccccccc"] ⟨(), 0, []⟩ :=
  keeps_needed_iff (site_truthful fun _ => rfl)

/-- Where `systemctl show` fails, the release that the service runs from is removed. -/
theorem running_release_removed : ¬ ∀ env svc rel host keepIds w, Truthful env rel host →
    KeepsNeeded env svc rel host keepIds w := by
  intro keeps
  obtain ⟨removed, prunes, -, needed, -⟩ := keeps (siteHost 1) site siteRelease (siteState 41)
    ["20260903-cccccccc"] ⟨(), 0, []⟩ (site_truthful fun ok => nomatch ok)
  have gone : (Program.run (prune site siteRelease ["20260903-cccccccc"]) (siteHost 1)
      ⟨(), 0, []⟩).1 = .ok ["20260902-bbbbbbbb", "20260901-aaaaaaaa"] := by decide +kernel
  obtain rfl := Except.ok.inj (gone.symm.trans prunes)
  refine needed "20260901-aaaaaaaa" (by simp) (.inr (.inr (.inl ?_)))
  exact ⟨"live.service", by simp [site], by decide, by decide, by decide +kernel⟩

end OpenVibeHost.Pruning
