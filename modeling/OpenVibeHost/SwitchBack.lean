import OpenVibeHost.CurrentLink

/-! What the exit code of a release-layout run says of the `current` link. Exit code 3 is
for a run that went back to the release it left, and found it serving. -/
namespace OpenVibeHost.ReleaseLayout
open Effects Program Releases ReleaseOps Readiness

/-- The ready URL answered ok after the last time that `current` was switched. -/
def Serving (svc : Service) (events : List (Event Machine)) : Prop :=
  ∃ before after, events = before ++ after ∧ (∀ event ∈ after, noSwitch event.call = true) ∧
    ∃ event ∈ after, Responds svc event

/-- A readiness probe that comes right after a switch is answered ok. -/
def BackAnswered (svc : Service) (events : List (Event Machine)) : Prop :=
  ∀ earlier switch probe later, events = earlier ++ switch :: probe :: later →
    Call.kind switch.call = .switch →
    (∃ ready, svc.ready = some ready ∧ probe.call = Call.http ready.url ready.headers) →
      Responds svc probe

theorem BackAnswered.earlier {svc : Service} {events more : List (Event Machine)}
    (answered : BackAnswered svc (events ++ more)) : BackAnswered svc events := by
  intro earlier switch probe later split
  exact answered earlier switch probe (later ++ more) (by simp [split])

theorem Serving.append {svc : Service} {events more : List (Event Machine)}
    (serving : Serving svc events) (stay : ∀ event ∈ more, noSwitch event.call = true) :
    Serving svc (events ++ more) := by
  obtain ⟨before, after, rfl, quiet, event, member, responds⟩ := serving
  refine ⟨before, after ++ more, List.append_assoc .., fun other within => ?_, event,
    List.mem_append_left _ member, responds⟩
  exact (List.mem_append.mp within).elim (quiet other) (stay other)

theorem quiet_noSwitch {call : Machine.Call} (quiet : quietCalls call = true) : noSwitch call = true := by
  refine decide_eq_true fun switch => ?_
  unfold quietCalls at quiet
  rw [switch] at quiet
  exact nomatch quiet

section
variable {env : Environment Machine} {base : List (Event Machine)} {svc : Service}
  {rel : ReleaseConfig} {opts : Options} {plan : LayoutPlan}

/-! ### Restarting a release -/

theorem emits_restarts (socketChanged : Bool) (expectSha : String) :
    Emits noSwitch (restartRelease svc rel opts socketChanged expectSha) := by
  refine emits_restartRelease (allows_noSwitch (by decide)) (fun _ _ => rfl) (fun _ _ _ => rfl)
    (fun _ _ _ _ => ⟨rfl, rfl, rfl⟩) rel opts socketChanged expectSha

/-- A service that is restarted and gets ready has answered; without a ready URL it is. -/
theorem meets_restarted (socketChanged : Bool) (expectSha : String) :
    Meets env (Since base fun more _ => more = []) (restartRelease svc rel opts socketChanged expectSha)
      (fun r => Since base fun more _ => (r.ready.ok = true → Responded svc more) ∧
        (svc.ready = none → r.ready.ok = true))
      (fun _ => Since base fun _ _ => True) := by
  unfold restartRelease
  refine meets_bind (meets_onward _) fun rebind => meets_bind (meets_onward _) fun units => ?_
  refine meets_bind (meets_onward _) fun _ => meets_bind meets_waitReady fun ready => ?_
  split
  · split
    · refine meets_bind ((Emits.meets_events (emits_any _) fun more event _ ready => ?_).weaken
        (fun _ => id) (fun _ _ => id) fun _ _ => Since.onward) fun held =>
          meets_pure fun _ => id
      exact ⟨fun ok => (ready.1 ok).append [event], ready.2⟩
    · exact meets_pure fun _ => id
  · exact meets_pure fun _ => id

/-! ### Where the link is -/

abbrev hasSwitched (s : Deploy) : Bool := s.record.switched

theorem frame_switched {α : Type} {p : Ops α} (frame : Frame noSwitch Deploy.outcome p) :
    Frame noSwitch hasSwitched p :=
  ⟨frame.emits, fun env w => congrArg Outcome.switched (frame.keeps env w)⟩

/-- What is said of the link and of whether it was switched, other steps leave. -/
theorem stable_points {left : String} {P : String → Bool → Prop} :
    Stable noSwitch hasSwitched
      (Since base fun more s => P (pointsTo rel left more) (hasSwitched s)) := by
  refine stable_since (fun more s event stays now => ?_) fun more s s' same now => ?_
  · rwa [pointsTo_snoc stays]
  · rwa [same]

/-- `current` points to `dir`; where it was not switched, that is the release left. -/
def LinkedTo (rel : ReleaseConfig) (plan : LayoutPlan) (dir : String) (more : List (Event Machine))
    (s : Deploy) : Prop :=
  pointsTo rel plan.currentDir more = dir ∧ (s.record.switched = false → dir = plan.currentDir)

/-- Nothing was switched yet. -/
def Unswitched (rel : ReleaseConfig) (plan : LayoutPlan) (more : List (Event Machine)) (s : Deploy) :
    Prop :=
  pointsTo rel plan.currentDir more = plan.currentDir ∧ s.record.switched = false

theorem meets_switched {α : Type} {p : Ops α} (frame : Frame noSwitch hasSwitched p) (dir : String) :
    Meets env (Since base (LinkedTo rel plan dir)) p (fun _ => Since base (LinkedTo rel plan dir))
      (fun _ => Since base (LinkedTo rel plan dir)) :=
  frame.meets (stable_points (P := fun now switched => now = dir ∧
    (switched = false → dir = plan.currentDir)))

theorem meets_unswitched {α : Type} {p : Ops α} (frame : Frame noSwitch hasSwitched p) :
    Meets env (Since base (Unswitched rel plan)) p (fun _ => Since base (Unswitched rel plan))
      (fun _ => Since base (Unswitched rel plan)) :=
  frame.meets (stable_points (P := fun now switched => now = plan.currentDir ∧ switched = false))

/-- `switchCurrent` in the course of a run. -/
theorem meets_switch (before dir : String) :
    Meets env (Since base fun more _ => pointsTo rel plan.currentDir more = before)
      (liftM (switchCurrent rel dir) : Ops Unit)
      (fun _ => Since base fun more _ => pointsTo rel plan.currentDir more = dir ∧
        ∃ earlier switch, more = earlier ++ [switch] ∧ Call.kind switch.call = .switch)
      (fun _ => Since base fun more _ => pointsTo rel plan.currentDir more = before) :=
  meets_since_liftM fun _ => meets_switchCurrent before dir

theorem meets_switchTo (dir : String) :
    Meets env (Since base (Unswitched rel plan)) (switchTo rel plan dir)
      (fun _ => Since base (LinkedTo rel plan dir))
      (fun _ => Since base fun more _ => pointsTo rel plan.currentDir more = plan.currentDir) := by
  unfold switchTo
  split
  · rename_i same
    subst same
    exact meets_pure fun w since => since.mono fun more s ⟨points, _⟩ => ⟨points, fun _ => rfl⟩
  · refine meets_bind (M := fun _ => Since base fun more _ => pointsTo rel plan.currentDir more = dir)
      ((meets_switch plan.currentDir dir).weaken (fun w since => since.mono fun more s now => now.1)
        (fun _ w since => since.mono fun more s now => now.1) fun _ _ => id) fun _ => ?_
    exact meets_since_update fun more s points => ⟨points, fun no => nomatch no⟩

/-! ### Going back -/

/-- What exit code 3 says. -/
def BackServing (svc : Service) (rel : ReleaseConfig) (plan : LayoutPlan) (applied : Applied)
    (more : List (Event Machine)) : Prop :=
  applied.exitCode = Exit.rolledBack.code →
    pointsTo rel plan.currentDir more = plan.currentDir ∧ (BackAnswered svc more → Serving svc more)

/-- The probe after a switch back, with its answer. -/
theorem meets_backProbe (declared : svc.ready ≠ none) :
    Meets env
      (Since base fun more _ => pointsTo rel plan.currentDir more = plan.currentDir ∧
        ∃ before switch, more = before ++ [switch] ∧ Call.kind switch.call = .switch)
      (probe svc)
      (fun _ => Since base fun more _ => pointsTo rel plan.currentDir more = plan.currentDir ∧
        (BackAnswered svc more → Serving svc more))
      (fun _ => Since base fun _ _ => True) := by
  unfold probe
  cases url : svc.ready with
  | none => exact absurd url declared
  | some ready =>
    refine meets_since_ask_then fun answer t => meets_pure fun w since => since.mono ?_
    rintro _ _ ⟨_, rfl, points, before, switch, rfl, switches⟩
    refine ⟨(pointsTo_snoc rfl).trans points, fun answered => ?_⟩
    have responds := answered before switch ⟨.http ready.url ready.headers, answer, t⟩ [] (by simp)
      switches ⟨ready, url, rfl⟩
    refine ⟨before ++ [switch], [_], rfl, fun event member => ?_, _, List.mem_singleton_self _, responds⟩
    obtain rfl := List.mem_singleton.mp member
    rfl

theorem frame_settle (svc : Service) (rel : ReleaseConfig) :
    Frame noSwitch hasSwitched (settle svc rel) := by
  unfold settle
  split
  · refine frame_bind (frame_liftM (emits_ask rfl)) fun _ => ?_
    refine frame_bind (frame_liftM (emits_probe (allows_noSwitch (by decide)) svc)) fun p => ?_
    exact frame_bind (frame_setRecord fun _ => rfl) fun _ => frame_pure _
  · exact frame_pure _

theorem meets_settle (dir : String) :
    Meets env (Since base (LinkedTo rel plan dir)) (settle svc rel)
      (fun p => Since base fun more _ => pointsTo rel plan.currentDir more = dir ∧
        (p ≠ some true → svc.ready ≠ none))
      (fun _ => Since base fun _ _ => True) := by
  cases declared : svc.ready with
  | none =>
    have idle : settle svc rel = pure (some true) := by simp [settle, declared]
    rw [idle]
    exact meets_pure fun w since => since.mono fun more s now => ⟨now.1, fun no => absurd rfl no⟩
  | some ready =>
    refine (meets_switched (frame_settle svc rel) dir).weaken (fun _ => id) (fun p w since => ?_)
      fun _ _ => Since.onward
    exact since.mono fun more s now => ⟨now.1, fun _ => by simp⟩

theorem meets_switchOnly (mode : Mode) (dir : String) :
    Meets env (Since base (Unswitched rel plan)) (switchOnly svc rel mode plan dir)
      (fun applied => Since base fun more _ => BackServing svc rel plan applied more)
      (fun _ => Since base fun _ _ => True) := by
  unfold switchOnly
  refine meets_bind ((meets_switchTo dir).weaken (fun _ => id) (fun _ _ => id) fun _ _ => Since.onward)
    fun _ => ?_
  refine meets_bind (meets_settle dir) fun p => ?_
  split
  · rename_i failed
    by_cases declared : svc.ready = none
    · exact fun w ⟨more, trace, _, ready⟩ => absurd declared (ready failed)
    · refine meets_bind ((meets_switch dir plan.currentDir).weaken (fun w since => since.mono
        fun more s now => now.1) (fun _ _ => id) fun _ _ => Since.onward) fun _ => ?_
      refine meets_bind (meets_since_liftM fun _ => meets_backProbe declared) fun back => ?_
      refine meets_bind (M := fun _ => Since base fun more _ => pointsTo rel plan.currentDir more =
        plan.currentDir ∧ (BackAnswered svc more → Serving svc more))
        (meets_since_update fun more s now => now) fun _ => ?_
      exact meets_pure fun w since => since.mono fun more s now _ => now
  · refine meets_bind (meets_onward _) fun _ => meets_bind (meets_onward _) fun _ => ?_
    exact meets_pure fun w since => since.mono fun more s _ three => nomatch three

/-- To serve is to have answered since the last switch. -/
theorem meets_restartServing (left : String) (declared : svc.ready ≠ none) (socketChanged : Bool)
    (expectSha : String) :
    Meets env (Since base fun more _ => pointsTo rel left more = left)
      (restartRelease svc rel opts socketChanged expectSha)
      (fun r => Since base fun more _ => r.ready.ok = true →
        pointsTo rel left more = left ∧ Serving svc more)
      (fun _ => Since base fun _ _ => True) := by
  refine ((emits_restarts socketChanged expectSha).meets_split (K := fun more =>
    pointsTo rel left more = left) fun base => meets_restarted socketChanged expectSha).weaken
      (fun _ => id) (fun r w since => since.mono ?_) fun _ _ => Since.onward
  rintro _ _ ⟨before, after, rfl, points, stays, ready, -⟩ ok
  exact ⟨(pointsTo_append stays).trans points, before, after, rfl, stays, (ready ok).resolve_left declared⟩

/-- The way back of a run that restarts. -/
theorem meets_rollBack (declared : svc.ready ≠ none) (dir : String) :
    Meets env (Since base (LinkedTo rel plan dir)) (rollBack svc rel opts plan)
      (fun applied => Since base fun more _ => BackServing svc rel plan applied more)
      (fun _ => Since base fun _ _ => True) := by
  unfold rollBack
  refine meets_bind (meets_switched (frame_setRecord fun _ => rfl) dir |>.weaken (fun _ => id)
    (fun _ _ => id) fun _ _ => Since.onward) fun _ => ?_
  refine meets_attempt (T := fun _ => Since base fun _ _ => True) ?_ fun err => ?_
  · refine meets_bind (meets_since_own (L := fun s more _ => LinkedTo rel plan dir more s)
      fun more s now => now) fun s => ?_
    refine meets_bind (M := fun _ => Since base fun more _ =>
      pointsTo rel plan.currentDir more = plan.currentDir) (meets_whenever (fun _ => ?_) fun no => ?_)
      fun _ => ?_
    · exact (meets_switch dir plan.currentDir).weaken (fun w since => since.mono fun more s now => now.1)
        (fun _ w since => since.mono fun more s now => now.1) fun _ _ => Since.onward
    · refine fun w since => since.mono fun more s' ⟨points, back⟩ => ?_
      rw [points]
      exact back (by simpa using no)
    · have stays : Emits noSwitch (installReleaseUnits svc plan.currentDir) :=
        emits_installReleaseUnits (allows_noSwitch (by decide)) (allows_noSwitch (by decide)) svc _
      refine meets_bind (meets_since_liftM fun _ => (stays.meets_events (H := fun more =>
        pointsTo rel plan.currentDir more = plan.currentDir) fun more event quiet now =>
          (pointsTo_snoc quiet).trans now).weaken (fun _ => id) (fun _ _ => id) fun _ _ => Since.onward)
        fun back => ?_
      refine meets_bind (meets_since_liftM fun _ => meets_restartServing _ declared _ _) fun b => ?_
      refine meets_bind (M := fun _ => Since base fun more _ => b.ready.ok = true →
        pointsTo rel plan.currentDir more = plan.currentDir ∧ Serving svc more)
        (meets_since_update fun more s now => now) fun _ => ?_
      split
      · rename_i ok
        refine meets_bind (M := fun _ => Since base fun more _ => pointsTo rel plan.currentDir more =
          plan.currentDir ∧ Serving svc more) (fun w ⟨more, trace, now⟩ => ⟨more, trace, now ok⟩) fun _ => ?_
        exact meets_pure fun w since => since.mono fun more s now _ => ⟨now.1, fun _ => now.2⟩
      · refine meets_bind (meets_onward _) fun _ => meets_pure fun w since => ?_
        exact since.mono fun more s _ three => nomatch three
  · refine meets_bind (meets_onward _) fun _ => meets_pure fun w since => ?_
    exact since.mono fun more s _ three => nomatch three

theorem meets_switchAndRestart (mode : Mode) (dir : String) :
    Meets env (Since base (Unswitched rel plan)) (switchAndRestart svc rel mode opts plan dir)
      (fun applied => Since base fun more _ => BackServing svc rel plan applied more)
      (fun _ => Since base fun _ _ => True) := by
  have look : Allows noSwitch .look := allows_noSwitch (by decide)
  have change : Allows noSwitch .change := allows_noSwitch (by decide)
  have steps {α : Type} {p : Ops α} (frame : Frame noSwitch hasSwitched p) :
      Meets env (Since base (LinkedTo rel plan dir)) p (fun _ => Since base (LinkedTo rel plan dir))
        (fun _ => Since base fun _ _ => True) :=
    (meets_switched frame dir).weaken (fun _ => id) (fun _ _ => id) fun _ _ => Since.onward
  unfold switchAndRestart
  refine meets_bind ((meets_switchTo dir).weaken (fun _ => id) (fun _ _ => id) fun _ _ => Since.onward)
    fun _ => ?_
  refine meets_bind (steps (frame_liftM (emits_installReleaseUnits change look svc dir))) fun u => ?_
  refine meets_bind (steps (frame_setRecord fun _ => rfl)) fun _ => ?_
  refine meets_bind (M := fun r => Since base fun more s => LinkedTo rel plan dir more s ∧
    (r.ready.ok = false → svc.ready ≠ none)) ?_ fun r => ?_
  · refine meets_since_liftM fun s => ((emits_restarts _ _).meets_split (K := fun more =>
      LinkedTo rel plan dir more s) fun base => meets_restarted _ _).weaken (fun _ => id)
        (fun r w since => since.mono ?_) fun _ _ => Since.onward
    rintro _ _ ⟨before, after, rfl, linked, stays, -, ready⟩
    refine ⟨⟨(pointsTo_append stays).trans linked.1, linked.2⟩, fun unready none => ?_⟩
    rw [ready none] at unready
    exact nomatch unready
  · refine meets_bind (M := fun _ => Since base fun more s => LinkedTo rel plan dir more s ∧
      (r.ready.ok = false → svc.ready ≠ none)) (meets_since_update fun more s now => now) fun _ => ?_
    split
    · refine meets_bind (meets_onward _) fun _ => meets_bind (meets_onward _) fun _ => ?_
      exact meets_pure fun w since => since.mono fun more s _ three => nomatch three
    · rename_i unready
      by_cases declared : svc.ready = none
      · exact fun w ⟨more, trace, _, ready⟩ => absurd declared (ready (by simpa using unready))
      · exact (meets_rollBack declared dir).weaken (fun w since => since.mono fun more s now => now.1)
          (fun _ _ => id) fun _ _ => id

/-- A release that ends with exit code 3 went back, and serves. -/
theorem meets_release (inv : Inventory) (mode : Mode) :
    Meets env (Since base (Unswitched rel plan)) (release inv svc rel mode opts plan)
      (fun applied => Since base fun more _ => BackServing svc rel plan applied more)
      (fun _ => Since base fun _ _ => True) := by
  have look : Allows noSwitch .look := allows_noSwitch (by decide)
  have change : Allows noSwitch .change := allows_noSwitch (by decide)
  have worktree : Allows noSwitch .worktree := allows_noSwitch (by decide)
  have lock : Allows noSwitch .lock := allows_noSwitch (by decide)
  have log : Allows noSwitch .log := allows_noSwitch (by decide)
  have steps {α : Type} {p : Ops α} (frame : Frame noSwitch hasSwitched p) :
      Meets env (Since base (Unswitched rel plan)) p (fun _ => Since base (Unswitched rel plan))
        (fun _ => Since base fun _ _ => True) :=
    (meets_unswitched frame).weaken (fun _ => id) (fun _ _ => id) fun _ _ => Since.onward
  unfold release
  refine meets_bind (steps (frame_whenever fun _ => frame_attempt ?_ fun err => ?_)) fun _ => ?_
  · exact frame_switched (frame_prepare change look worktree svc rel plan)
  · unfold undoPrepare
    refine frame_bind frame_own fun s => frame_bind (frame_whenever fun _ => ?_) fun _ => ?_
    · exact frame_switched (frame_removePrepared worktree svc rel _).outcome
    · cases err <;> exact frame_throw _
  · dsimp only
    generalize (if plan.upToDate = true then plan.currentDir else plan.targetDir) = dir
    split
    · refine meets_bind (meets_onward _) fun _ => meets_pure fun w since => ?_
      exact since.mono fun more s _ three => nomatch three
    · split
      · exact meets_switchOnly mode dir
      · refine meets_bind (steps (frame_attempt ?_ fun err => ?_)) fun _ =>
          meets_switchAndRestart mode dir
        · exact frame_switched (frame_guardRestart change look lock log inv svc opts plan).outcome
        · unfold undoGuard
          refine frame_bind frame_own fun s => ?_
          dsimp only
          split
          · refine frame_bind (frame_switched (frame_removePrepared worktree svc rel _).outcome) fun _ => ?_
            cases err <;> exact frame_throw _
          · exact frame_throw _

end

/-- A run that ends with exit code 3 has `current` back at the release it left, and the
service answered its readiness probe after that: wherever the probe after a switch back that
comes without a restart is answered ok. -/
theorem rolled_back_serving {env : Environment Machine} {inv : Inventory} {pid : Nat} {svc : Service}
    {rel : ReleaseConfig} {mode : Mode} {opts : Options} {w final : World Machine Deploy}
    {applied : Applied} (ran : (apply inv pid svc rel mode opts).run env w = (.ok applied, final))
    (three : applied.exitCode = 3) :
    ∃ plan w1 events, Begun env w w1 inv svc rel mode opts plan ∧ final.trace = w1.trace ++ events ∧
      pointsTo rel plan.currentDir events = plan.currentDir ∧
        (BackAnswered svc events → Serving svc events) := by
  obtain unbegun | ⟨plan, w1, r, w2, begun, releaseRan, ended⟩ := apply_ran ran
  · have ok := (unbegun.done applied rfl).1
    rw [three] at ok
    exact nomatch ok
  · have starts : Since w1.trace (Unswitched rel plan) w1 := by
      have switched : w1.own.record.switched = plan.begun.record.switched :=
        congrArg (·.1.switched) begun.core
      exact since_start ⟨rfl, switched⟩
    have met := @meets_release env w1.trace svc rel opts plan inv mode w1 starts
    obtain ⟨more, trace, quiet, outcome⟩ := ended.events
    obtain rfl : (.ok applied : Except Failure Applied) = r := by
      obtain same | ⟨⟨message, failed⟩, -⟩ := outcome
      · exact same
      · exact nomatch failed
    rw [releaseRan] at met
    have since : Since w1.trace (fun more _ => BackServing svc rel plan applied more) w2 := met
    obtain ⟨events, released, back⟩ := since
    obtain ⟨points, serving⟩ := back three
    have stay : ∀ event ∈ more, noSwitch event.call = true := fun event member =>
      quiet_noSwitch (quiet event member)
    refine ⟨plan, w1, events ++ more, begun, by rw [trace, released, List.append_assoc],
      (pointsTo_append stay).trans points, fun answered => ?_⟩
    exact (serving answered.earlier).append stay

/-! ### Static files that are not served -/

def pageRelease : ReleaseConfig where
  git := "/srv/pages/git"
  releasesDir := "/srv/pages/releases"
  current := "/srv/pages/current"

def pages : Service where
  id := "pages"
  repo := "/srv/pages/current"
  owner := "pages"
  runAs := "pages"
  strategy := .releaseLayout
  release := some pageRelease
  units := ["pages.service"]
  ready := some { url := "http://127.0.0.1:9001/ready" }
  noRestartPaths := ["public/"]
  unit_service := by decide
  socket_socket := Service.no_socket
  auxiliary_apart := by decide
  workers_service := Service.no_unit
  workers_apart := by decide
  auxiliary_no_worker := Service.no_auxiliary_worker
  sources_apart := Service.no_source
  sources_named := Service.no_source_named
  laid_out := by decide

def pagesHost : Inventory where
  stateDir := "/var/lib/openvibe-host"
  backupDir := "/var/backups/openvibe"
  backupStagingDir := "/var/backups/openvibe/staging"
  services := [pages]
  backup_absolute := backups_absolute

/-- Only files in `public/` change, and the ready URL answers 500 from first to last. -/
def neverReady : Environment Machine := hostOf fun
  | .readlink path => if path = "/srv/pages/current" then some "/srv/pages/releases/20260901-aaaaaaaa" else none
  | .stat path => if path = "/srv/pages/releases/20260901-aaaaaaaa" ∨ path = "/srv/pages/git" then
      some { isFile := false, isDir := true } else none
  | .git _ _ _ .head => { stdout := "aaaaaaaaaaaaaaaaaaaaaaaaaaaaaaaaaaaaaaaa" }
  | .git _ _ _ (.revParse _) => { stdout := "bbbbbbbbbbbbbbbbbbbbbbbbbbbbbbbbbbbbbbbb" }
  | .git _ _ _ (.changedFiles ..) => { stdout := "public/index.html" }
  | .http .. => { status := 500 }
  | other => steady other

theorem pages_rolled_back :
    endCode ((apply pagesHost 7 pages pageRelease .deploy {}).run neverReady fresh).1 = some 3 := by
  decide +kernel

theorem rolled_back_serving_pages : ∃ plan w1 events,
    Begun neverReady fresh w1 pagesHost pages pageRelease .deploy {} plan ∧
      ((apply pagesHost 7 pages pageRelease .deploy {}).run neverReady fresh).2.trace =
        w1.trace ++ events ∧
      pointsTo pageRelease plan.currentDir events = plan.currentDir ∧
        (BackAnswered pages events → Serving pages events) := by
  obtain ⟨applied, ran, three⟩ := ran_of_endCode pages_rolled_back
  exact rolled_back_serving ran three

def refused (event : Event Machine) : Bool :=
  match event with
  | ⟨.http .., answer, _⟩ => decide (300 ≤ answer.status)
  | _ => true

/-- Exit code 3 of a service that never answered after `current` was switched back. -/
theorem rolled_back_unserved : ¬ ∀ env inv pid svc rel mode opts w final applied,
    (apply inv pid svc rel mode opts).run env w = (.ok applied, final) → applied.exitCode = 3 →
      ∃ plan w1 events, Begun env w w1 inv svc rel mode opts plan ∧
        final.trace = w1.trace ++ events ∧ pointsTo rel plan.currentDir events = plan.currentDir ∧
          Serving svc events := by
  intro serves
  obtain ⟨applied, ran, three⟩ := ran_of_endCode pages_rolled_back
  obtain ⟨plan, w1, events, -, trace, -, before, after, rfl, -, event, member, responds⟩ :=
    serves neverReady pagesHost 7 pages pageRelease .deploy {} fresh _ _ ran three
  have none : ((apply pagesHost 7 pages pageRelease .deploy {}).run neverReady fresh).2.trace.all
      refused = true := by decide +kernel
  rw [trace, List.all_eq_true] at none
  have late := none event (by simp [member])
  obtain ⟨ready, answer, t, -, rfl, -, early⟩ := responds
  have refuses : 300 ≤ HttpAnswer.status answer := of_decide_eq_true late
  omega

end OpenVibeHost.ReleaseLayout
