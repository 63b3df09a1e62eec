import OpenVibeHost.Footprints
import OpenVibeHost.Operations

/-! The frames of the steps of a deploy or rollback: the kinds of calls each makes, and
what it leaves alone of the run's own state. -/
namespace OpenVibeHost
open Effects Program

/-- What of a run's state says where the run stands and how it ended. -/
structure Outcome where
  writeRecord : Bool
  fromSha : Option String
  toSha : Option String
  fromRelease : Option String
  toRelease : Option String
  restartNeeded : Option Bool
  switched : Bool
  restarted : Bool
  ready : Option Bool
  result : Option Result
  checkoutMoved : Bool
  checkoutRestored : Bool
  autoRollback : Option AutoRollback

def Deploy.outcome (s : Deploy) : Outcome where
  writeRecord := s.writeRecord
  fromSha := s.record.fromSha
  toSha := s.record.toSha
  fromRelease := s.record.fromRelease
  toRelease := s.record.toRelease
  restartNeeded := s.record.restartNeeded
  switched := s.record.switched
  restarted := s.record.restarted
  ready := s.record.ready
  result := s.record.result
  checkoutMoved := s.record.checkoutMoved
  checkoutRestored := s.record.checkoutRestored
  autoRollback := s.record.autoRollback

/-- The outcome, with what a run has installed, built and prepared. -/
def Deploy.core (s : Deploy) : Outcome × List String × Bool × Option String :=
  (s.outcome, s.record.installed, s.record.built, s.record.prepared)

/-- How far the restart of a run is, and whether it was taken back. -/
def Deploy.progress (s : Deploy) : Bool × Option Bool × Option AutoRollback :=
  (s.record.restarted, s.record.ready, s.record.autoRollback)

section
variable {calls : Machine.Call → Bool} {α : Type}

theorem Effects.Program.Frame.progress {p : Ops α} (frame : Frame calls Deploy.outcome p) :
    Frame calls Deploy.progress p :=
  ⟨frame.emits, fun env w => congrArg (fun o : Outcome => (o.restarted, o.ready, o.autoRollback))
    (frame.keeps env w)⟩

theorem Effects.Program.Frame.outcome {p : Ops α} (frame : Frame calls Deploy.core p) :
    Frame calls Deploy.outcome p :=
  ⟨frame.emits, fun env w => congrArg Prod.fst (frame.keeps env w)⟩

namespace Releases

theorem frame_setRecord {τ : Type} {view : Deploy → τ} {f : Record → Record}
    (same : ∀ s : Deploy, view { s with record := f s.record } = view s) :
    Frame calls view (setRecord f) := frame_update same

@[grind ←] theorem emits_setRecord (f : Record → Record) : Emits calls (setRecord f) := emits_update _

@[grind ←] theorem emits_append (log : Allows calls .log) (inv : Inventory) (r : Record) :
    Emits calls (append inv r) := by
  unfold append
  grind

@[grind ←] theorem emits_list (look : Allows calls .look) (inv : Inventory) (id : String) :
    Emits calls (list inv id) := by
  unfold list
  grind

end Releases

/-! ### The plan of an in-place run -/

namespace ReleaseOps
open Releases

section
variable (look : Allows calls .look)
include look

@[grind ←] theorem emits_stoppedTracking (g : Checkout) (fromSha toSha : String)
    (paths : List String) : Emits calls (stoppedTracking g fromSha toSha paths) := by
  unfold stoppedTracking
  refine emits_bind (emits_fold fun stopped f _ => ?_) fun stopped => by grind
  refine emits_bind (by grind) fun before => ?_
  split
  · grind
  · exact emits_bind (by grind) fun after => by grind

@[grind ←] theorem emits_packageDirs (svc : Service) (changed : List String) :
    Emits calls (packageDirs svc changed) := by
  unfold packageDirs
  exact emits_bind (by grind) fun dirs => emits_pure _

@[grind ←] theorem emits_untrackedIncoming (svc : Service) (g : Checkout) (toSha : String)
    (added : List String) : Emits calls (untrackedIncoming svc g toSha added) := by
  unfold untrackedIncoming
  refine emits_fold fun found f _ => emits_bind (by grind) fun there => ?_
  split
  · grind
  · split
    · grind
    · exact emits_bind (by grind) fun mine => emits_bind (by grind) fun theirs => by grind

@[grind ←] theorem emits_untrackedOutput (svc : Service) (g : Checkout) (fromSha toSha : String)
    (changed removed : List String) :
    Emits calls (untrackedOutput svc g fromSha toSha changed removed) := by
  unfold untrackedOutput
  split
  · grind
  · refine emits_fold fun found f _ => ?_
    split
    · grind
    · split
      · grind
      · refine emits_bind (by grind) fun before => ?_
        split
        · grind
        · refine emits_bind (by grind) fun after => ?_
          split
          · grind
          · exact emits_bind (by grind) fun there => by grind

@[grind ←] theorem emits_hasModules (root pkg : String) : Emits calls (hasModules root pkg) := by
  unfold hasModules
  grind

@[grind ←] theorem emits_planInstalls (svc : Service) (g : Checkout) (fromSha toSha : String)
    (pkgDirs : List String) : Emits calls (planInstalls svc g fromSha toSha pkgDirs) := by
  unfold planInstalls
  dsimp only
  split
  · refine emits_bind ?_ fun need => emits_bind (by grind) fun modules => emits_pure _
    split
    · grind
    · refine emits_fold fun need pkg _ => emits_bind (by grind) fun n => emits_pure _
  · refine emits_fold fun steps pkg _ => emits_bind ?_ fun need => ?_
    · split <;> grind
    · exact emits_bind (by grind) fun modules => emits_pure _

@[grind ←] theorem emits_findExtraUnits (svc : Service) : Emits calls (findExtraUnits svc) := by
  unfold findExtraUnits
  split
  · grind
  · refine emits_bind (emits_attempt (emits_bind ?_ fun files => emits_pure _) (by grind))
      fun found => ?_
    · unfold Systemd.listUnitFiles
      exact emits_bind (by grind) fun r => by grind
    · exact emits_fold fun extra u _ => emits_bind (by grind) fun type => emits_pure _

@[grind ←] theorem emits_findDrift (svc : Service) (g : Checkout) (toSha : String) :
    Emits calls (findDrift svc g toSha) := by
  unfold findDrift
  refine emits_fold fun drift entry _ => ?_
  dsimp only
  refine emits_bind (by grind) fun want => ?_
  split
  · grind
  · exact emits_bind (by grind) fun installed => emits_pure _

@[grind ←] theorem emits_removedVhosts (svc : Service) (g : Checkout) (toSha : String)
    (changed : List String) : Emits calls (removedVhosts svc g toSha changed) := by
  unfold removedVhosts
  split
  · split
    · split
      · refine emits_fold fun removed f _ => ?_
        split
        · exact emits_bind (by grind) fun shown => by grind
        · grind
      · grind
    · grind
  · grind

@[grind ←] theorem emits_planCommits (g : Checkout) (mode : Mode) (fromSha toSha : String) :
    Emits calls (planCommits g mode fromSha toSha) := by
  unfold planCommits
  split
  · grind
  · cases mode <;> grind

@[grind ←] theorem emits_planSessions (svc : Service) (restartNeeded : Bool) :
    Emits calls (planSessions svc restartNeeded) := by
  unfold planSessions
  split <;> grind

variable (position : Allows calls .position)
include position

@[grind ←] theorem emits_planTarget (svc : Service) (g : Checkout) (mode : Mode) (opts : Options) :
    Emits calls (planTarget svc g mode opts) := by
  unfold planTarget
  cases mode with
  | deploy => exact emits_bind (by grind) fun _ => by grind
  | rollback =>
    dsimp only
    split
    · grind
    · grind
    · exact emits_bind (by grind) fun has => by grind

@[grind ←] theorem emits_computePlan (svc : Service) (mode : Mode) (opts : Options) :
    Emits calls (computePlan svc mode opts) := by
  unfold computePlan
  dsimp only
  split
  · grind
  · refine emits_bind (by grind) fun fromSha => emits_bind (by grind) fun tracked => ?_
    refine emits_bind (by grind) fun dirtyAll => emits_bind (by grind) fun toSha => ?_
    refine emits_bind (by split <;> grind) fun changed => emits_bind (by grind) fun commits => ?_
    refine emits_bind (by grind) fun skipWorktree => emits_bind (by grind) fun untracked => ?_
    refine emits_bind (by grind) fun pkgDirs => emits_bind (by split <;> grind) fun added => ?_
    refine emits_bind (by grind) fun lockfiles => emits_bind (by grind) fun output => ?_
    refine emits_bind (by grind) fun installs => emits_bind (by grind) fun extraUnits => ?_
    refine emits_bind (by grind) fun drift => emits_bind (by grind) fun _ => ?_
    exact emits_bind (by grind) fun removed => emits_pure _

end

/-! ### The steps of a run -/

section
variable (look : Allows calls .look)
include look

@[grind ←] theorem emits_startRecord (svc : Service) (mode : Mode) (layout : Option String) :
    Emits calls (startRecord svc mode layout) := by
  unfold startRecord
  refine emits_bind (by grind) fun random => emits_bind (by grind) fun t => ?_
  exact emits_bind (by grind) fun operator => emits_bind (by grind) fun host => by grind

theorem frame_pollTurn (svc : Service) (start : Nat) (carried : Nat × Probes.Sessions) :
    Frame calls Deploy.core (pollTurn svc start carried) := by
  unfold pollTurn
  refine frame_bind (by grind) fun _ => frame_bind (by grind) fun last => ?_
  dsimp only
  generalize (if last.idle = true then carried.1 + 1 else 0) = quiet
  by_cases enough : svc.drain.enough quiet = true
  · rw [if_pos enough]
    refine frame_bind (by grind) fun t => frame_bind ?_ fun _ => frame_pure _
    exact frame_setRecord fun _ => rfl
  · rw [if_neg enough]
    exact frame_pure _

theorem frame_poll (svc : Service) (start : Nat) (first : Probes.Sessions) :
    Frame calls Deploy.core (poll svc start first) := by
  unfold poll
  refine frame_bind (frame_whileWithin (frame_pollTurn look svc start) _) fun ended => ?_
  split
  · exact frame_pure _
  · exact frame_throw _

omit look in
theorem frame_waitOutsideLock (lock : Allows calls .lock) (inv : Inventory) (svc : Service)
    {work : Ops Unit} (works : Frame calls Deploy.core work) :
    Frame calls Deploy.core (waitOutsideLock inv svc work) := by
  unfold waitOutsideLock
  refine frame_bind (by grind) fun _ => frame_bind (frame_update fun _ => rfl) fun _ => ?_
  refine frame_ensure works (frame_bind (by grind) fun _ => frame_update fun _ => rfl)

theorem frame_guardSessions (lock : Allows calls .lock) (inv : Inventory) (svc : Service)
    (opts : Options) (checkedWhen : String) :
    Frame calls Deploy.core (guardSessions inv svc opts checkedWhen) := by
  unfold guardSessions
  refine frame_bind (by grind) fun first => frame_bind (frame_setRecord fun _ => rfl) fun _ => ?_
  by_cases idle : first.idle = true
  · rw [if_pos idle]
    exact frame_pure _
  · rw [if_neg idle]
    by_cases force : opts.force = true
    · rw [if_pos force]
      exact frame_setRecord fun _ => rfl
    · rw [if_neg force]
      have waits : Frame calls Deploy.core
          (now >>= fun start => waitOutsideLock inv svc (poll svc start first)) :=
        frame_bind frame_now fun start =>
          frame_waitOutsideLock lock inv svc (frame_poll look svc start first)
      split <;> grind

@[grind ←] theorem emits_releaseAnnouncements (svc : Service) :
    Emits calls (releaseAnnouncements svc) := by
  unfold releaseAnnouncements
  split
  · grind
  · dsimp only
    refine emits_bind (by grind) fun entries => emits_map (emits_fold fun out domain _ => ?_)
    refine emits_bind (by grind) fun m => ?_
    split
    · grind
    · split
      · split <;> grind
      · grind

variable (change : Allows calls .change)
include change

@[grind ←] theorem emits_verifyDeps (svc : Service) : Emits calls (verifyDeps svc) := by
  unfold verifyDeps
  exact emits_bind (by grind) fun pkgDirs => emits_bind (by grind) fun v => emits_pure _

theorem frame_installAll (svc : Service) (installs : List InstallStep) :
    Frame calls Deploy.outcome (installAll svc installs) := by
  unfold installAll
  refine frame_forEach fun i _ => ?_
  split
  · exact frame_bind (by grind) fun _ => frame_setRecord fun _ => rfl
  · exact frame_pure _

omit look in
@[grind ←] theorem emits_runBuild (svc : Service) : Emits calls (runBuild svc) := by
  unfold runBuild
  refine emits_forEach fun step _ => ?_
  dsimp only
  exact emits_bind (by grind) fun r => by grind

@[grind ←] theorem emits_installRepoVhosts (inv : Inventory) (svc : Service) :
    Emits calls (installRepoVhosts inv svc) := by
  unfold installRepoVhosts
  split
  · grind
  · split
    · grind
    · refine emits_bind ?_ fun names => emits_bind ?_ fun files => by grind
      · split
        · exact emits_bind (by grind) fun entries => emits_pure _
        · grind
      · exact emits_fold fun files rel _ => emits_bind (by grind) fun text => emits_pure _

theorem frame_installUnits (svc : Service) : Frame calls Deploy.core (installUnits svc) := by
  unfold installUnits
  refine frame_bind (frame_liftM (emits_fold fun changed entry _ => ?_)) fun changed => ?_
  · dsimp only
    refine emits_bind (by grind) fun want => ?_
    split
    · grind
    · refine emits_bind (by grind) fun installed => ?_
      split
      · grind
      · exact emits_bind (emits_run change (by simp [switches])) fun _ => emits_pure _
  · refine frame_bind (by grind) fun _ => frame_bind (frame_setRecord fun _ => rfl) fun _ => ?_
    refine frame_whenever fun _ => frame_liftM (emits_forEach fun unit _ => ?_)
    exact emits_bind (by grind) fun enabled => by grind

theorem frame_backupBeforeRestart (log : Allows calls .log) (inv : Inventory) (svc : Service) :
    Frame calls Deploy.core (backupBeforeRestart inv svc) := by
  unfold backupBeforeRestart
  refine frame_bind frame_own fun s => frame_bind (by grind) fun res => ?_
  exact frame_setRecord fun _ => rfl

omit look in
theorem frame_clearTheWay (svc : Service) (plan : Plan) :
    Frame calls Deploy.core (clearTheWay svc plan) := by
  unfold clearTheWay
  refine frame_bind (by grind) fun _ => frame_bind (frame_forEach fun f _ => ?_) fun _ =>
    frame_forEach fun f _ => ?_
  · exact frame_bind (by grind) fun _ => frame_setRecord fun _ => rfl
  · refine frame_bind (by grind) fun _ => frame_bind (by grind) fun _ => ?_
    exact frame_setRecord fun _ => rfl

theorem frame_restoreCheckout (move : Allows calls .move) (svc : Service) (sha : String) :
    Frame calls Deploy.core (restoreCheckout svc sha) := by
  unfold restoreCheckout
  refine frame_bind (by grind) fun _ => frame_bind frame_own fun s => ?_
  refine frame_bind (frame_forEach fun pkg _ => by grind) fun _ => frame_bind (by grind) fun v => ?_
  split
  · exact frame_throw _
  · split
    · grind
    · exact frame_pure _

omit look in
theorem frame_finish (log : Allows calls .log) (lock : Allows calls .lock) (inv : Inventory)
    (svc : Service) : Frame calls Deploy.core (finish inv svc) := by
  unfold finish
  refine frame_bind frame_now fun t => frame_bind (frame_setRecord fun _ => rfl) fun _ => ?_
  refine frame_bind frame_own fun s => frame_bind (by grind) fun _ => ?_
  exact frame_bind (by grind) fun _ => by grind

end

/-! ### Restarts -/

/-- Restarts of the unit are allowed, where it is not a socket unit. -/
def Restarts (calls : Machine.Call → Bool) (unit : String) : Prop :=
  endsWith unit ".socket" = false → calls (.systemctl .restart (some unit)) = true

theorem emits_restart {unit : String} (restart : Restarts calls unit) :
    Emits calls (Systemd.restart unit) := by
  unfold Systemd.restart Systemd.systemctl
  refine emits_bind ?_ fun r => by grind
  simp only [Systemd.allowed, ne_eq, reduceCtorEq, not_false_eq_true, decide_true,
    Bool.true_eq_false, if_false]
  split
  · grind
  · rename_i other
    exact emits_ask (restart (by simpa [Systemd.socketSafe] using other))

/-- A socket unit is started, where that call is allowed. -/
theorem emits_ensureActive (look : Allows calls .look) {unit : String}
    (start : calls (.systemctl .start (some unit)) = true) :
    Emits calls (Systemd.ensureSocketActive unit) := by
  unfold Systemd.ensureSocketActive
  refine emits_bind (by grind) fun state => ?_
  split
  · grind
  · refine emits_bind ?_ fun r => by grind
    unfold Systemd.systemctl
    simp only [Systemd.allowed, ne_eq, reduceCtorEq, not_false_eq_true, decide_true,
      Bool.true_eq_false, if_false]
    split
    · grind
    · exact emits_ask start

theorem emits_restartAndWait (look : Allows calls .look) {svc : Service} {units : List String}
    (start : ∀ unit, svc.socketUnit = some unit → calls (.systemctl .start (some unit)) = true)
    (restart : ∀ unit ∈ units, Restarts calls unit) (opts : Options)
    (expectSha : String) : Emits calls (restartAndWait svc opts units expectSha) := by
  unfold restartAndWait
  refine emits_bind (emits_forEach fun unit member => ?_) fun _ =>
    emits_bind (emits_forEach fun unit member => emits_restart (restart unit member)) fun _ => by grind
  exact emits_ensureActive look (start unit (by simpa using member))

/-- Every call that is no `start`, `stop` or `restart` of a unit is allowed. -/
def Calm (calls : Machine.Call → Bool) : Prop :=
  ∀ kind, kind ≠ .restart → kind ≠ .start → Allows calls kind

theorem frame_prepareRestart (look : Allows calls .look) (change : Allows calls .change)
    (lock : Allows calls .lock) (log : Allows calls .log) {inv : Inventory} {svc : Service}
    {opts : Options} {plan : Plan} (auxiliary : ∀ unit ∈ plan.auxRestart, Restarts calls unit) :
    Frame calls Deploy.outcome (prepareRestart inv svc opts plan) := by
  have records {f : Record → Record} (same : ∀ s : Deploy,
      Deploy.outcome { s with record := f s.record } = s.outcome) :
      Frame calls Deploy.outcome (setRecord f) := frame_setRecord same
  unfold prepareRestart
  refine frame_bind (frame_installAll look change svc plan.installs) fun _ => ?_
  refine frame_bind (by grind) fun v => frame_bind (records fun _ => rfl) fun _ => ?_
  split
  · exact frame_throw _
  · refine frame_bind (frame_whenever fun _ => records fun _ => rfl) fun _ => ?_
    refine frame_bind (by grind) fun _ => frame_bind (by grind) fun pf => ?_
    split
    · exact frame_bind (records fun _ => rfl) fun _ => frame_throw _
    · refine frame_bind (frame_whenever fun _ => records fun _ => rfl) fun _ => ?_
      refine frame_bind (frame_whenever fun _ => ?_) fun _ => ?_
      · exact frame_attempt (frame_liftM (by grind)) fun err => frame_throw _
      refine frame_bind (frame_whenever fun _ => (frame_installUnits look change svc).outcome) fun _ => ?_
      refine frame_bind (frame_whenever fun _ =>
        (frame_backupBeforeRestart look change log inv svc).outcome) fun _ => ?_
      refine frame_bind (frame_whenever fun _ =>
        (frame_guardSessions look lock inv svc opts _).outcome) fun _ => ?_
      refine frame_bind (records fun _ => rfl) fun _ => frame_forEach fun unit member => ?_
      exact frame_bind (frame_liftM (emits_restart (auxiliary unit member))) fun _ => records fun _ => rfl

theorem frame_undoPrepare (look : Allows calls .look) (change : Allows calls .change)
    (move : Allows calls .move) (svc : Service) (plan : Plan) (err : Failure) :
    Frame calls Deploy.progress (undoPrepare svc plan err) := by
  unfold undoPrepare
  refine frame_bind frame_own fun s => frame_bind (frame_whenever fun _ => ?_) fun _ => ?_
  · refine frame_attempt (frame_bind ?_ fun _ => frame_setRecord fun _ => rfl) fun e => frame_throw _
    exact (frame_restoreCheckout look change move svc plan.fromSha).outcome.progress
  · refine frame_bind frame_own fun s => ?_
    cases err <;> exact frame_throw _

section
variable (calm : Calm calls)
include calm

theorem emits_prepareRestart {inv : Inventory} {svc : Service} {opts : Options} {plan : Plan}
    (auxiliary : ∀ unit ∈ plan.auxRestart, Restarts calls unit) :
    Emits calls (prepareRestart inv svc opts plan) :=
  (frame_prepareRestart (calm _ (by decide) (by decide)) (calm _ (by decide) (by decide))
    (calm _ (by decide) (by decide)) (calm _ (by decide) (by decide)) auxiliary).emits

theorem emits_undoPrepare (svc : Service) (plan : Plan) (err : Failure) :
    Emits calls (undoPrepare svc plan err) :=
  (frame_undoPrepare (calm _ (by decide) (by decide)) (calm _ (by decide) (by decide))
    (calm _ (by decide) (by decide)) svc plan err).emits

section
variable {svc : Service} {plan : Plan}
  (start : ∀ unit, svc.socketUnit = some unit → calls (.systemctl .start (some unit)) = true)
  (restart : ∀ unit ∈ plan.units, Restarts calls unit)
include start restart

theorem emits_restartStage (mode : Mode) (opts : Options)
    (announcements : Option (List Announcement)) :
    Emits calls (restartStage svc mode opts plan announcements) := by
  have look : Allows calls .look := calm _ (by decide) (by decide)
  have change : Allows calls .change := calm _ (by decide) (by decide)
  have move : Allows calls .move := calm _ (by decide) (by decide)
  unfold restartStage
  refine emits_bind (emits_liftM (emits_restartAndWait look start restart opts _)) fun r => ?_
  refine emits_bind (emits_setRecord _) fun _ => ?_
  split
  · exact emits_bind (emits_setRecord _) fun _ => emits_pure _
  · unfold rollBack
    refine emits_bind (emits_setRecord _) fun _ => emits_attempt ?_ fun err => ?_
    · refine emits_bind (frame_restoreCheckout look change move svc plan.fromSha).emits fun _ => ?_
      refine emits_bind (emits_liftM (emits_restartAndWait look start restart opts _)) fun back => ?_
      refine emits_bind (emits_setRecord _) fun _ => ?_
      split <;> exact emits_bind (emits_setRecord _) fun _ => emits_pure _
    · exact emits_bind (emits_setRecord _) fun _ => emits_pure _

/-- What an in-place release does to units is to restart the plan's. -/
theorem emits_release (inv : Inventory) (mode : Mode) (opts : Options)
    (auxiliary : ∀ unit ∈ plan.auxRestart, Restarts calls unit) :
    Emits calls (release inv svc mode opts plan) := by
  have look : Allows calls .look := calm _ (by decide) (by decide)
  have change : Allows calls .change := calm _ (by decide) (by decide)
  have lock : Allows calls .lock := calm _ (by decide) (by decide)
  have move : Allows calls .move := calm _ (by decide) (by decide)
  unfold release
  refine emits_bind (emits_whenever fun _ =>
    (frame_guardSessions look lock inv svc opts _).emits) fun _ => ?_
  refine emits_bind (frame_clearTheWay change svc plan).emits fun _ => emits_bind ?_ fun _ => ?_
  · unfold moveCheckout
    split
    · exact emits_pure _
    · refine emits_bind ?_ fun _ => emits_setRecord _
      cases mode <;> exact emits_liftM (emits_mustRun move)
  · refine emits_bind (emits_attempt (emits_prepareRestart calm auxiliary)
      (emits_undoPrepare calm svc plan)) fun _ => emits_bind (by grind) fun announcements => ?_
    split
    · refine emits_bind ?_ fun _ => emits_pure _
      unfold finishWithoutRestart setResult
      refine emits_bind (emits_setRecord _) fun _ => ?_
      split
      · exact emits_bind (by grind) fun p => emits_setRecord _
      · exact emits_pure _
    · exact emits_restartStage calm start restart mode opts announcements

end

end

end ReleaseOps

/-! ### The release layout -/

namespace ReleaseLayout
open Releases ReleaseOps

section
variable (look : Allows calls .look)
include look

@[grind ←] theorem emits_listReleases (rel : ReleaseConfig) : Emits calls (listReleases rel) := by
  unfold listReleases
  refine emits_bind (by grind) fun entries => emits_bind (emits_fold fun out e _ => ?_)
    fun out => emits_pure _
  exact emits_bind (by grind) fun st => emits_pure _

@[grind ←] theorem emits_releasesInUse (svc : Service) (rel : ReleaseConfig) :
    Emits calls (releasesInUse svc rel) := by
  unfold releasesInUse
  refine emits_bind (emits_fold fun used u _ => ?_) fun mine => emits_fold fun used w _ => ?_
  · refine emits_bind (by grind) fun pid => ?_
    split
    · exact emits_pure _
    · exact emits_bind (by grind) fun cwd => emits_pure _
  · refine emits_bind (emits_attempt ?_ (by grind)) fun list => emits_pure _
    unfold Systemd.instances
    exact emits_bind (by grind) fun r => by grind

@[grind ←] theorem emits_planSteps (svc : Service) (rel : ReleaseConfig) (cur : Current)
    (fromSha toSha : String) (own : Bool) :
    Emits calls (planSteps svc rel cur fromSha toSha own) := by
  unfold planSteps
  refine emits_bind (by grind) fun found => emits_fold fun steps pkg _ => ?_
  split
  · exact emits_pure _
  · refine emits_bind (by split <;> grind) fun need => ?_
    exact emits_bind (by grind) fun modules => emits_pure _

@[grind ←] theorem emits_planSocket (svc : Service) (rel : ReleaseConfig) :
    Emits calls (planSocket svc rel) := by
  unfold planSocket
  split <;> grind

@[grind ←] theorem emits_settle (svc : Service) (rel : ReleaseConfig) :
    Emits calls (settle svc rel) := by
  unfold settle
  split
  · refine emits_bind (by grind) fun _ => emits_bind (by grind) fun p => ?_
    exact emits_bind (emits_setRecord _) fun _ => emits_pure _
  · exact emits_pure _

variable (position : Allows calls .position)
include position

omit look in
@[grind ←] theorem emits_releaseSha (svc : Service) (rel : ReleaseConfig) (dir : String) :
    Emits calls (releaseSha svc rel dir) := by
  unfold releaseSha
  refine emits_bind (by grind) fun h => ?_
  split
  · exact emits_pure _
  · split <;> grind

@[grind ←] theorem emits_currentRelease (svc : Service) (rel : ReleaseConfig) :
    Emits calls (currentRelease svc rel) := by
  unfold currentRelease
  refine emits_bind (by grind) fun target => ?_
  split
  · exact emits_pure _
  · exact emits_pure _
  · refine emits_bind (by grind) fun st => ?_
    split
    · exact emits_pure _
    · exact emits_bind (by grind) fun sha => emits_pure _

omit look in
@[grind ←] theorem emits_findBySha (svc : Service) (rel : ReleaseConfig) (short : String)
    (list : List Listed) : Emits calls (findBySha svc rel short list) := by
  unfold findBySha
  refine emits_firstOf fun r _ => emits_bind (by grind) fun sha => ?_
  split
  · split <;> exact emits_pure _
  · exact emits_pure _

@[grind ←] theorem emits_rollbackTarget (inv : Inventory) (svc : Service) (rel : ReleaseConfig)
    (cur : Current) (target : Option String) :
    Emits calls (rollbackTarget inv svc rel cur target) := by
  have withSha (r : Listed) : Emits calls (do
      return ({ id := r.id, dir := r.dir, sha := ← releaseSha svc rel r.dir } : Target) :
      Exec Target) := emits_bind (by grind) fun sha => emits_pure _
  unfold rollbackTarget
  refine emits_bind (by grind) fun list => ?_
  dsimp only
  split
  · split
    · exact emits_throw _
    · split
      · exact withSha _
      · refine emits_bind (by split <;> grind) fun hit => ?_
        split
        · exact emits_pure _
        · exact emits_throw _
  · refine emits_bind (by grind) fun records => emits_bind (by grind) fun replaced => ?_
    split
    · exact withSha _
    · split
      · exact withSha _
      · exact emits_throw _

@[grind ←] theorem emits_planRelease (inv : Inventory) (svc : Service) (rel : ReleaseConfig)
    (cur : Current) (mode : Mode) (opts : Options) :
    Emits calls (planRelease inv svc rel cur mode opts) := by
  unfold planRelease
  cases mode with
  | deploy =>
    refine emits_bind (by grind) fun _ => emits_bind (by grind) fun target => ?_
    refine emits_bind (by grind) fun t => emits_bind (by split <;> grind) fun reuse => ?_
    exact emits_pure _
  | rollback =>
    refine emits_bind (by grind) fun t => ?_
    split
    · exact emits_throw _
    · exact emits_throw _
    · exact emits_pure _

@[grind ←] theorem emits_computePlan (inv : Inventory) (svc : Service) (rel : ReleaseConfig)
    (mode : Mode) (opts : Options) : Emits calls (computePlan inv svc rel mode opts) := by
  unfold computePlan
  dsimp only
  split
  · exact emits_throw _
  · refine emits_bind (by grind) fun current => ?_
    split
    · exact emits_throw _
    · split
      · exact emits_throw _
      · exact emits_throw _
      · refine emits_bind (by grind) fun git => ?_
        split
        · exact emits_throw _
        · refine emits_bind (by grind) fun planned => ?_
          refine emits_bind (by split <;> grind) fun changed => ?_
          refine emits_bind (by grind) fun commits => emits_bind (by grind) fun drift => ?_
          refine emits_bind (by grind) fun installs => emits_bind (by grind) fun _ => ?_
          exact emits_bind (by grind) fun _ => emits_pure _

end

section
variable (change : Allows calls .change)
include change

theorem emits_switchCurrent (switch : Allows calls .switch) (rel : ReleaseConfig) (dir : String) :
    Emits calls (switchCurrent rel dir) := by
  unfold switchCurrent
  refine emits_bind (by grind) fun _ => emits_bind (by grind) fun _ => ?_
  refine emits_bind ?_ fun r => by grind
  exact emits_ask (switch _ (by simp [Call.kind, switches]))

variable (look : Allows calls .look)
include look

theorem emits_installReleaseUnit (svc : Service) (dir : String) (done : UnitsChanged)
    (entry : String × String) : Emits calls (installReleaseUnit svc dir done entry) := by
  unfold installReleaseUnit
  dsimp only
  refine emits_bind (by grind) fun want => ?_
  split
  · exact emits_pure _
  · refine emits_bind (by grind) fun installed => ?_
    split
    · exact emits_pure _
    · refine emits_bind (emits_run change (by simp [switches])) fun r => ?_
      split
      · exact emits_throw _
      · exact emits_pure _

@[grind ←] theorem emits_installReleaseUnits (svc : Service) (dir : String) :
    Emits calls (installReleaseUnits svc dir) := by
  unfold installReleaseUnits
  refine emits_bind (emits_fold fun done entry _ => ?_) fun done =>
    emits_bind (emits_whenever fun _ => ?_) fun _ => emits_pure _
  · exact emits_installReleaseUnit change look svc dir done entry
  · exact emits_bind (by grind) fun _ => emits_forEach fun u _ => by grind

omit change look in
theorem frame_removePrepared (worktree : Allows calls .worktree)
    (svc : Service) (rel : ReleaseConfig) (dir : String) :
    Frame calls Deploy.core (removePrepared svc rel dir) := by
  unfold removePrepared
  exact frame_bind (by grind) fun _ => frame_setRecord fun _ => rfl

@[grind ←] theorem emits_makeLinks (rel : ReleaseConfig) (dir : String) :
    Emits calls (makeLinks rel dir) := by
  unfold makeLinks
  refine emits_forEach fun entry _ => ?_
  dsimp only
  refine emits_bind (by grind) fun link => ?_
  split
  · exact emits_pure _
  · refine emits_bind (by grind) fun there => emits_bind (emits_whenever fun _ => ?_) fun _ => by grind
    exact emits_bind (emits_run change (by simp [switches])) fun _ => emits_pure _

theorem frame_takeModules (svc : Service) (plan : LayoutPlan) :
    Frame calls Deploy.outcome (takeModules svc plan) := by
  unfold takeModules
  refine frame_forEach fun i _ => ?_
  dsimp only
  split
  · exact frame_bind (by grind) fun _ => frame_setRecord fun _ => rfl
  · exact frame_bind (by grind) fun r => by grind

theorem frame_makeRelease (worktree : Allows calls .worktree) (svc : Service) (rel : ReleaseConfig)
    (plan : LayoutPlan) : Frame calls Deploy.outcome (makeRelease svc rel plan) := by
  unfold makeRelease
  refine frame_bind (by grind) fun _ => frame_bind (by grind) fun _ => ?_
  refine frame_bind (frame_setRecord fun _ => rfl) fun _ => frame_bind (by grind) fun _ => ?_
  exact frame_takeModules change look svc plan

theorem frame_prepare (worktree : Allows calls .worktree) (svc : Service) (rel : ReleaseConfig)
    (plan : LayoutPlan) : Frame calls Deploy.outcome (prepare svc rel plan) := by
  unfold prepare
  dsimp only
  refine frame_bind (frame_whenever fun _ => frame_makeRelease change look worktree svc rel plan)
    fun _ => frame_bind (by grind) fun pkgDirs => frame_bind (by grind) fun v => ?_
  refine frame_bind (frame_setRecord fun _ => rfl) fun _ => ?_
  split
  · exact frame_throw _
  · refine frame_bind (by grind) fun pf => ?_
    split
    · exact frame_bind (frame_setRecord fun _ => rfl) fun _ => frame_throw _
    · refine frame_bind (frame_whenever fun _ => frame_setRecord fun _ => rfl) fun _ => ?_
      split
      · exact frame_pure _
      · exact frame_bind (frame_liftM (emits_run change (by simp [switches]))) fun r => by grind

theorem frame_guardRestart (lock : Allows calls .lock) (log : Allows calls .log) (inv : Inventory)
    (svc : Service) (opts : Options) (plan : LayoutPlan) :
    Frame calls Deploy.core (guardRestart inv svc opts plan) := by
  unfold guardRestart
  refine frame_bind (frame_guardSessions look lock inv svc opts _) fun _ => frame_whenever fun _ => ?_
  refine frame_bind (frame_backupBeforeRestart look change log inv svc) fun _ => ?_
  exact frame_guardSessions look lock inv svc opts _

variable (position : Allows calls .position) (worktree : Allows calls .worktree)
include position worktree

@[grind ←] theorem emits_prune (svc : Service) (rel : ReleaseConfig) (keepIds : List String) :
    Emits calls (prune svc rel keepIds) := by
  unfold prune
  refine emits_bind (by grind) fun list => emits_bind (by grind) fun cur => ?_
  refine emits_bind (by grind) fun inUse => emits_bind (emits_fold fun removed r _ => ?_)
    fun removed => emits_bind (by grind) fun _ => emits_pure _
  have removes : Emits calls (do
      let gone ← Git.removeWorktree (gitClone svc rel) r.dir
      whenever (gone = false) do
        let _ ← Exec.run "rm" ["-rf", "--", r.dir] { privileged := true }
      return removed ++ [r.id] : Exec (List String)) := by
    refine emits_bind (by grind) fun gone => emits_bind (emits_whenever fun _ => ?_)
      fun _ => emits_pure _
    exact emits_bind (emits_run change (by simp [switches])) fun _ => emits_pure _
  cases cur <;> dsimp only <;> split <;> first
    | exact emits_pure _
    | exact removes

theorem frame_recordPrune (svc : Service) (rel : ReleaseConfig) (mode : Mode) (plan : LayoutPlan) :
    Frame calls Deploy.core (recordPrune svc rel mode plan) := by
  unfold recordPrune
  cases mode with
  | rollback => exact frame_pure _
  | deploy => exact frame_bind (by grind) fun pruned => frame_setRecord fun _ => rfl

end

/-! ### Restarts of a release -/

section
variable {svc : Service} (look : Allows calls .look)
  (start : ∀ unit, svc.socketUnit = some unit → calls (.systemctl .start (some unit)) = true)
include look start

theorem emits_rebindReason (rel : ReleaseConfig) (socketChanged : Bool) :
    Emits calls (rebindReason svc rel socketChanged) := by
  unfold rebindReason
  split
  · exact emits_pure _
  · rename_i unit socket
    refine emits_bind (emits_ensureActive look (start unit socket)) fun _ => ?_
    refine emits_bind (by split <;> grind) fun held => emits_pure _

omit start in
theorem emits_readied (rel : ReleaseConfig) (opts : Options) (expectSha : String) (reason : Option Systemd.RebindReason) :
    Emits calls (do
      let ready ← Readiness.waitReady svc opts.readyTimeout (some expectSha) svc.units
      match svc.socketUnit, socketPort svc rel with
      | some _, some port =>
        if ready.ok then
          let held ← Systemd.socketHeld port
          return { ready, rebind := reason, socketHeld := some held.held }
        else return { ready, rebind := reason }
      | _, _ => return { ready, rebind := reason } : Exec Restarted) := by
  refine emits_bind (by grind) fun ready => ?_
  split
  · split
    · exact emits_bind (by grind) fun held => emits_pure _
    · exact emits_pure _
  · exact emits_pure _

/-- The units of a service are restarted, its first one also stopped and started with its
socket. -/
theorem emits_restartRelease
    (restart : ∀ unit ∈ svc.units, Restarts calls unit)
    (rebind : ∀ unit ∈ svc.units, ∀ socket, svc.socketUnit = some socket →
      calls (.systemctl .stop (some unit)) = true ∧ calls (.systemctl .start (some unit)) = true ∧
        calls (.systemctl .restart (some socket)) = true)
    (rel : ReleaseConfig) (opts : Options) (socketChanged : Bool) (expectSha : String) :
    Emits calls (restartRelease svc rel opts socketChanged expectSha) := by
  have restarts (units : List String) (mine : ∀ unit ∈ units, unit ∈ svc.units) :
      Emits calls (forEach units Systemd.restart) :=
    emits_forEach fun unit member => emits_restart (restart unit (mine unit member))
  unfold restartRelease
  refine emits_bind (emits_rebindReason look start rel socketChanged) fun reason => ?_
  unfold rebindFirst
  split
  · rename_i _ socket bound
    split
    · rename_i first rest split
      rw [bind_assoc]
      refine emits_bind ?_ fun _ => ?_
      · obtain ⟨stop, begin', again⟩ := rebind first (by rw [split]; exact List.mem_cons_self) socket bound
        unfold Systemd.rebindSocket
        split
        · exact emits_throw _
        · refine emits_bind (emits_ask stop) fun _ => emits_bind (emits_ask again) fun _ => ?_
          exact emits_bind (emits_ask begin') fun started => by grind
      · rw [pure_bind]
        refine emits_bind (restarts rest fun unit member => ?_) fun _ => emits_readied look rel opts expectSha _
        rw [split]
        exact List.mem_cons_of_mem _ member
    · rw [throw_bind]
      exact emits_throw _
  · rw [pure_bind]
    exact emits_bind (restarts svc.units fun _ => id) fun _ => emits_readied look rel opts expectSha _

end

section
variable (calm : Calm calls) (svc : Service) (rel : ReleaseConfig)
include calm

/-- A new release is made, or what was made of it is removed. -/
theorem emits_makeReady (mode : Mode) (plan : LayoutPlan) :
    Emits calls (whenever (mode = .deploy ∧ plan.upToDate = false)
      (attempt (prepare svc rel plan) (undoPrepare svc rel plan))) := by
  have look : Allows calls .look := calm _ (by decide) (by decide)
  have change : Allows calls .change := calm _ (by decide) (by decide)
  have worktree : Allows calls .worktree := calm _ (by decide) (by decide)
  refine emits_whenever fun _ => emits_attempt ?_ fun err => ?_
  · exact (frame_prepare change look worktree svc rel plan).emits
  · unfold undoPrepare
    refine emits_bind emits_own fun s => emits_bind (emits_whenever fun _ => ?_) fun _ => ?_
    · exact (frame_removePrepared worktree svc rel _).emits
    · cases err <;> exact emits_throw _

/-- The guards before a restart, or the removal of the release that they refuse. -/
theorem emits_guarded (inv : Inventory) (opts : Options) (plan : LayoutPlan) (dir : String) :
    Emits calls (attempt (guardRestart inv svc opts plan) (undoGuard svc rel plan dir)) := by
  have look : Allows calls .look := calm _ (by decide) (by decide)
  have change : Allows calls .change := calm _ (by decide) (by decide)
  have worktree : Allows calls .worktree := calm _ (by decide) (by decide)
  have lock : Allows calls .lock := calm _ (by decide) (by decide)
  have log : Allows calls .log := calm _ (by decide) (by decide)
  refine emits_attempt ?_ fun err => ?_
  · exact (frame_guardRestart change look lock log inv svc opts plan).emits
  · unfold undoGuard
    refine emits_bind emits_own fun s => ?_
    dsimp only
    by_cases prepared : s.record.prepared.isSome = true
    · rw [if_pos prepared]
      refine emits_bind (frame_removePrepared worktree svc rel _).emits fun _ => ?_
      cases err <;> exact emits_throw _
    · rw [if_neg prepared]
      exact emits_throw _

theorem emits_switchTo (plan : LayoutPlan) (dir : String) : Emits calls (switchTo rel plan dir) := by
  have change : Allows calls .change := calm _ (by decide) (by decide)
  have switch : Allows calls .switch := calm _ (by decide) (by decide)
  unfold switchTo
  split
  · exact emits_pure _
  · exact emits_bind (emits_liftM (emits_switchCurrent change switch rel dir)) fun _ =>
      emits_setRecord _

theorem emits_switchOnly (mode : Mode) (plan : LayoutPlan) (dir : String) :
    Emits calls (switchOnly svc rel mode plan dir) := by
  have look : Allows calls .look := calm _ (by decide) (by decide)
  have change : Allows calls .change := calm _ (by decide) (by decide)
  have switch : Allows calls .switch := calm _ (by decide) (by decide)
  have position : Allows calls .position := calm _ (by decide) (by decide)
  have worktree : Allows calls .worktree := calm _ (by decide) (by decide)
  unfold switchOnly
  refine emits_bind (emits_switchTo calm rel plan dir) fun _ => emits_bind (by grind) fun p => ?_
  split
  · refine emits_bind (emits_liftM (emits_switchCurrent change switch rel _)) fun _ => ?_
    exact emits_bind (by grind) fun back => emits_bind (emits_setRecord _) fun _ => emits_pure _
  · refine emits_bind (emits_setRecord _) fun _ => emits_bind ?_ fun _ => emits_pure _
    exact (frame_recordPrune change look position worktree svc rel mode plan).emits

end

section
variable {svc : Service} (calm : Calm calls)
  (start : ∀ unit, svc.socketUnit = some unit → calls (.systemctl .start (some unit)) = true)
  (restart : ∀ unit ∈ svc.units, Restarts calls unit)
  (rebind : ∀ unit ∈ svc.units, ∀ socket, svc.socketUnit = some socket →
    calls (.systemctl .stop (some unit)) = true ∧ calls (.systemctl .start (some unit)) = true ∧
      calls (.systemctl .restart (some socket)) = true)
include calm start restart rebind

theorem emits_switchAndRestart (rel : ReleaseConfig) (mode : Mode) (opts : Options)
    (plan : LayoutPlan) (dir : String) :
    Emits calls (switchAndRestart svc rel mode opts plan dir) := by
  have look : Allows calls .look := calm _ (by decide) (by decide)
  have change : Allows calls .change := calm _ (by decide) (by decide)
  have switch : Allows calls .switch := calm _ (by decide) (by decide)
  have position : Allows calls .position := calm _ (by decide) (by decide)
  have worktree : Allows calls .worktree := calm _ (by decide) (by decide)
  have switches := emits_switchCurrent change switch rel
  have restarts := emits_restartRelease look start restart rebind rel opts
  unfold switchAndRestart
  refine emits_bind (emits_switchTo calm rel plan dir) fun _ => emits_bind (by grind) fun u => ?_
  refine emits_bind (emits_setRecord _) fun _ => emits_bind (emits_liftM (restarts _ _)) fun r => ?_
  refine emits_bind (emits_setRecord _) fun _ => ?_
  split
  · refine emits_bind (emits_setRecord _) fun _ => emits_bind ?_ fun _ => emits_pure _
    exact (frame_recordPrune change look position worktree svc rel mode plan).emits
  · unfold rollBack
    refine emits_bind (emits_setRecord _) fun _ => emits_attempt ?_ fun err => ?_
    · refine emits_bind emits_own fun s => emits_bind (emits_whenever fun _ => ?_) fun _ => ?_
      · exact emits_liftM (switches _)
      · refine emits_bind (by grind) fun back => emits_bind (emits_liftM (restarts _ _)) fun b => ?_
        refine emits_bind (emits_setRecord _) fun _ => ?_
        split <;> exact emits_bind (emits_setRecord _) fun _ => emits_pure _
    · exact emits_bind (emits_setRecord _) fun _ => emits_pure _

/-- What a release-layout run does to units is to restart the service's, the first perhaps
with its socket. -/
theorem emits_release (inv : Inventory) (rel : ReleaseConfig) (mode : Mode) (opts : Options)
    (plan : LayoutPlan) : Emits calls (release inv svc rel mode opts plan) := by
  unfold release
  refine emits_bind (emits_makeReady calm svc rel mode plan) fun _ => ?_
  dsimp only
  generalize (if plan.upToDate = true then plan.currentDir else plan.targetDir) = dir
  split
  · exact emits_bind (emits_setRecord _) fun _ => emits_pure _
  · split
    · exact emits_switchOnly calm svc rel mode plan dir
    · refine emits_bind (emits_guarded calm svc rel inv opts plan dir) fun _ => ?_
      exact emits_switchAndRestart calm start restart rebind rel mode opts plan dir

end

end ReleaseLayout

end

end OpenVibeHost
