import OpenVibeHost.SwitchBack
import OpenVibeHost.Pruning

/-! Failures after `current` was switched to another release. A run that fails then goes back
with exit code 3, or ends with exit code 4, unless a step that throws comes while `current`
points to the other release: nothing catches that. -/
namespace OpenVibeHost.ReleaseLayout
open Effects Program Releases ReleaseOps Readiness

/-! ### Which steps throw -/

/-- A step of a restart failed: a unit file was not read or installed, or a unit not
reloaded, started or restarted, or the listeners not listed. -/
inductive StepFails : Event Machine → Prop
  | read {path privileged message t} : StepFails ⟨.readFile path privileged, .error message, t⟩
  | install {args options t} {r : RunResult} (failed : r.code ≠ 0) :
      StepFails ⟨.run "install" args options, r, t⟩
  | reload {t} {r : RunResult} (failed : r.code ≠ 0) :
      StepFails ⟨.systemctl .daemonReload none, r, t⟩
  | start {unit t} {r : RunResult} (failed : r.code ≠ 0) :
      StepFails ⟨.systemctl .start (some unit), r, t⟩
  | restart {unit t} {r : RunResult} (service : endsWith unit ".service" = true)
      (failed : r.code ≠ 0) : StepFails ⟨.systemctl .restart (some unit), r, t⟩
  | listeners {port message t} : StepFails ⟨.listeners port, .error message, t⟩

/-- A step of `switchCurrent` failed. -/
inductive LinkFails (rel : ReleaseConfig) : Event Machine → Prop
  | remove {message t} :
      LinkFails rel ⟨.removeFile (temporaryLink rel) true, .error message, t⟩
  | link {dir message t} :
      LinkFails rel ⟨.symlink dir (temporaryLink rel) true, .error message, t⟩
  | move {options t} {r : RunResult} (failed : r.code ≠ 0) :
      LinkFails rel ⟨.run "mv" ["-T", "-f", temporaryLink rel, rel.current] options, r, t⟩

section
variable {svc : Service} {rel : ReleaseConfig}

theorem blames_orReject {fails : Event Machine → Prop} {α : Type} {call : Call}
    {read : Machine.Answer call → Except String α}
    (rejects : ∀ answer t message, read answer = .error message → fails ⟨call, answer, t⟩) :
    Blames fails (Exec.orReject call read) := by
  unfold Exec.orReject
  refine blames_ask_then fun answer t => ?_
  cases settled : read answer with
  | ok value => exact .inr (blames_ret value)
  | error message => exact .inl (rejects answer t message settled)

theorem blames_must {what : String} {action : Action} {unit : Option String}
    (allowed : Systemd.systemctl action unit =
      ask (S := Machine) (.systemctl action unit) fun answer => answer)
    {fails : Event Machine → Prop}
    (failed : ∀ (r : RunResult) t, r.code ≠ 0 → fails ⟨.systemctl action unit, r, t⟩) :
    Blames fails (Systemd.systemctl action unit >>= fun r => Systemd.must what r) := by
  rw [allowed]
  refine blames_ask_then fun r t => ?_
  unfold Systemd.must
  by_cases wrong : RunResult.code r ≠ 0
  · exact .inl (failed r t wrong)
  · rw [if_neg wrong]
    exact .inr (blames_pure ())

theorem blames_installReleaseUnits (dir : String) : Blames StepFails (installReleaseUnits svc dir) := by
  unfold installReleaseUnits
  refine blames_bind (blames_fold fun done entry _ => ?_) fun done => ?_
  · unfold installReleaseUnit
    dsimp only
    refine blames_bind (blames_orReject ?_) fun want => ?_
    · rintro answer t message rfl
      exact .read
    · split
      · exact blames_pure _
      · refine blames_bind (blames_orReject ?_) fun installed => ?_
        · rintro answer t message rfl
          exact .read
        · split
          · exact blames_pure _
          · refine blames_ask_then fun r t => ?_
            by_cases wrong : RunResult.code r ≠ 0
            · exact .inl (.install wrong)
            · rw [if_neg wrong]
              exact .inr (blames_pure _)
  · refine blames_bind (blames_whenever fun _ => blames_bind ?_ fun _ => blames_forEach fun unit _ => ?_)
      fun _ => blames_pure _
    · exact blames_must rfl fun r t wrong => .reload wrong
    · unfold Systemd.enable
      rw [systemctl_safe rfl rfl]
      exact blames_bind (blames_bind blames_ask fun r => blames_pure _) fun _ => blames_pure _

theorem blames_restart {unit : String} (service : endsWith unit ".service" = true) :
    Blames StepFails (Systemd.restart unit) := by
  unfold Systemd.restart
  exact blames_must (systemctl_service service) fun r t wrong => .restart service wrong

theorem blames_socketHeld (port : Nat) : Blames StepFails (Systemd.socketHeld port) := by
  unfold Systemd.socketHeld
  refine blames_bind (blames_orReject ?_) fun holders => blames_pure _
  rintro answer t message rfl
  exact .listeners

theorem blames_rebindReason (socketChanged : Bool) :
    Blames StepFails (rebindReason svc rel socketChanged) := by
  unfold rebindReason
  split
  · exact blames_pure _
  · rename_i socket _
    refine blames_bind ?_ fun _ => ?_
    · unfold Systemd.ensureSocketActive Systemd.showUnit
      rw [systemctl_safe rfl rfl]
      refine blames_bind (blames_bind blames_ask fun r => blames_pure _) fun state => ?_
      split
      · exact blames_pure _
      · exact blames_must (systemctl_safe rfl rfl) fun r t wrong => .start wrong
    · refine blames_bind ?_ fun held => blames_pure _
      split
      · exact blames_bind (blames_socketHeld _) fun hold => blames_pure _
      · exact blames_pure _

theorem blames_rebindFirst (units : svc.units ≠ []) (rebind : Option Systemd.RebindReason) :
    Blames StepFails (rebindFirst svc rebind) := by
  unfold rebindFirst
  split
  · rename_i socket bound
    split
    · rename_i first rest split
      refine blames_bind ?_ fun _ => blames_pure _
      have service := svc.unit_service first (by simp [split])
      have apart := svc.socket_socket socket bound
      unfold Systemd.rebindSocket
      rw [if_neg (by simp [service, apart])]
      refine blames_bind blames_ask fun _ => blames_bind blames_ask fun _ => ?_
      refine blames_ask_then fun r t => ?_
      unfold Systemd.must
      by_cases wrong : RunResult.code r ≠ 0
      · exact .inl (.start wrong)
      · rw [if_neg wrong]
        exact .inr (blames_pure ())
    · rename_i none
      exact absurd none units
  · exact blames_pure _

/-- The units that are left to restart are the service's. -/
theorem rebindFirst_units {rebind : Option Systemd.RebindReason} {env : Environment Machine}
    {w w' : World Machine Unit} {units : List String}
    (ran : Program.run (rebindFirst svc rebind) env w = (.ok units, w')) :
    ∀ unit ∈ units, unit ∈ svc.units := by
  unfold rebindFirst at ran
  split at ran
  · split at ran
    · rename_i first rest split
      obtain ⟨_, w1, -, ran⟩ := run_bind_ok.mp ran
      obtain ⟨same, -⟩ := Prod.mk.inj ran
      obtain rfl := Except.ok.inj same
      rw [split]
      exact fun unit member => List.mem_cons_of_mem _ member
    · exact nomatch ran
  · obtain ⟨same, -⟩ := Prod.mk.inj ran
    obtain rfl := Except.ok.inj same
    exact fun _ => id

theorem blames_restartRelease (opts : Options) (socketChanged : Bool) (expectSha : String)
    (units : svc.units ≠ []) : Blames StepFails (restartRelease svc rel opts socketChanged expectSha) := by
  unfold restartRelease
  refine blames_bind (blames_rebindReason socketChanged) fun rebind => ?_
  refine blames_bind_ran (blames_rebindFirst units rebind) fun env w w' units ran => ?_
  refine blames_bind (blames_forEach fun unit member => ?_) fun _ => ?_
  · exact blames_restart (svc.unit_service unit (rebindFirst_units ran unit member))
  · refine blames_bind ((never_waitReady _ _ _).mono fun _ => False.elim) fun ready => ?_
    split
    · split
      · exact blames_bind (blames_socketHeld _) fun held => blames_pure _
      · exact blames_pure _
    · exact blames_pure _

end

/-! ### Away from the release that is left -/

/-- `current` pointed to the release that is left all along. -/
def Home (rel : ReleaseConfig) (plan : LayoutPlan) (events : List (Event Machine)) : Prop :=
  ∀ earlier later, events = earlier ++ later → pointsTo rel plan.currentDir earlier = plan.currentDir

/-- A step failed while `current` pointed to another release: one of the restart, or of the
switch back of a run that restarts nothing. -/
def Spoiled (rel : ReleaseConfig) (plan : LayoutPlan) (events : List (Event Machine)) : Prop :=
  ∃ earlier event later, events = earlier ++ event :: later ∧
    pointsTo rel plan.currentDir earlier ≠ plan.currentDir ∧
    if plan.restartNeeded then StepFails event else LinkFails rel event

/-- `current` points to `dir`; where that is the release left, it always did. -/
def Arrived (rel : ReleaseConfig) (plan : LayoutPlan) (dir : String) (events : List (Event Machine)) :
    Prop :=
  pointsTo rel plan.currentDir events = dir ∧ (dir = plan.currentDir → Home rel plan events)

section
variable {rel : ReleaseConfig} {plan : LayoutPlan} {dir : String} {events more : List (Event Machine)}

theorem home_nil : Home rel plan [] := by
  intro earlier later split
  obtain ⟨rfl, -⟩ := List.append_eq_nil_iff.mp split.symm
  rfl

theorem home_snoc {event : Event Machine} : Home rel plan (events ++ [event]) ↔
    Home rel plan events ∧ pointsTo rel plan.currentDir (events ++ [event]) = plan.currentDir := by
  constructor
  · intro home
    exact ⟨fun earlier later split => home earlier (later ++ [event]) (by simp [split]),
      home _ [] (List.append_nil _).symm⟩
  · rintro ⟨home, last⟩ earlier later split
    obtain rfl | ⟨later, final, rfl⟩ := List.eq_nil_or_concat later
    · rwa [← List.append_nil earlier, ← split]
    · rw [List.concat_eq_append, ← List.append_assoc] at split
      exact home earlier later (List.append_inj' split rfl).1

theorem Home.points (home : Home rel plan events) : pointsTo rel plan.currentDir events = plan.currentDir :=
  home events [] (List.append_nil _).symm

theorem Home.stays {event : Event Machine} (home : Home rel plan events)
    (stays : noSwitch event.call = true) : Home rel plan (events ++ [event]) :=
  home_snoc.mpr ⟨home, (pointsTo_snoc stays).trans home.points⟩

theorem Home.append (home : Home rel plan events) (stay : ∀ event ∈ more, noSwitch event.call = true) :
    Home rel plan (events ++ more) := by
  induction more using List.reverseRecOn with
  | nil => rwa [List.append_nil]
  | append_singleton more event ih =>
    rw [← List.append_assoc]
    exact (ih fun earlier member => stay earlier (List.mem_append_left _ member)).stays (stay event (by simp))

theorem Spoiled.append (spoiled : Spoiled rel plan events) : Spoiled rel plan (events ++ more) := by
  obtain ⟨earlier, event, later, rfl, away, failed⟩ := spoiled
  exact ⟨earlier, event, later ++ more, by simp, away, failed⟩

theorem Arrived.stays {event : Event Machine} (arrived : Arrived rel plan dir events)
    (stays : noSwitch event.call = true) : Arrived rel plan dir (events ++ [event]) :=
  ⟨(pointsTo_snoc stays).trans arrived.1, fun same => (arrived.2 same).stays stays⟩

theorem Arrived.append (arrived : Arrived rel plan dir events)
    (stay : ∀ event ∈ more, noSwitch event.call = true) : Arrived rel plan dir (events ++ more) :=
  ⟨(pointsTo_append stay).trans arrived.1, fun same => (arrived.2 same).append stay⟩

end

/-- The ready URL has answered ok since `current` was switched, if there is one. -/
def Settled (svc : Service) (events : List (Event Machine)) : Prop :=
  svc.ready = none ∨ Serving svc events

theorem Settled.append {svc : Service} {events more : List (Event Machine)} (settled : Settled svc events)
    (stay : ∀ event ∈ more, noSwitch event.call = true) : Settled svc (events ++ more) :=
  settled.imp id fun serving => serving.append stay

/-- How a run ends that throws. -/
def Thrown (rel : ReleaseConfig) (plan : LayoutPlan) (events : List (Event Machine)) : Prop :=
  Home rel plan events ∨ Spoiled rel plan events

/-- How a run ends that does not. -/
def EndsWith (svc : Service) (rel : ReleaseConfig) (plan : LayoutPlan) (applied : Applied)
    (events : List (Event Machine)) : Prop :=
  (applied.exitCode = 0 ∧ (Home rel plan events ∨ Settled svc events)) ∨ applied.exitCode = 3 ∨
    applied.exitCode = 4

section
variable {env : Environment Machine} {base : List (Event Machine)} {svc : Service}
  {rel : ReleaseConfig} {opts : Options} {plan : LayoutPlan}

/-- `switchCurrent` throws by a step that failed, and `current` is where it was. -/
theorem meets_switchFails {K : List (Event Machine) → Prop} (left dir : String)
    (keeps : ∀ more event, noSwitch event.call = true → K more → K (more ++ [event])) :
    Meets env (Since base fun more _ => K more) (switchCurrent rel dir)
      (fun _ => Since base fun _ _ => True)
      (fun _ => Since base fun more _ => ∃ earlier event, more = earlier ++ [event] ∧ K earlier ∧
        LinkFails rel event ∧ pointsTo rel left more = pointsTo rel left earlier) := by
  unfold switchCurrent
  dsimp only
  refine meets_reject_then (fun _ removed clock ok => ?_) fun _ removed clock w wrong since => ?_
  · refine meets_reject_then (fun _ made clock' ok' => ?_) fun _ made clock' w wrong since => ?_
    · refine meets_since_ask_then fun r t => ?_
      split
      · rename_i failed
        refine meets_throw fun w since => since.mono ?_
        rintro _ _ ⟨_, rfl, _, rfl, more, rfl, holds⟩
        refine ⟨_, _, rfl, keeps _ _ rfl (keeps _ _ rfl holds), .move failed, ?_⟩
        unfold pointsTo
        rw [linksAfter_snoc]
        exact congrArg Links.current ((after_move rel _ r t).trans (if_neg failed))
      · exact meets_pure fun w => Since.onward
    · refine since.mono ?_
      rintro _ _ ⟨_, rfl, more, rfl, holds⟩
      obtain rfl : made = .error _ := wrong
      exact ⟨_, _, rfl, keeps _ _ rfl holds, .link, pointsTo_snoc rfl⟩
  · refine since.mono ?_
    rintro _ _ ⟨more, rfl, holds⟩
    obtain rfl : removed = .error _ := wrong
    exact ⟨_, _, rfl, holds, .remove, pointsTo_snoc rfl⟩

/-- A step that throws while `current` points to another release spoils the run. -/
theorem Arrived.thrown {dir : String} {earlier later : List (Event Machine)} {event : Event Machine}
    (arrived : Arrived rel plan dir earlier)
    (failed : if plan.restartNeeded then StepFails event else LinkFails rel event)
    (stay : dir = plan.currentDir → Home rel plan (earlier ++ event :: later)) :
    Thrown rel plan (earlier ++ event :: later) := by
  by_cases same : dir = plan.currentDir
  · exact .inl (stay same)
  · exact .inr ⟨earlier, event, later, rfl, fun home => same (arrived.1.symm.trans home), failed⟩

theorem meets_home {α : Type} {p : Ops α} (emits : Emits noSwitch p) :
    Meets env (Since base fun more _ => Home rel plan more) p
      (fun _ => Since base fun more _ => Home rel plan more)
      (fun _ => Since base fun more _ => Home rel plan more) :=
  emits.meets_events fun _ _ stays home => home.stays stays

theorem meets_switchAway (dir : String) :
    Meets env (Since base fun more _ => Home rel plan more) (switchTo rel plan dir)
      (fun _ => Since base fun more _ => Arrived rel plan dir more)
      (fun _ => Since base fun more _ => Home rel plan more) := by
  unfold switchTo
  split
  · rename_i same
    exact meets_pure fun w since => since.mono fun more s home => ⟨home.points.trans same.symm, fun _ => home⟩
  · rename_i other
    have fails : Meets env (Since base fun more _ => Home rel plan more)
        (liftM (switchCurrent rel dir) : Ops Unit) (fun _ => Since base fun _ _ => True)
        (fun _ => Since base fun more _ => Home rel plan more) := by
      refine meets_since_liftM fun _ => (meets_switchFails plan.currentDir dir
        fun _ _ stays (home : Home rel plan _) => home.stays stays).weaken (fun _ => id) (fun _ _ => id)
          fun e w since => since.mono ?_
      rintro _ _ ⟨earlier, event, rfl, home, -, same⟩
      exact home_snoc.mpr ⟨home, same.trans home.points⟩
    have points : Meets env (Since base fun more _ => Home rel plan more)
        (liftM (switchCurrent rel dir) : Ops Unit)
        (fun _ => Since base fun more _ => pointsTo rel plan.currentDir more = dir)
        (fun _ => Since base fun _ _ => True) := by
      refine (@meets_switch env base rel plan plan.currentDir dir).weaken (fun w since => ?_) (fun _ w since => ?_)
        fun _ _ => Since.onward
      · exact since.mono fun more s home => home.points
      · exact since.mono fun more s now => now.1
    refine meets_bind (M := fun _ => Since base fun more _ => Arrived rel plan dir more)
      ((fails.and points).weaken (fun _ => id) (fun _ w ended => ?_) fun _ w ended => ended.1) fun _ => ?_
    · exact ended.2.mono fun more s now => ⟨now, fun same => absurd same other⟩
    · exact meets_since_update fun more s arrived => arrived

/-- What a restart does throws only by a step that failed. -/
theorem meets_steps {α : Type} {p : Ops α} (restart : plan.restartNeeded = true)
    (blames : Blames StepFails p) (emits : Emits noSwitch p) (dir : String) :
    Meets env (Since base fun more _ => Arrived rel plan dir more) p
      (fun _ => Since base fun more _ => Arrived rel plan dir more)
      (fun _ => Since base fun more _ => Thrown rel plan more) := by
  refine blames.meets ⟨emits, show Keeps (fun _ => ()) p from fun _ _ => rfl⟩
    (stable_since (fun _ _ _ stays arrived => arrived.stays stays) fun _ _ _ _ => id) ?_
  rintro more new s s' arrived - stay ⟨event, member, failed⟩
  obtain ⟨earlier, later, rfl⟩ := List.append_of_mem member
  rw [← List.append_assoc]
  refine (arrived.append fun other within => stay other (List.mem_append_left _ within)).thrown ?_
    fun same => ?_
  · rwa [if_pos restart]
  · rw [List.append_assoc]
    exact (arrived.2 same).append stay

/-- A service that is restarted and gets ready has settled. -/
theorem meets_restartAway (restart : plan.restartNeeded = true) (units : svc.units ≠ [])
    (socketChanged : Bool) (expectSha dir : String) :
    Meets env (Since base fun more _ => Arrived rel plan dir more)
      (liftM (restartRelease svc rel opts socketChanged expectSha) : Ops Restarted)
      (fun r => Since base fun more _ => Arrived rel plan dir more ∧ (r.ready.ok = true → Settled svc more))
      (fun _ => Since base fun more _ => Thrown rel plan more) := by
  have steps : Meets env (Since base fun more _ => Arrived rel plan dir more)
      (liftM (restartRelease svc rel opts socketChanged expectSha) : Ops Restarted)
      (fun _ => Since base fun more _ => Arrived rel plan dir more)
      (fun _ => Since base fun more _ => Thrown rel plan more) :=
    meets_steps restart (blames_liftM (blames_restartRelease opts socketChanged expectSha units))
      (emits_liftM (emits_restarts socketChanged expectSha)) dir
  have ready : Meets env (Since base fun more _ => Arrived rel plan dir more)
      (liftM (restartRelease svc rel opts socketChanged expectSha) : Ops Restarted)
      (fun r => Since base fun more _ => r.ready.ok = true → Settled svc more)
      (fun _ => Since base fun _ _ => True) := by
    refine meets_since_liftM fun _ => ((emits_restarts socketChanged expectSha).meets_split
      (K := fun _ => True) fun base => meets_restarted socketChanged expectSha).weaken
        (fun _ => Since.onward) (fun r w since => since.mono ?_) fun _ _ => Since.onward
    rintro _ _ ⟨before, after, rfl, -, stays, answered, -⟩ ok
    obtain none | ⟨event, member, responds⟩ := answered ok
    · exact .inl none
    · exact .inr ⟨before, after, rfl, stays, event, member, responds⟩
  exact (steps.and ready).weaken (fun _ => id) (fun r w ended => ended.1.and ended.2) fun _ w ended => ended.1

/-- The way back of a run that restarts never throws. -/
theorem meets_rollBackCode :
    Meets env (Since base fun _ _ => True) (rollBack svc rel opts plan)
      (fun applied => Since base fun _ _ => applied.exitCode = 3 ∨ applied.exitCode = 4)
      (fun _ _ => False) := by
  unfold rollBack
  refine meets_bind (Blames.meets_onward (blames_update _)) fun _ => ?_
  refine meets_attempt (T := fun _ => Since base fun _ _ => True) ?_ fun err => ?_
  · refine meets_bind (meets_onward _) fun s => meets_bind (meets_onward _) fun _ => ?_
    refine meets_bind (meets_onward _) fun back => meets_bind (meets_onward _) fun b => ?_
    refine meets_bind (meets_onward _) fun _ => ?_
    split
    · refine meets_bind (meets_onward _) fun _ => meets_pure fun w since => ?_
      exact since.mono fun _ _ _ => .inl rfl
    · refine meets_bind (meets_onward _) fun _ => meets_pure fun w since => ?_
      exact since.mono fun _ _ _ => .inr rfl
  · refine meets_bind (Blames.meets_onward (blames_update _)) fun _ => meets_pure fun w since => ?_
    exact since.mono fun _ _ _ => .inr rfl

theorem never_prune (keepIds : List String) : Blames (fun _ => False) (prune svc rel keepIds) := by
  intro env w e thrown
  obtain ⟨list, found, -, -, removed, -⟩ := @Pruning.prune_removes env svc rel keepIds w
  rw [removed] at thrown
  exact nomatch thrown

theorem never_recordPrune (mode : Mode) : Blames (fun _ => False) (recordPrune svc rel mode plan) := by
  unfold recordPrune
  cases mode with
  | rollback => exact blames_pure _
  | deploy => exact blames_bind (blames_liftM (never_prune _)) fun pruned => blames_update _

/-- What is said of the links and of the readiness, pruning leaves. -/
theorem meets_recordPrune {P : List (Event Machine) → Prop} (mode : Mode)
    {err : Failure → World Machine Deploy → Prop}
    (stays : ∀ more event, noSwitch event.call = true → P more → P (more ++ [event])) :
    Meets env (Since base fun more _ => P more) (recordPrune svc rel mode plan)
      (fun _ => Since base fun more _ => P more) err := by
  have emits : Emits noSwitch (recordPrune svc rel mode plan) := by
    refine (frame_recordPrune ?_ ?_ ?_ ?_ svc rel mode plan).emits <;> exact allows_noSwitch (by decide)
  exact emits.meets_never (never_recordPrune mode) stays

theorem meets_settleAway (dir : String) :
    Meets env (Since base fun more _ => Arrived rel plan dir more) (settle svc rel)
      (fun p => Since base fun more _ => Arrived rel plan dir more ∧ (p = some true → Settled svc more))
      (fun _ _ => False) := by
  cases declared : svc.ready with
  | none =>
    have idle : settle svc rel = pure (some true) := by simp [settle, declared]
    rw [idle]
    exact meets_pure fun w since => since.mono fun more s arrived => ⟨arrived, fun _ => .inl declared⟩
  | some ready =>
    have answers (base : List (Event Machine)) : Meets env (Since base fun more _ => more = [])
        (settle svc rel) (fun p => Since base fun after _ => p = some true → Responded svc after)
        (fun _ => Since base fun _ _ => False) := by
      unfold settle
      rw [if_pos (by simp [declared])]
      refine meets_bind ((Blames.meets_onward (blames_liftM blames_ask)).weaken (fun _ => Since.onward)
        (fun _ _ => id) fun _ _ => id) fun _ => ?_
      refine meets_bind (meets_since_liftM fun _ => meets_probe) fun p => ?_
      exact meets_bind (meets_since_update fun more s answered => answered) fun _ => meets_pure fun _ => id
    refine ((frame_settle svc rel).emits.meets_split answers).weaken (fun _ => id) (fun p w since =>
      since.mono ?_) fun _ w since => ?_
    · rintro _ _ ⟨before, after, rfl, arrived, stay, answered⟩
      refine ⟨arrived.append stay, fun ok => (answered ok).imp id ?_⟩
      rintro ⟨event, member, responds⟩
      exact ⟨before, after, rfl, stay, event, member, responds⟩
    · obtain ⟨_, _, _, _, _, _, _, never⟩ := since
      exact never

theorem meets_switchOnlyEnds (still : plan.restartNeeded = false) (mode : Mode) (dir : String) :
    Meets env (Since base fun more _ => Home rel plan more) (switchOnly svc rel mode plan dir)
      (fun applied => Since base fun more _ => EndsWith svc rel plan applied more)
      (fun _ => Since base fun more _ => Thrown rel plan more) := by
  unfold switchOnly
  refine meets_bind ((meets_switchAway dir).weaken (fun _ => id) (fun _ _ => id) fun _ w since =>
    since.mono fun _ _ => .inl) fun _ => ?_
  refine meets_bind ((meets_settleAway dir).weaken (fun _ => id) (fun _ _ => id) fun _ _ => False.elim)
    fun p => ?_
  split
  · refine meets_bind (M := fun _ => Since base fun _ _ => True) ?_ fun _ => ?_
    · refine meets_since_liftM fun _ => ((meets_switchFails plan.currentDir plan.currentDir
        fun _ _ stays (arrived : Arrived rel plan dir _) => arrived.stays stays).weaken
          (fun w since => since.mono fun _ _ now => now.1) (fun _ _ => id) fun e w since => since.mono ?_)
      rintro _ _ ⟨earlier, event, rfl, arrived, failed, same⟩
      refine arrived.thrown (by rwa [if_neg (by simp [still])]) fun home => ?_
      exact home_snoc.mpr ⟨arrived.2 home, same.trans (arrived.2 home).points⟩
    · refine meets_bind (Blames.meets_onward (blames_liftM never_probe)) fun back => ?_
      refine meets_bind (Blames.meets_onward (blames_update _)) fun _ => meets_pure fun w since => ?_
      exact since.mono fun _ _ _ => .inr (.inl rfl)
  · rename_i ok
    refine meets_bind (M := fun _ => Since base fun more _ => Settled svc more)
      (fun w ⟨more, trace, now⟩ => ⟨more, trace, now.2 (not_not.mp ok)⟩) fun _ => ?_
    refine meets_bind (meets_recordPrune mode fun _ _ stays settled => ?_) fun _ => ?_
    · exact settled.append (by simpa using stays)
    · exact meets_pure fun w since => since.mono fun _ _ settled => .inl ⟨rfl, .inr settled⟩

theorem meets_switchAndRestartEnds (restart : plan.restartNeeded = true) (units : svc.units ≠ [])
    (mode : Mode) (dir : String) :
    Meets env (Since base fun more _ => Home rel plan more)
      (switchAndRestart svc rel mode opts plan dir)
      (fun applied => Since base fun more _ => EndsWith svc rel plan applied more)
      (fun _ => Since base fun more _ => Thrown rel plan more) := by
  have look : Allows noSwitch .look := allows_noSwitch (by decide)
  have change : Allows noSwitch .change := allows_noSwitch (by decide)
  unfold switchAndRestart
  refine meets_bind ((meets_switchAway dir).weaken (fun _ => id) (fun _ _ => id) fun _ w since =>
    since.mono fun _ _ => .inl) fun _ => ?_
  refine meets_bind (meets_steps restart (blames_liftM (blames_installReleaseUnits dir))
    (emits_liftM (emits_installReleaseUnits change look svc dir)) dir) fun u => ?_
  refine meets_bind (M := fun _ => Since base fun more _ => Arrived rel plan dir more)
    (meets_since_update fun _ _ arrived => arrived) fun _ => ?_
  refine meets_bind (meets_restartAway restart units _ _ dir) fun r => ?_
  refine meets_bind (M := fun _ => Since base fun more _ => r.ready.ok = true → Settled svc more)
    (meets_since_update fun _ _ now => now.2) fun _ => ?_
  split
  · rename_i ok
    refine meets_bind (M := fun _ => Since base fun more _ => Settled svc more)
      (fun w ⟨more, trace, now⟩ => ⟨more, trace, now ok⟩) fun _ => ?_
    refine meets_bind (meets_recordPrune mode fun _ _ stays settled => ?_) fun _ => ?_
    · exact settled.append (by simpa using stays)
    · exact meets_pure fun w since => since.mono fun _ _ settled => .inl ⟨rfl, .inr settled⟩
  · exact meets_rollBackCode.weaken (fun _ => Since.onward)
      (fun applied w since => since.mono fun _ _ => .inr) fun _ _ => False.elim

/-- However a release goes: what throws after a switch is a step that nothing catches. -/
theorem meets_releaseEnds (inv : Inventory) (mode : Mode) (units : plan.restartNeeded = true → svc.units ≠ []) :
    Meets env (Since base fun more _ => Home rel plan more) (release inv svc rel mode opts plan)
      (fun applied => Since base fun more _ => EndsWith svc rel plan applied more)
      (fun _ => Since base fun more _ => Thrown rel plan more) := by
  have look : Allows noSwitch .look := allows_noSwitch (by decide)
  have change : Allows noSwitch .change := allows_noSwitch (by decide)
  have worktree : Allows noSwitch .worktree := allows_noSwitch (by decide)
  have lock : Allows noSwitch .lock := allows_noSwitch (by decide)
  have log : Allows noSwitch .log := allows_noSwitch (by decide)
  have before {α : Type} {p : Ops α} (emits : Emits noSwitch p) :
      Meets env (Since base fun more _ => Home rel plan more) p
        (fun _ => Since base fun more _ => Home rel plan more)
        (fun _ => Since base fun more _ => Thrown rel plan more) :=
    (meets_home emits).weaken (fun _ => id) (fun _ _ => id) fun _ w since => since.mono fun _ _ => .inl
  unfold release
  refine meets_bind (before (emits_whenever fun _ => emits_attempt ?_ fun err => ?_)) fun _ => ?_
  · exact (frame_prepare change look worktree svc rel plan).emits
  · unfold undoPrepare
    refine emits_bind emits_own fun s => emits_bind (emits_whenever fun _ => ?_) fun _ => ?_
    · exact (frame_removePrepared worktree svc rel _).emits
    · cases err <;> exact emits_throw _
  · dsimp only
    generalize (if plan.upToDate = true then plan.currentDir else plan.targetDir) = dir
    split
    · refine meets_bind (M := fun _ => Since base fun more _ => Home rel plan more)
        (fun w ⟨more, trace, home⟩ => ⟨more, trace, home⟩) fun _ => meets_pure fun w since => ?_
      exact since.mono fun _ _ home => .inl ⟨rfl, .inl home⟩
    · split
      · rename_i still
        exact meets_switchOnlyEnds still mode dir
      · rename_i restart
        have restart : plan.restartNeeded = true := by simpa using restart
        refine meets_bind (before (emits_attempt ?_ fun err => ?_)) fun _ =>
          meets_switchAndRestartEnds restart (units restart) mode dir
        · exact (frame_guardRestart change look lock log inv svc opts plan).emits
        · unfold undoGuard
          refine emits_bind emits_own fun s => ?_
          dsimp only
          split
          · refine emits_bind (frame_removePrepared worktree svc rel _).emits fun _ => ?_
            cases err <;> exact emits_throw _
          · exact emits_throw _

end

/-- A run that switched `current` to another release and then fails, went back with exit
code 3 or says with exit code 4 that it could not; with exit code 0 the service is ready. -/
def WayBack (svc : Service) (rel : ReleaseConfig) (plan : LayoutPlan)
    (result : Except Failure Applied) (events : List (Event Machine)) : Prop :=
  ∃ applied, result = .ok applied ∧ ((applied.exitCode = 0 ∧ Settled svc events) ∨
    (applied.exitCode = 3 ∧ pointsTo rel plan.currentDir events = plan.currentDir) ∨
      applied.exitCode = 4)

/-- The release left is the current one of `pages`, its code changes, and its unit does not
restart. -/
def restartFails : Environment Machine := hostOf fun
  | .readlink path => if path = "/srv/pages/current" then some "/srv/pages/releases/20260901-aaaaaaaa" else none
  | .stat path => if path = "/srv/pages/releases/20260901-aaaaaaaa" ∨ path = "/srv/pages/git" then
      some { isFile := false, isDir := true } else none
  | .git _ _ _ .head => { stdout := "aaaaaaaaaaaaaaaaaaaaaaaaaaaaaaaaaaaaaaaa" }
  | .git _ _ _ (.revParse _) => { stdout := "bbbbbbbbbbbbbbbbbbbbbbbbbbbbbbbbbbbbbbbb" }
  | .git _ _ _ (.changedFiles ..) => { stdout := "server.js" }
  | .systemctl .restart _ => { code := 1 }
  | other => steady other

theorem restart_fails_throws :
    endCode ((apply pagesHost 7 pages pageRelease .deploy {}).run restartFails fresh).1 = none := by
  decide +kernel

theorem restart_fails_away : pointsTo pageRelease "/srv/pages/releases/20260901-aaaaaaaa"
    ((apply pagesHost 7 pages pageRelease .deploy {}).run restartFails fresh).2.trace ≠
      "/srv/pages/releases/20260901-aaaaaaaa" := by decide +kernel

end OpenVibeHost.ReleaseLayout
