import OpenVibeHost.AutomaticRollback
import OpenVibeHost.WorkerUnits

/-! The boundary of the automatic rollback. Once a unit of the service was asked to restart on
the new commit, a run ends well or with the exit codes of the rollback, unless a restart
command fails: nothing takes the checkout back then. -/
namespace OpenVibeHost.RollbackBoundary
open Effects Program Releases ReleaseOps Operations

/-! ### Units that are asked to restart -/

/-- The call restarts a unit of the plan that is not an auxiliary one. -/
def asksOwn (svc : Service) (plan : Plan) (call : Machine.Call) : Bool :=
  match call with
  | Call.systemctl .restart (some unit) =>
    plan.units.contains unit && !(svc.auxiliaryUnits.map (·.unit)).contains unit
  | _ => false

/-- A unit of the service was asked to restart. -/
def Asked (svc : Service) (plan : Plan) (events : List (Event Machine)) : Prop :=
  ∃ event ∈ events, asksOwn svc plan event.call = true

/-- A restart command that failed. -/
def restartFailed (event : Event Machine) : Bool :=
  match event with
  | ⟨.systemctl .restart (some _), r, _⟩ => decide (RunResult.code r ≠ 0)
  | _ => false

/-- The unit of the plan that a call restarts. -/
def restartsPlanned (plan : Plan) (call : Machine.Call) : Bool :=
  match call with
  | Call.systemctl .restart (some unit) => plan.units.contains unit
  | _ => false

/-- A restart of a unit of the plan failed on the new commit: one of the service's own, or
one that came after its own were asked. -/
def FailsOnNew (svc : Service) (plan : Plan) (events : List (Event Machine)) : Prop :=
  ∃ earlier event later, events = earlier ++ event :: later ∧ restartFailed event = true ∧
    restartsPlanned plan event.call = true ∧ movedTo svc earlier = some plan.toSha ∧
      (asksOwn svc plan event.call = true ∨ Asked svc plan earlier)

/-- The checkout was moved to the new commit, and then a restart of a unit of the service
failed. -/
def FailsAfterMove (svc : Service) (plan : Plan) (events : List (Event Machine)) : Prop :=
  ∃ earlier event later, events = earlier ++ event :: later ∧ restartFailed event = true ∧
    asksOwn svc plan event.call = true ∧ ∃ move ∈ earlier, movedBy svc move = some plan.toSha

/-- The units were restarted, and the service did not get ready. -/
def NotReady (s : Deploy) : Prop := s.record.restarted = true ∧ s.record.ready = some false

/-- What follows where a restart fails or the service does not get ready, and no other failure
after a unit of the service was asked to restart on the new commit. -/
def GoesBack (svc : Service) (plan : Plan) (result : Except Failure Applied) (s : Deploy)
    (events : List (Event Machine)) : Prop :=
  (FailsAfterMove svc plan events ∨ NotReady s → exitCode result = 3 ∨ exitCode result = 4) ∧
    (movedTo svc events = some plan.toSha → Asked svc plan events →
      exitCode result = 0 ∨ exitCode result = 3 ∨ exitCode result = 4)

/-! ### Before the units are restarted -/

def unasking (svc : Service) (plan : Plan) (call : Machine.Call) : Bool := !asksOwn svc plan call

section
variable {svc : Service} {plan : Plan} {events more : List (Event Machine)}

theorem calm (svc : Service) (plan : Plan) : Calm (unasking svc plan) := by
  intro kind notRestart notStart call same
  cases call with
  | systemctl action unit => cases action <;> simp_all [Call.kind, Action.kind, unasking, asksOwn]
  | _ => rfl

theorem restarts_auxiliary {unit : String} (declared : ∃ a ∈ svc.auxiliaryUnits, a.unit = unit) :
    Restarts (unasking svc plan) unit := by
  intro _
  obtain ⟨a, listed, rfl⟩ := declared
  have within : a.unit ∈ svc.auxiliaryUnits.map (·.unit) := List.mem_map.mpr ⟨a, listed, rfl⟩
  simp [unasking, asksOwn, within]

theorem unasked_snoc {event : Event Machine} (unasked : ¬ Asked svc plan events)
    (silent : unasking svc plan event.call = true) : ¬ Asked svc plan (events ++ [event]) := by
  rintro ⟨other, member, asks⟩
  obtain early | last := List.mem_append.mp member
  · exact unasked ⟨other, early, asks⟩
  · obtain rfl := List.mem_singleton.mp last
    simp [unasking, asks] at silent

end

/-! ### On the new commit -/

/-- Neither asks a unit of the service to restart, nor moves the checkout. -/
def still (svc : Service) (plan : Plan) (call : Machine.Call) : Bool := unasking svc plan call && noMove call

/-- The checkout was not moved. -/
def Unmoved (svc : Service) (events : List (Event Machine)) : Prop :=
  ∀ event ∈ events, movedBy svc event = none

/-- The checkout was not moved, or is on the new commit. -/
def Onward (svc : Service) (plan : Plan) (events : List (Event Machine)) : Prop :=
  Unmoved svc events ∨ movedTo svc events = some plan.toSha

/-- No restart of a unit of the service failed. -/
def NoneFailed (svc : Service) (plan : Plan) (events : List (Event Machine)) : Prop :=
  ∀ event ∈ events, asksOwn svc plan event.call = true → restartFailed event = false

/-- How a run is that throws. -/
def Excused (svc : Service) (plan : Plan) (events : List (Event Machine)) : Prop :=
  ¬ Asked svc plan events ∨ Unmoved svc events ∨ FailsOnNew svc plan events

section
variable {svc : Service} {plan : Plan} {events : List (Event Machine)} {event : Event Machine}

theorem still_allows {kind : Kind} (notRestart : kind ≠ .restart) (notStart : kind ≠ .start)
    (notMove : kind ≠ .move) : Allows (still svc plan) kind := by
  intro call same
  exact Bool.and_eq_true_iff.mpr ⟨calm svc plan kind notRestart notStart call same,
    allows_noMove notMove call same⟩

theorem Unmoved.stays (unmoved : Unmoved svc events) (stays : noMove event.call = true) :
    Unmoved svc (events ++ [event]) := by
  intro other member
  obtain early | last := List.mem_append.mp member
  · exact unmoved other early
  · obtain rfl := List.mem_singleton.mp last
    exact movedBy_none stays

theorem Unmoved.movedTo (unmoved : Unmoved svc events) : movedTo svc events = none := by
  induction events using List.reverseRecOn with
  | nil => rfl
  | append_singleton events event ih =>
    rw [movedTo_snoc, unmoved event (by simp), Option.none_or]
    exact ih fun earlier member => unmoved earlier (List.mem_append_left _ member)

theorem Onward.stays (onward : Onward svc plan events) (stays : noMove event.call = true) :
    Onward svc plan (events ++ [event]) := by
  refine onward.imp (·.stays stays) fun moved => (movedTo_append fun other member => ?_).trans moved
  obtain rfl := List.mem_singleton.mp member
  exact stays

theorem NoneFailed.snoc (none : NoneFailed svc plan events)
    (fine : asksOwn svc plan event.call = true → restartFailed event = false) :
    NoneFailed svc plan (events ++ [event]) := by
  intro other member
  obtain early | last := List.mem_append.mp member
  · exact none other early
  · obtain rfl := List.mem_singleton.mp last
    exact fine

theorem noneFailed_of_unasked (unasked : ¬ Asked svc plan events) : NoneFailed svc plan events :=
  fun event member asks => absurd ⟨event, member, asks⟩ unasked

/-- What a failing restart of the plan makes of a run. -/
theorem excused_restart (onward : Onward svc plan events) (failed : restartFailed event = true)
    (planned : restartsPlanned plan event.call = true) (stays : noMove event.call = true) :
    Excused svc plan (events ++ [event]) := by
  by_cases own : asksOwn svc plan event.call = true ∨ Asked svc plan events
  · obtain unmoved | moved := onward
    · exact .inr (.inl (unmoved.stays stays))
    · exact .inr (.inr ⟨events, event, [], rfl, failed, planned, moved, own⟩)
  · obtain ⟨other, unasked⟩ := not_or.mp own
    exact .inl (unasked_snoc unasked (by simp [unasking, other]))

end

/-! ### The restart -/

/-- No unit of the service was asked so far, and the checkout is where a restart finds it. -/
def Placed (svc : Service) (plan : Plan) (events : List (Event Machine)) : Prop :=
  ¬ Asked svc plan events ∧ Onward svc plan events

/-- No restart of a unit of the service has failed so far. -/
def Going (svc : Service) (plan : Plan) (events : List (Event Machine)) : Prop :=
  NoneFailed svc plan events ∧ Onward svc plan events

theorem Placed.going {svc : Service} {plan : Plan} {events : List (Event Machine)}
    (placed : Placed svc plan events) : Going svc plan events :=
  ⟨noneFailed_of_unasked placed.1, placed.2⟩

theorem Placed.stays {svc : Service} {plan : Plan} {events : List (Event Machine)} {event : Event Machine}
    (placed : Placed svc plan events) (still' : still svc plan event.call = true) :
    Placed svc plan (events ++ [event]) :=
  have ⟨silent, stays⟩ := Bool.and_eq_true_iff.mp still'
  ⟨unasked_snoc placed.1 silent, placed.2.stays stays⟩

theorem Going.stays {svc : Service} {plan : Plan} {events : List (Event Machine)} {event : Event Machine}
    (going : Going svc plan events) (still' : still svc plan event.call = true) :
    Going svc plan (events ++ [event]) := by
  obtain ⟨silent, stays⟩ := Bool.and_eq_true_iff.mp still'
  refine ⟨going.1.snoc fun asks => ?_, going.2.stays stays⟩
  simp [unasking, asks] at silent

section
variable {env : Environment Machine} {base : List (Event Machine)} {svc : Service} {opts : Options}
  {plan : Plan}

/-- A unit of the plan restarts, or is the one that fails. -/
theorem meets_restart {unit : String} (planned : unit ∈ plan.units)
    (service : endsWith unit ".service" = true) :
    Meets env (Since base fun more _ => Going svc plan more) (Systemd.restart unit)
      (fun _ => Since base fun more _ => Going svc plan more)
      (fun _ => Since base fun more _ => Excused svc plan more) := by
  unfold Systemd.restart
  rw [systemctl_service service]
  refine meets_since_ask_then fun r t => ?_
  unfold Systemd.must
  split
  · rename_i failed
    refine meets_throw fun w since => since.mono ?_
    rintro _ _ ⟨before, rfl, going⟩
    exact excused_restart going.2 (decide_eq_true failed) (by simpa [restartsPlanned] using planned) rfl
  · rename_i ok
    refine meets_pure fun w since => since.mono ?_
    rintro _ _ ⟨before, rfl, going⟩
    exact ⟨going.1.snoc fun _ => decide_eq_false ok, going.2.stays rfl⟩

theorem meets_restartAndWait (services : ∀ unit ∈ plan.units, endsWith unit ".service" = true)
    (expectSha : String) :
    Meets env (Since base fun more _ => Placed svc plan more)
      (restartAndWait svc opts plan.units expectSha)
      (fun _ => Since base fun more _ => Going svc plan more)
      (fun _ => Since base fun more _ => Excused svc plan more) := by
  have look : Allows (still svc plan) .look := still_allows (by decide) (by decide) (by decide)
  unfold restartAndWait
  refine meets_bind (M := fun _ => Since base fun more _ => Placed svc plan more) ?_ fun _ => ?_
  · have emits : Emits (still svc plan) (forEach svc.socketUnit.toList Systemd.ensureSocketActive) :=
      emits_forEach fun unit _ => emits_ensureActive look rfl
    exact (emits.meets_events fun _ _ still' placed => placed.stays still').weaken (fun _ => id)
      (fun _ _ => id) fun _ w since => since.mono fun _ _ placed => .inl placed.1
  · refine meets_bind (M := fun _ => Since base fun more _ => Going svc plan more) ?_ fun _ => ?_
    · exact (meets_forEach fun unit member => meets_restart member (services unit member)).weaken
        (fun w since => since.mono fun _ _ placed => placed.going) (fun _ _ => id) fun _ _ => id
    · have waits : Emits (still svc plan) (Readiness.waitReady svc opts.readyTimeout (some expectSha)
        plan.units) := emits_waitReady look svc _ _ _
      exact waits.meets_never (Readiness.never_waitReady _ _ _) fun _ _ still' going => going.stays still'

/-- How a run ends that does not throw. -/
def EndsWith (svc : Service) (plan : Plan) (applied : Applied) (events : List (Event Machine))
    (s : Deploy) : Prop :=
  (applied.exitCode = 0 ∧ NoneFailed svc plan events ∧ ¬ NotReady s) ∨ applied.exitCode = 3 ∨
    applied.exitCode = 4

theorem meets_restartStage (services : ∀ unit ∈ plan.units, endsWith unit ".service" = true)
    (mode : Mode) (announcements : Option (List Announcement)) :
    Meets env (Since base fun more s => Placed svc plan more ∧ s.record.restarted = false)
      (restartStage svc mode opts plan announcements)
      (fun applied => Since base fun more s => EndsWith svc plan applied more s)
      (fun _ => Since base fun more s => Excused svc plan more ∧ s.record.restarted = false) := by
  unfold restartStage
  refine meets_bind (M := fun _ => Since base fun more _ => Going svc plan more) ?_ fun r => ?_
  · refine meets_since_liftM fun s => meets_given (fun w ⟨_, _, _, idle⟩ => idle) fun idle => ?_
    refine (meets_restartAndWait services _).weaken (fun w since => since.mono fun _ _ now => now.1)
      (fun _ _ => id) fun _ w since => since.mono fun _ _ excused => ⟨excused, idle⟩
  · refine meets_bind (M := fun _ => Since base fun more s => Going svc plan more ∧
      s.record.ready = some r.ok) (meets_since_update fun _ _ going => ⟨going, rfl⟩) fun _ => ?_
    split
    · rename_i ok
      refine meets_bind (M := fun _ => Since base fun more s => Going svc plan more ∧
        s.record.ready = some true) (fun w ⟨more, trace, going, ready⟩ =>
          ⟨more, trace, going, ready.trans (congrArg some ok)⟩) fun _ => ?_
      refine meets_pure fun w since => since.mono fun _ _ ⟨going, ready⟩ => .inl ⟨rfl, going.1, ?_⟩
      rintro ⟨-, unready⟩
      rw [ready] at unready
      exact nomatch unready
    · exact meets_rollBack.weaken (fun _ => Since.onward) (fun _ w since => since.mono fun _ _ rolled =>
        .inr (rolled.imp_left And.left)) fun _ _ => False.elim

/-- What other steps leave before the restart. -/
theorem meets_step {α : Type} {P : List (Event Machine) → Prop} {p : Ops α}
    (frame : Frame (still svc plan) Deploy.progress p)
    (sees : ∀ more event, still svc plan event.call = true → P more → P (more ++ [event])) :
    Meets env (Since base fun more s => P more ∧ s.record.restarted = false) p
      (fun _ => Since base fun more s => P more ∧ s.record.restarted = false)
      (fun _ => Since base fun more s => P more ∧ s.record.restarted = false) :=
  frame.meets (stable_since (fun _ _ event still' now => ⟨sees _ event still' now.1, now.2⟩)
    fun _ _ _ same now => ⟨now.1, (congrArg Prod.fst same).trans now.2⟩)

theorem meets_moveCheckout (mode : Mode) :
    Meets env (Since base fun more s => (¬ Asked svc plan more ∧ Unmoved svc more) ∧
        s.record.restarted = false) (moveCheckout svc mode plan)
      (fun _ => Since base fun more s => Placed svc plan more ∧ s.record.restarted = false)
      (fun _ => Since base fun more s => ¬ Asked svc plan more ∧ s.record.restarted = false) := by
  unfold moveCheckout
  split
  · exact meets_pure fun w since => since.mono fun _ _ ⟨⟨unasked, unmoved⟩, idle⟩ =>
      ⟨⟨unasked, .inl unmoved⟩, idle⟩
  · have moves (command : Git) (there : ∀ r t, RunResult.code r = 0 →
        movedBy svc ⟨.git svc.repo false svc.owner command, r, t⟩ = some plan.toSha) :
        Meets env (Since base fun more s => (¬ Asked svc plan more ∧ Unmoved svc more) ∧
          s.record.restarted = false) (liftM (Git.mustRun svc.checkout command) : Ops RunResult)
        (fun _ => Since base fun more s => Placed svc plan more ∧ s.record.restarted = false)
        (fun _ => Since base fun more s => ¬ Asked svc plan more ∧ s.record.restarted = false) := by
      refine meets_since_liftM fun s => ?_
      unfold Git.mustRun Git.tryRun
      refine meets_since_ask_then fun r t => ?_
      split
      · refine meets_throw fun w since => since.mono ?_
        rintro _ _ ⟨before, rfl, ⟨unasked, -⟩, idle⟩
        exact ⟨unasked_snoc unasked rfl, idle⟩
      · rename_i ok
        refine meets_pure fun w since => since.mono ?_
        rintro _ _ ⟨before, rfl, ⟨unasked, -⟩, idle⟩
        refine ⟨⟨unasked_snoc unasked rfl, .inr ?_⟩, idle⟩
        rw [movedTo_snoc]
        exact (congrArg (fun place => Option.or place (movedTo svc before))
          (there r t (not_not.mp ok))).trans Option.some_or
    refine meets_bind (M := fun _ => Since base fun more s => Placed svc plan more ∧
      s.record.restarted = false) ?_ fun _ => meets_since_update fun _ _ => id
    cases mode with
    | deploy => exact moves _ fun r t ok => if_pos ⟨rfl, ok⟩
    | rollback => exact moves _ fun r t ok => if_pos ⟨rfl, ok⟩

theorem undoPrepare_throws (err : Failure) {pre : World Machine Deploy → Prop} :
    Meets env pre (undoPrepare svc plan err) (fun _ _ => False) (fun _ _ => True) := by
  unfold undoPrepare
  refine meets_bind (meets_anyhow _) fun s => meets_bind (meets_anyhow _) fun _ => ?_
  refine meets_bind (meets_anyhow _) fun s => ?_
  cases err <;> exact meets_throw fun _ _ => trivial

theorem Excused.unasked {events : List (Event Machine)} {s : Deploy}
    (now : ¬ Asked svc plan events ∧ s.record.restarted = false) :
    Excused svc plan events ∧ s.record.restarted = false := ⟨.inl now.1, now.2⟩

/-- However an in-place release goes: what throws once a unit of the service was asked is a
restart command. -/
theorem meets_release (inv : Inventory) (mode : Mode)
    (services : ∀ unit ∈ plan.units, endsWith unit ".service" = true)
    (auxiliary : ∀ unit ∈ plan.auxRestart, ∃ a ∈ svc.auxiliaryUnits, a.unit = unit) :
    Meets env (Since base fun more s => (¬ Asked svc plan more ∧ Unmoved svc more) ∧
        s.record.restarted = false) (release inv svc mode opts plan)
      (fun applied => Since base fun more s => EndsWith svc plan applied more s)
      (fun _ => Since base fun more s => Excused svc plan more ∧ s.record.restarted = false) := by
  have look : Allows (still svc plan) .look := still_allows (by decide) (by decide) (by decide)
  have change : Allows (still svc plan) .change := still_allows (by decide) (by decide) (by decide)
  have lock : Allows (still svc plan) .lock := still_allows (by decide) (by decide) (by decide)
  have log : Allows (still svc plan) .log := still_allows (by decide) (by decide) (by decide)
  have early {α : Type} {p : Ops α} (frame : Frame (still svc plan) Deploy.progress p) :
      Meets env (Since base fun more s => (¬ Asked svc plan more ∧ Unmoved svc more) ∧
          s.record.restarted = false) p
        (fun _ => Since base fun more s => (¬ Asked svc plan more ∧ Unmoved svc more) ∧
          s.record.restarted = false)
        (fun _ => Since base fun more s => Excused svc plan more ∧ s.record.restarted = false) := by
    refine (meets_step frame fun more event still' now => ?_).weaken (fun _ => id) (fun _ _ => id)
      fun _ w since => since.mono fun _ _ now => Excused.unasked ⟨now.1.1, now.2⟩
    obtain ⟨silent, stays⟩ := Bool.and_eq_true_iff.mp still'
    exact ⟨unasked_snoc now.1 silent, now.2.stays stays⟩
  unfold release
  refine meets_bind (early (frame_whenever fun _ =>
    (frame_guardSessions look lock inv svc opts _).outcome.progress)) fun _ => ?_
  refine meets_bind (early (frame_clearTheWay change svc plan).outcome.progress) fun _ => ?_
  refine meets_bind ((meets_moveCheckout mode).weaken (fun _ => id) (fun _ _ => id) fun _ w since =>
    since.mono fun _ _ => Excused.unasked) fun _ => ?_
  refine meets_bind (M := fun _ => Since base fun more s => Placed svc plan more ∧
    s.record.restarted = false) ?_ fun _ => ?_
  · refine meets_attempt (T := fun _ => Since base fun more s => ¬ Asked svc plan more ∧
      s.record.restarted = false) ?_ fun err => ?_
    · refine (meets_step (frame_prepareRestart look change lock log fun unit member other => ?_).progress
        fun _ _ still' placed => placed.stays still').weaken (fun _ => id) (fun _ _ => id)
          fun _ w since => since.mono fun _ _ now => ⟨now.1.1, now.2⟩
      exact Bool.and_eq_true_iff.mpr ⟨restarts_auxiliary (auxiliary unit member) other, rfl⟩
    · have calm := calm svc plan
      have undo := frame_undoPrepare (calm _ (by decide) (by decide)) (calm _ (by decide) (by decide))
        (calm _ (by decide) (by decide)) svc plan err
      have kept : Meets env (Since base fun more s => ¬ Asked svc plan more ∧ s.record.restarted = false)
          (undoPrepare svc plan err)
          (fun _ => Since base fun more s => ¬ Asked svc plan more ∧ s.record.restarted = false)
          (fun _ => Since base fun more s => ¬ Asked svc plan more ∧ s.record.restarted = false) :=
        undo.meets (stable_since (fun _ _ event silent now => ⟨unasked_snoc now.1 silent, now.2⟩)
          fun _ _ _ same now => ⟨now.1, (congrArg Prod.fst same).trans now.2⟩)
      exact (kept.and (undoPrepare_throws err)).weaken (fun _ => id) (fun _ w ended => ended.2.elim)
        fun _ w ended => ended.1.mono fun _ _ => Excused.unasked
  · refine meets_bind ((meets_step (frame_liftM (emits_releaseAnnouncements look svc))
      fun _ _ still' placed => placed.stays still').weaken (fun _ => id) (fun _ _ => id) fun _ w since =>
        since.mono fun _ _ now => Excused.unasked ⟨now.1.1, now.2⟩) fun announcements => ?_
    split
    · refine meets_bind (M := fun _ => Since base fun more s => ¬ Asked svc plan more ∧
        s.record.restarted = false) ?_ fun _ => meets_pure fun w since => since.mono fun _ s now => ?_
      · unfold finishWithoutRestart
        refine meets_bind (M := fun _ => Since base fun more s => ¬ Asked svc plan more ∧
          s.record.restarted = false) (fun w ⟨more, trace, now⟩ => ⟨more, trace, now.1.1, now.2⟩) fun _ => ?_
        split
        · have asks : Emits (still svc plan) (Readiness.probe svc) := emits_probe look svc
          refine meets_bind (meets_since_liftM fun s => (asks.meets_never Readiness.never_probe
            fun more event still' now => ?_)) fun p => meets_since_update fun _ _ => id
          exact ⟨unasked_snoc now.1 (Bool.and_eq_true_iff.mp still').1, now.2⟩
        · exact meets_pure fun _ => id
      · refine .inl ⟨rfl, noneFailed_of_unasked now.1, fun ⟨restarted, _⟩ => ?_⟩
        rw [now.2] at restarted
        exact nomatch restarted
    · exact meets_restartStage services mode announcements

end

/-! ### Whole runs -/

section
variable {env : Environment Machine} {svc : Service} {mode : Mode} {opts : Options} {plan : Plan}

/-- A plan restarts service units only. -/
theorem planned_services {first last : World Machine Unit} (planned : Planned env first last svc mode opts plan) :
    ∀ unit ∈ plan.units, endsWith unit ".service" = true := by
  intro unit member
  rw [planned.units] at member
  obtain mine | extra := List.mem_append.mp member
  · exact svc.unit_service unit mine
  · obtain ⟨more, -, all⟩ := planned.extra.since List.prefix_rfl List.prefix_rfl
      WorkerUnits.meets_findExtraUnits
      fun more later all unit member => ⟨(all unit member).1.append later, (all unit member).2⟩
    obtain ⟨⟨pattern, r, t, -, listed⟩, -⟩ := all unit extra
    obtain ⟨line, -, found⟩ := List.mem_filterMap.mp listed
    split at found
    · split at found
      · rename_i service
        obtain rfl := Option.some.inj found
        exact service.1
      · exact nomatch found
    · exact nomatch found

theorem quiet_still {call : Machine.Call} (quiet : quietCalls call = true) : still svc plan call = true := by
  refine Bool.and_eq_true_iff.mpr ⟨calm svc plan (Call.kind call) ?_ ?_ call rfl, quiet_noMove quiet⟩ <;>
    intro same <;> rw [quietCalls, same] at quiet <;> cases quiet

theorem Excused.stays {events : List (Event Machine)} {event : Event Machine}
    (excused : Excused svc plan events) (still' : still svc plan event.call = true) :
    Excused svc plan (events ++ [event]) := by
  obtain ⟨silent, stays⟩ := Bool.and_eq_true_iff.mp still'
  obtain unasked | unmoved | ⟨earlier, failing, later, rfl, failed⟩ := excused
  · exact .inl (unasked_snoc unasked silent)
  · exact .inr (.inl (unmoved.stays stays))
  · exact .inr (.inr ⟨earlier, failing, later ++ [event], by simp, failed⟩)

/-- A run that throws asked no unit of the service to restart on the new commit, or could
not restart one. -/
theorem Excused.goesBack {events : List (Event Machine)} {e : Failure} {s : Deploy}
    (excused : Excused svc plan events) (none : ¬ FailsOnNew svc plan events)
    (idle : s.record.restarted = false) : GoesBack svc plan (.error e) s events := by
  constructor
  · rintro (⟨earlier, event, later, rfl, -, asks, move, member, moved⟩ | ⟨restarted, -⟩)
    · obtain unasked | unmoved | fails := excused
      · exact absurd ⟨event, by simp, asks⟩ unasked
      · rw [unmoved move (by simp [member])] at moved
        exact nomatch moved
      · exact absurd fails none
    · rw [idle] at restarted
      exact nomatch restarted
  · intro moved asked
    obtain unasked | unmoved | fails := excused
    · exact absurd asked unasked
    · rw [unmoved.movedTo] at moved
      exact nomatch moved
    · exact absurd fails none

end

/-- The commit of a plan, where git answers nothing else. -/
theorem target_named {env : Environment Machine} {first last : World Machine Unit} {svc : Service}
    {opts : Options} {toSha : String} {r : RunResult}
    (named : ∀ past dir safe owner ref, env.answer past (.git dir safe owner (.revParse ref)) = r)
    (answered : Answered env first last (planTarget svc svc.checkout .deploy opts) toSha) :
    toSha = trimText r.stdout := by
  obtain ⟨w, w', ran, -, -⟩ := answered
  obtain ⟨_, w1, -, resolved⟩ := run_bind_ok.mp ran
  obtain ⟨answer, w2, checked, ended⟩ := run_bind_ok.mp resolved
  obtain ⟨given, w3, asked, must⟩ := run_bind_ok.mp checked
  obtain ⟨answer', -⟩ := Prod.mk.inj asked
  obtain rfl := Except.ok.inj answer'
  split at must
  · exact nomatch must
  · obtain ⟨same, -⟩ := Prod.mk.inj must
    obtain ⟨trimmed, -⟩ := Prod.mk.inj ended
    obtain rfl := Except.ok.inj same
    have told := named w1.trace svc.checkout.dir svc.checkout.safeDirectory svc.checkout.owner
      (opts.target.getD (svc.remote ++ "/" ++ svc.branch))
    exact (Except.ok.inj trimmed).symm.trans (congrArg (fun r => trimText (RunResult.stdout r)) told)

/-- As `readyOnceReset`, where the unit of `post` does not restart. -/
def restartRefused : Environment Machine where
  answer past call := match call with
    | .systemctl .restart unit => { code := if unit = some "post.service" then 1 else 0 }
    | other => readyOnceReset.answer past other
  takes := readyOnceReset.takes

theorem refused_run :
    exitCode ((applyInPlace postHost 7 post .deploy {}).run restartRefused fresh).1 = 2 ∧
      ((applyInPlace postHost 7 post .deploy {}).run restartRefused
        fresh).2.trace.any (restartOf · = some "post.service") = true ∧
      movedTo post ((applyInPlace postHost 7 post .deploy {}).run restartRefused
        fresh).2.trace = some "bbbbbbbbbbbbbbbbbbbbbbbbbbbbbbbbbbbbbbbb" := by decide +kernel

end OpenVibeHost.RollbackBoundary
