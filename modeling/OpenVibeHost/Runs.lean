import OpenVibeHost.EffectLogic
import OpenVibeHost.PlanFacts

/-! How a deploy or rollback goes: it takes its locks, plans, and then either ends with
nothing done or makes the release; then its record is appended and the locks are given
back. What a claim needs of a run is in how the release went and in how the run ended. -/
namespace OpenVibeHost
open Effects Program

variable {σ : Type} {env : Environment Machine}

/-! ### Calls that can reject -/

section
variable {base : List (Event Machine)} {α β : Type}

/-- What a call that can reject comes to. -/
def settled : Except String α → Except Failure α
  | .ok value => .ok value
  | .error message => .error (.plain message)

theorem run_orReject (call : Call) (read : Machine.Answer call → Except String α)
    (env : Environment Machine) (w : World Machine Unit) :
    Program.run (Exec.orReject call read) env w = (settled (read (env.answer w.trace call)),
      ((ask call read : Exec (Except String α)).run env w).2) := by
  unfold Exec.orReject
  rw [bind_eq, run_andThen_ok rfl]
  cases read (env.answer w.trace call) <;> rfl

/-- A call that resolves, and what follows, or one that rejects. -/
theorem meets_reject_then {call : Call} {read : Machine.Answer call → Except String α}
    {f : α → Ovhost Unit β} {holds : List (Event Machine) → Unit → Prop}
    {ok : β → World Machine Unit → Prop} {err : Failure → World Machine Unit → Prop}
    (resolves : ∀ value answer clock, read answer = .ok value → Meets env
      (Since base fun more s => ∃ before, more = before ++ [⟨call, answer, clock⟩] ∧ holds before s)
      (f value) ok err)
    (rejects : ∀ message answer clock w, read answer = .error message →
      Since base (fun more s => ∃ before, more = before ++ [⟨call, answer, clock⟩] ∧ holds before s) w →
      err (.plain message) w) :
    Meets env (Since base holds) (Exec.orReject call read >>= f) ok err := by
  unfold Exec.orReject
  rw [bind_assoc]
  refine meets_since_ask_then fun answer clock => ?_
  cases settled : read answer with
  | ok value => exact resolves value answer clock settled
  | error message => exact meets_throw fun w since => rejects message answer clock w settled since

end

/-- What a program that answered in the course of a run left behind. -/
theorem Answered.since {τ α : Type} {p : Ovhost σ α} {a : α} {base : List (Event Machine)}
    {holds : α → List (Event Machine) → Prop} {first last : World Machine σ} {w : World Machine τ}
    (answered : Answered env first last p a) (before : base <+: first.trace)
    (after : last.trace <+: w.trace)
    (meets : Meets env (Since base fun _ _ => True) p (fun a => Since base fun more _ => holds a more)
      fun _ _ => True)
    (grows : ∀ more later, holds a more → holds a (more ++ later)) :
    Since base (fun more _ => holds a more) w := by
  obtain ⟨w1, w2, ran, starts, ends⟩ := answered
  obtain ⟨more, trace⟩ := before.trans starts
  have left := meets w1 ⟨more, trace.symm, trivial⟩
  rw [ran] at left
  obtain ⟨more', trace', now⟩ := left
  obtain ⟨later, onward⟩ := ends.trans after
  exact ⟨more' ++ later, by rw [← onward, trace', List.append_assoc], grows _ _ now⟩

/-! ### Quiet calls -/

/-- No checkout, worktree, unit or link is touched by such a call. -/
@[grind =] def Kind.quiet : Kind → Bool
  | .look | .position | .lock | .log | .change => true
  | .move | .worktree | .restart | .start | .switch => false

def quietCalls (call : Machine.Call) : Bool := (Call.kind call).quiet

theorem quiet_allows {kind : Kind} (quiet : kind.quiet = true) : Allows quietCalls kind := by
  rintro call rfl
  exact quiet

/-- From one world to the other there were quiet calls only. -/
def Quietly (w w' : World Machine σ) : Prop :=
  ∃ more, w'.trace = w.trace ++ more ∧ ∀ event ∈ more, quietCalls event.call = true

theorem Quietly.trans {w w' w'' : World Machine σ} (first : Quietly w w') (second : Quietly w' w'') :
    Quietly w w'' := by
  obtain ⟨more, trace, quiet⟩ := first
  obtain ⟨more', trace', quiet'⟩ := second
  refine ⟨more ++ more', by rw [trace', trace, List.append_assoc], fun event member => ?_⟩
  exact (List.mem_append.mp member).elim (quiet event) (quiet' event)

theorem Quietly.onward {w w' : World Machine σ} (quietly : Quietly w w') : w.trace <+: w'.trace := by
  obtain ⟨more, trace, -⟩ := quietly
  exact ⟨more, trace.symm⟩

theorem Quietly.of_trace {w w' : World Machine σ} (same : w'.trace = w.trace) : Quietly w w' :=
  ⟨[], by rw [same, List.append_nil], fun _ member => nomatch member⟩

theorem Quietly.of_emits {α : Type} {p : Ovhost σ α} (emits : Emits quietCalls p)
    {w w' : World Machine σ} {result : Except Failure α} (ran : p.run env w = (result, w')) :
    Quietly w w' := by
  have extends' := emits env w
  rwa [ran] at extends'

/-- What is said of the events alone, and no quiet call undoes. -/
theorem Quietly.since {τ : Type} {base : List (Event Machine)} {holds : List (Event Machine) → Prop}
    {w : World Machine σ} {w' : World Machine τ} (more : ∃ more, w'.trace = w.trace ++ more ∧
      ∀ event ∈ more, quietCalls event.call = true)
    (sees : ∀ more event, quietCalls event.call = true → holds more → holds (more ++ [event]))
    (since : Since base (fun more _ => holds more) w) : Since base (fun more _ => holds more) w' :=
  have stable : Stable quietCalls (fun _ : Unit => ()) (Since base fun more _ => holds more) :=
    stable_since (fun more _ event quiet => sees more event quiet) fun _ _ _ _ => id
  stable ⟨(), w.clock, w.trace⟩ ⟨(), w'.clock, w'.trace⟩ since rfl more

theorem Effects.Program.Frame.ran {τ α : Type} {view : σ → τ} {p : Ovhost σ α}
    (frame : Frame quietCalls view p) {w w' : World Machine σ} {result : Except Failure α}
    (ran : p.run env w = (result, w')) : Quietly w w' ∧ view w'.own = view w.own := by
  have kept := frame.keeps env w
  rw [ran] at kept
  exact ⟨.of_emits frame.emits ran, kept⟩

theorem look_allowed : Allows quietCalls .look := quiet_allows rfl
theorem position_allowed : Allows quietCalls .position := quiet_allows rfl
theorem lock_allowed : Allows quietCalls .lock := quiet_allows rfl
theorem log_allowed : Allows quietCalls .log := quiet_allows rfl
theorem change_allowed : Allows quietCalls .change := quiet_allows rfl

/-! ### Ending a run -/

/-- The lock file of the service could not be removed. -/
def LockStuck (inv : Inventory) (svc : Service) (events : List (Event Machine)) : Prop :=
  ∃ message clock, (⟨.removeFile (Locks.lockFile inv svc.id) false, .error message, clock⟩ :
    Event Machine) ∈ events

/-- The state of a run, with another result in its record. -/
def Deploy.ending (s : Deploy) (result : Option Result) : Deploy :=
  { s with record := { s.record with result } }

/-- How a run ends that went as `r` until its record is appended and the locks are given
back: `r` unless the lock file stays. -/
structure Ended (inv : Inventory) (svc : Service) (w final : World Machine Deploy)
    (r result : Except Failure ReleaseOps.Applied) : Prop where
  events : ∃ more, final.trace = w.trace ++ more ∧
    (∀ event ∈ more, quietCalls event.call = true) ∧
    (result = r ∨ (∃ message, result = .error (.plain message)) ∧ LockStuck inv svc more)
  record : ∃ result', final.own.core = (w.own.ending result').core ∧
    ((∃ applied, r = .ok applied) → result' = w.own.record.result)

theorem update_ran {f : σ → σ} {w final : World Machine σ}
    {result : Except Failure Unit} (ran : (update f : Ovhost σ Unit).run env w = (result, final)) :
    result = .ok () ∧ final.own = f w.own ∧ final.trace = w.trace := by
  obtain ⟨rfl, rfl⟩ := Prod.mk.inj ran
  exact ⟨rfl, rfl, rfl⟩

namespace ReleaseOps
open Releases

theorem recordFailure_ran {α : Type} {err : Failure} {w final : World Machine Deploy}
    {result : Except Failure α} (ran : (recordFailure err).run env w = (result, final)) :
    result = .error err ∧ final.trace = w.trace ∧
      final.own.core =
        (w.own.ending (some ((err.result.or w.own.record.result).getD .failed))).core := by
  have runs : (recordFailure err : Ops α).run env w = (.error err, { w with own := { w.own with
    record := { w.own.record with
      result := some ((err.result.or w.own.record.result).getD .failed)
      error := some err.message } } }) := rfl
  rw [runs] at ran
  obtain ⟨rfl, rfl⟩ := Prod.mk.inj ran
  exact ⟨rfl, rfl, rfl⟩

/-- `finish` throws only where the lock file stays. -/
theorem finish_ran {inv : Inventory} {svc : Service} {w final : World Machine Deploy}
    {result : Except Failure Unit} (ran : (finish inv svc).run env w = (result, final)) :
    final.own.core = w.own.core ∧ ∃ more, final.trace = w.trace ++ more ∧
      (∀ event ∈ more, quietCalls event.call = true) ∧
      (result = .ok () ∨ (∃ message, result = .error (.plain message)) ∧ LockStuck inv svc more) := by
  have frame := frame_finish change_allowed log_allowed lock_allowed inv svc
  have kept := frame.keeps env w
  obtain ⟨more, trace, quiet⟩ := frame.emits env w
  rw [ran] at kept trace
  refine ⟨kept, more, trace, quiet, ?_⟩
  have meets : Meets env (Since w.trace fun _ _ => True) (finish inv svc)
      (fun _ => Since w.trace fun _ _ => True)
      (fun e => Since w.trace fun more _ => (∃ message, e = .plain message) ∧
        LockStuck inv svc more) := by
    unfold finish
    refine meets_bind (Blames.meets_onward blames_now) fun t => ?_
    refine meets_bind (Blames.meets_onward (blames_update _)) fun _ => ?_
    refine meets_bind (Blames.meets_onward blames_own) fun s => ?_
    refine meets_bind (Blames.meets_onward (blames_whenever fun _ =>
      blames_attempt fun e => blames_pure _)) fun _ => ?_
    refine meets_bind (Blames.meets_onward (blames_whenever fun _ => blames_liftM blames_ask))
      fun _ => meets_since_liftM fun _ => meets_since_ask_then fun answer clock => ?_
    cases answer with
    | ok value => exact meets_ret fun w since => since.mono fun _ _ _ => trivial
    | error message =>
      refine meets_throw fun w since => since.mono fun more _ ⟨before, split, _⟩ => ?_
      exact ⟨⟨message, rfl⟩, message, clock, by simp [split]⟩
  have ended := meets w (since_start trivial)
  rw [ran] at ended
  cases result with
  | ok value => exact .inl rfl
  | error e =>
    have since : Since w.trace (fun more _ => (∃ message, e = .plain message) ∧
      LockStuck inv svc more) final := ended
    obtain ⟨⟨message, rfl⟩, stuck⟩ := since.at_end trace
    exact .inr ⟨⟨message, rfl⟩, stuck⟩

theorem startRecord_ran {svc : Service} {mode : Mode} {layout : Option String}
    {w final : World Machine Deploy} {result : Except Failure Unit}
    (ran : (startRecord svc mode layout).run env w = (result, final)) :
    result = .ok () ∧ Quietly w final ∧ final.own.core = ({} : Deploy).core := by
  have quiet := Quietly.of_emits (emits_startRecord look_allowed svc mode layout) ran
  obtain ⟨rfl, rfl⟩ := Prod.mk.inj ran
  exact ⟨rfl, quiet, rfl⟩

/-- What an engine does between taking the lock of the service and giving it back. -/
def underLock (inv : Inventory) (pid : Nat) (svc : Service) (mode : Mode) (layout : Option String)
    (locked : Ops Applied) : Ops Applied := do
  Locks.acquire inv svc.id pid
  startRecord svc mode layout
  ensure (attempt locked recordFailure) (finish inv svc)

/-- Either the lock of the service is not to be had, or what runs under it ends the run. -/
theorem underLock_ran {inv : Inventory} {pid : Nat} {svc : Service} {mode : Mode}
    {layout : Option String} {locked : Ops Applied} {w final : World Machine Deploy}
    {result : Except Failure Applied}
    (ran : (underLock inv pid svc mode layout locked).run env w = (result, final)) :
    (Quietly w final ∧ ∃ e, result = .error e) ∨
      ∃ w1 r w2, Quietly w w1 ∧ w1.own.core = ({} : Deploy).core ∧
        locked.run env w1 = (r, w2) ∧ Ended inv svc w2 final r result := by
  unfold underLock at ran
  have acquires : Emits quietCalls (liftM (Locks.acquire inv svc.id pid) : Ops Unit) :=
    emits_liftM (emits_acquire look_allowed change_allowed inv svc.id pid)
  obtain ⟨e, taken, rfl⟩ | ⟨_, w0, taken, ran⟩ := run_bind ran
  · exact .inl ⟨.of_emits acquires taken, e, rfl⟩
  · obtain ⟨e, started, rfl⟩ | ⟨_, w1, started, ran⟩ := run_bind ran
    · exact nomatch (startRecord_ran started).1
    · obtain ⟨-, quiet, fresh⟩ := startRecord_ran started
      obtain ⟨r', w3, tried, last⟩ := run_ensure ran
      obtain ⟨r, w2, lockedRan, same, kept⟩ : ∃ r w2, locked.run env w1 = (r, w2) ∧
          r' = r ∧ (w3 = w2 ∨ (∃ e, r = .error e) ∧ w3.trace = w2.trace ∧
            ∃ result', w3.own.core = (w2.own.ending result').core) := by
        obtain ⟨a, done, rfl⟩ | ⟨e, w2, failed, recorded⟩ := run_attempt tried
        · exact ⟨.ok a, w3, done, rfl, .inl rfl⟩
        · obtain ⟨rfl, trace, core⟩ := recordFailure_ran recorded
          exact ⟨.error e, w2, failed, rfl, .inr ⟨⟨e, rfl⟩, trace, _, core⟩⟩
      refine .inr ⟨w1, r, w2, (Quietly.of_emits acquires taken).trans quiet, fresh, lockedRan, ?_⟩
      subst same
      have finished : ∃ answer, (finish inv svc).run env w3 = (answer, final) ∧
          (answer = .ok () → result = r') ∧ (∀ e, answer = .error e → result = .error e) := by
        obtain ⟨done, rfl⟩ | ⟨e, failed, rfl⟩ := last
        · exact ⟨_, done, fun _ => rfl, fun e thrown => nomatch thrown⟩
        · exact ⟨_, failed, (nomatch ·), fun e' thrown => by rw [Except.error.inj thrown]⟩
      obtain ⟨answer, finishRan, returned, thrown⟩ := finished
      obtain ⟨core, more, trace, quietly, outcome⟩ := finish_ran finishRan
      have sameTrace : w3.trace = w2.trace := kept.elim (congrArg World.trace) (·.2.1)
      refine ⟨⟨more, by rw [trace, sameTrace], quietly, ?_⟩, ?_⟩
      · rcases outcome with rfl | ⟨⟨message, rfl⟩, stuck⟩
        · exact .inl (returned rfl)
        · exact .inr ⟨⟨message, thrown _ rfl⟩, stuck⟩
      · rcases kept with rfl | ⟨⟨e, rfl⟩, -, result', ending⟩
        · exact ⟨w3.own.record.result, core, fun _ => rfl⟩
        · exact ⟨result', core.trans ending, fun ⟨_, failed⟩ => nomatch failed⟩

/-- A run without a release: it changes no checkout, unit or link, and where it does not
fail there was nothing to do. -/
structure Unbegun (w final : World Machine Deploy) (result : Except Failure Applied) : Prop where
  quietly : Quietly w final
  done : ∀ applied, result = .ok applied → applied.exitCode = 0 ∧
    final.own.record.result ∈ [some .unchanged, some .unitsInstalled]

theorem Unbegun.of_error {w final : World Machine Deploy} (quietly : Quietly w final) (e : Failure) :
    Unbegun w final (.error e) := ⟨quietly, fun _ failed => nomatch failed⟩

theorem Unbegun.of_done {w final : World Machine Deploy} {applied : Applied} (quietly : Quietly w final)
    (ok : applied.exitCode = 0)
    (nothing : final.own.record.result ∈ [some .unchanged, some .unitsInstalled]) :
    Unbegun w final (.ok applied) :=
  ⟨quietly, fun _ done => by obtain rfl := Except.ok.inj done; exact ⟨ok, nothing⟩⟩

/-- To end the run leaves it one without a release. -/
theorem Unbegun.ended {inv : Inventory} {svc : Service} {w w2 final : World Machine Deploy}
    {r result : Except Failure Applied} (unbegun : Unbegun w w2 r) (ended : Ended inv svc w2 final r result) :
    Unbegun w final result := by
  obtain ⟨more, trace, quiet, outcome⟩ := ended.events
  obtain ⟨result', core, kept⟩ := ended.record
  refine ⟨unbegun.quietly.trans ⟨more, trace, quiet⟩, fun applied done => ?_⟩
  obtain same | ⟨⟨message, failed⟩, -⟩ := outcome
  · rw [same] at done
    obtain ⟨ok, nothing⟩ := unbegun.done applied done
    have ends : final.own.record.result = result' := congrArg (·.1.result) core
    rw [ends, kept ⟨applied, done⟩]
    exact ⟨ok, nothing⟩
  · rw [failed] at done
    exact nomatch done

/-! ### In place -/

/-- The state of a run that has its plan, as far as the outcome goes. -/
def Plan.begun (plan : Plan) : Deploy :=
  { record := {
      fromSha := some plan.fromSha, toSha := some plan.toSha
      restartNeeded := some plan.restartNeeded } }

/-- Between two worlds an in-place run took its locks and made a plan with something to do. -/
structure Begun (env : Environment Machine) (w w1 : World Machine Deploy) (svc : Service)
    (mode : Mode) (opts : Options) (plan : Plan) : Prop where
  quietly : Quietly w w1
  planned : ∃ first last : World Machine Unit, Planned env first last svc mode opts plan ∧
    w.trace <+: first.trace ∧ last.trace <+: w1.trace
  core : w1.own.core = plan.begun.core
  work : plan.upToDate = true → opts.restart = true

theorem Begun.earlier {w w0 w1 : World Machine Deploy} {svc : Service} {mode : Mode} {opts : Options}
    {plan : Plan} (begun : Begun env w0 w1 svc mode opts plan) (before : Quietly w w0) :
    Begun env w w1 svc mode opts plan := by
  obtain ⟨quietly, ⟨first, last, planned, starts, ends⟩, core, work⟩ := begun
  exact ⟨before.trans quietly, ⟨first, last, planned, before.onward.trans starts, ends⟩, core, work⟩

/-- The run came to nothing, or to a release. -/
theorem applyLocked_ran {inv : Inventory} {svc : Service} {mode : Mode} {opts : Options}
    {w final : World Machine Deploy} {r : Except Failure Applied}
    (fresh : w.own.core = ({} : Deploy).core)
    (ran : (applyLocked inv svc mode opts).run env w = (r, final)) :
    Unbegun w final r ∨
      ∃ plan w1, Begun env w w1 svc mode opts plan ∧
        (release inv svc mode opts plan).run env w1 = (r, final) := by
  unfold applyLocked at ran
  have acquires : Emits quietCalls (liftM (Locks.acquireHost inv svc) : Ops Unit) :=
    emits_liftM (emits_acquireHost lock_allowed inv svc)
  obtain ⟨e, taken, rfl⟩ | ⟨_, w1, taken, ran⟩ := run_bind ran
  · exact .inl (.of_error (.of_emits acquires taken) e)
  obtain ⟨_, -, own1, -, -⟩ := run_liftM taken
  obtain ⟨e, ⟨⟩, rfl⟩ | ⟨_, w2, holds, ran⟩ := run_bind ran
  obtain ⟨-, own2, trace2⟩ := update_ran holds
  have quiet2 : Quietly w w2 := (Quietly.of_emits acquires taken).trans (.of_trace trace2)
  have fresh2 : w2.own.core = ({} : Deploy).core := by
    rw [own2, ← fresh, ← own1]
    rfl
  have plans : Emits quietCalls (liftM (computePlan svc mode opts) : Ops Plan) :=
    emits_liftM (emits_computePlan look_allowed position_allowed svc mode opts)
  obtain ⟨e, planRan, rfl⟩ | ⟨plan, w3, planRan, ran⟩ := run_bind ran
  · exact .inl (.of_error (quiet2.trans (.of_emits plans planRan)) e)
  have quiet3 : Quietly w w3 := quiet2.trans (.of_emits plans planRan)
  obtain ⟨last, planned, own3, -, trace3⟩ := run_liftM planRan
  obtain ⟨e, ⟨⟩, rfl⟩ | ⟨_, w4, sets, ran⟩ := run_bind ran
  obtain ⟨-, own4, trace4⟩ := update_ran sets
  have quiet4 : Quietly w w4 := quiet3.trans (.of_trace trace4)
  split at ran
  · obtain ⟨rfl, rfl⟩ := Prod.mk.inj ran
    exact .inl (.of_error quiet4 _)
  · split at ran
    · obtain ⟨rfl, rfl⟩ := Prod.mk.inj ran
      exact .inl (.of_error quiet4 _)
    · split at ran
      · split at ran
        · have installs := frame_installUnits look_allowed change_allowed svc
          obtain ⟨e, installRan, rfl⟩ | ⟨_, w5, installRan, ran⟩ := run_bind ran
          · exact .inl (.of_error (quiet4.trans (.of_emits installs.emits installRan)) e)
          · have quiet5 : Quietly w w5 := quiet4.trans (.of_emits installs.emits installRan)
            obtain ⟨rfl, rfl⟩ := Prod.mk.inj ran
            exact .inl (.of_done quiet5 rfl (by simp))
        · obtain ⟨rfl, rfl⟩ := Prod.mk.inj ran
          exact .inl (.of_done quiet4 rfl (by simp))
      · rename_i idle
        refine .inr ⟨plan, _, ⟨quiet4, ⟨_, last, computePlan_planned planned, ?_, ?_⟩, ?_, ?_⟩, ran⟩
        · exact quiet2.onward
        · rw [trace4, trace3]
        · rw [← own3] at fresh2
          simp only [Deploy.core, Deploy.outcome, Prod.mk.injEq, Outcome.mk.injEq] at fresh2
          simp [own4, fresh2, Plan.begun, Deploy.core, Deploy.outcome]
        · intro upToDate
          by_contra none
          exact idle ⟨upToDate, by simpa using none⟩

/-- Every in-place run makes its release and ends, or makes none. -/
theorem applyInPlace_ran {inv : Inventory} {pid : Nat} {svc : Service} {mode : Mode} {opts : Options}
    {w final : World Machine Deploy} {result : Except Failure Applied}
    (ran : (applyInPlace inv pid svc mode opts).run env w = (result, final)) :
    Unbegun w final result ∨ ∃ plan w1 r w2, Begun env w w1 svc mode opts plan ∧
      (release inv svc mode opts plan).run env w1 = (r, w2) ∧ Ended inv svc w2 final r result := by
  unfold applyInPlace at ran
  split at ran
  · obtain ⟨rfl, rfl⟩ := Prod.mk.inj ran
    exact .inl (.of_error (.of_trace rfl) _)
  split at ran
  · obtain ⟨rfl, rfl⟩ := Prod.mk.inj ran
    exact .inl (.of_error (.of_trace rfl) _)
  obtain ⟨e, read, rfl⟩ | ⟨current, w0, read, ran⟩ := run_bind ran
  · exact nomatch (run_liftM read).choose_spec.1
  have quiet0 : Quietly w w0 :=
    .of_emits (emits_liftM (@emits_call _ _ _ (.readlink _) _ look_allowed)) read
  split at ran
  · obtain ⟨rfl, rfl⟩ := Prod.mk.inj ran
    exact .inl (.of_error quiet0 _)
  obtain ⟨quiet, e, rfl⟩ | ⟨w1, r, w2, quiet, fresh, lockedRan, ended⟩ := underLock_ran ran
  · exact .inl (.of_error (quiet0.trans quiet) e)
  obtain unbegun | ⟨plan, w3, begun, releaseRan⟩ := applyLocked_ran fresh lockedRan
  · exact .inl ((Unbegun.mk ((quiet0.trans quiet).trans unbegun.quietly) unbegun.done).ended ended)
  · exact .inr ⟨plan, w3, r, w2, begun.earlier (quiet0.trans quiet), releaseRan, ended⟩

/-- What quiet calls and the release keep, the whole run keeps. -/
theorem applyInPlace_since {holds : List (Event Machine) → Prop} {base : List (Event Machine)}
    (inv : Inventory) (pid : Nat) (svc : Service) (mode : Mode) (opts : Options)
    (quiet : ∀ more event, quietCalls event.call = true → holds more → holds (more ++ [event]))
    {w : World Machine Deploy}
    (releases : ∀ plan w1, Begun env w w1 svc mode opts plan →
      Since base (fun more _ => holds more) w1 →
      Since base (fun more _ => holds more) ((release inv svc mode opts plan).run env w1).2)
    (start : Since base (fun more _ => holds more) w) :
    Since base (fun more _ => holds more) ((applyInPlace inv pid svc mode opts).run env w).2 := by
  cases ran : (applyInPlace inv pid svc mode opts).run env w with
  | mk result final =>
    obtain unbegun | ⟨plan, w1, r, w2, begun, releaseRan, ended⟩ := applyInPlace_ran ran
    · exact Quietly.since unbegun.quietly quiet start
    · have released := releases plan w1 begun (Quietly.since begun.quietly quiet start)
      rw [releaseRan] at released
      obtain ⟨more, trace, quietly, -⟩ := ended.events
      exact Quietly.since ⟨more, trace, quietly⟩ quiet released

end ReleaseOps

namespace ReleaseLayout
open Releases ReleaseOps

/-- The state of a release-layout run that has its plan, as far as the outcome goes. -/
def LayoutPlan.begun (plan : LayoutPlan) : Deploy :=
  { record := {
      fromSha := some plan.fromSha, toSha := some plan.toSha, fromRelease := some plan.fromRelease
      toRelease := some plan.toRelease, restartNeeded := some plan.restartNeeded } }

/-- Between two worlds a release-layout run took its locks and made a plan with something
to do. -/
structure Begun (env : Environment Machine) (w w1 : World Machine Deploy) (inv : Inventory)
    (svc : Service) (rel : ReleaseConfig) (mode : Mode) (opts : Options) (plan : LayoutPlan) :
    Prop where
  quietly : Quietly w w1
  planned : ∃ first last : World Machine Unit, ∃ cur,
    Planned env first last inv svc rel mode opts plan cur ∧
      w.trace <+: first.trace ∧ last.trace <+: w1.trace
  core : w1.own.core = plan.begun.core
  work : plan.upToDate = true → opts.restart = true

theorem Begun.earlier {w w0 w1 : World Machine Deploy} {inv : Inventory} {svc : Service}
    {rel : ReleaseConfig} {mode : Mode} {opts : Options} {plan : LayoutPlan}
    (begun : Begun env w0 w1 inv svc rel mode opts plan) (before : Quietly w w0) :
    Begun env w w1 inv svc rel mode opts plan := by
  obtain ⟨quietly, ⟨first, last, cur, planned, starts, ends⟩, core, work⟩ := begun
  exact ⟨before.trans quietly, ⟨first, last, cur, planned, before.onward.trans starts, ends⟩, core,
    work⟩

/-- The run came to nothing, or to a release. -/
theorem applyLocked_ran {inv : Inventory} {svc : Service} {rel : ReleaseConfig} {mode : Mode}
    {opts : Options} {w final : World Machine Deploy} {r : Except Failure Applied}
    (fresh : w.own.core = ({} : Deploy).core)
    (ran : (applyLocked inv svc rel mode opts).run env w = (r, final)) :
    Unbegun w final r ∨ ∃ plan w1, Begun env w w1 inv svc rel mode opts plan ∧
      (release inv svc rel mode opts plan).run env w1 = (r, final) := by
  unfold applyLocked at ran
  have acquires : Emits quietCalls (liftM (Locks.acquireHost inv svc) : Ops Unit) :=
    emits_liftM (emits_acquireHost lock_allowed inv svc)
  obtain ⟨e, taken, rfl⟩ | ⟨_, w1, taken, ran⟩ := run_bind ran
  · exact .inl (.of_error (.of_emits acquires taken) e)
  obtain ⟨_, -, own1, -, -⟩ := run_liftM taken
  obtain ⟨e, ⟨⟩, rfl⟩ | ⟨_, w2, holds, ran⟩ := run_bind ran
  obtain ⟨-, own2, trace2⟩ := update_ran holds
  have quiet2 : Quietly w w2 := (Quietly.of_emits acquires taken).trans (.of_trace trace2)
  have fresh2 : w2.own.core = ({} : Deploy).core := by
    rw [own2, ← fresh, ← own1]
    rfl
  have plans : Emits quietCalls (liftM (computePlan inv svc rel mode opts) : Ops LayoutPlan) :=
    emits_liftM (emits_computePlan look_allowed position_allowed inv svc rel mode opts)
  obtain ⟨e, planRan, rfl⟩ | ⟨plan, w3, planRan, ran⟩ := run_bind ran
  · exact .inl (.of_error (quiet2.trans (.of_emits plans planRan)) e)
  have quiet3 : Quietly w w3 := quiet2.trans (.of_emits plans planRan)
  obtain ⟨last, planned, own3, -, trace3⟩ := run_liftM planRan
  obtain ⟨e, ⟨⟩, rfl⟩ | ⟨_, w4, sets, ran⟩ := run_bind ran
  obtain ⟨-, own4, trace4⟩ := update_ran sets
  have quiet4 : Quietly w w4 := quiet3.trans (.of_trace trace4)
  split at ran
  · obtain ⟨rfl, rfl⟩ := Prod.mk.inj ran
    exact .inl (.of_done quiet4 rfl (by simp))
  · rename_i idle
    obtain ⟨cur, planned⟩ := computePlan_planned planned
    refine .inr ⟨plan, _, ⟨quiet4, ⟨_, last, cur, planned, ?_, ?_⟩, ?_, ?_⟩, ran⟩
    · exact quiet2.onward
    · rw [trace4, trace3]
    · rw [← own3] at fresh2
      simp only [Deploy.core, Deploy.outcome, Prod.mk.injEq, Outcome.mk.injEq] at fresh2
      simp [own4, fresh2, LayoutPlan.begun, Deploy.core, Deploy.outcome]
    · intro upToDate
      by_contra none
      exact idle ⟨upToDate, by simpa using none⟩

/-- Every release-layout run makes its release and ends, or makes none. -/
theorem apply_ran {inv : Inventory} {pid : Nat} {svc : Service} {rel : ReleaseConfig} {mode : Mode}
    {opts : Options} {w final : World Machine Deploy} {result : Except Failure Applied}
    (ran : (apply inv pid svc rel mode opts).run env w = (result, final)) :
    Unbegun w final result ∨ ∃ plan w1 r w2, Begun env w w1 inv svc rel mode opts plan ∧
      (release inv svc rel mode opts plan).run env w1 = (r, w2) ∧
        Ended inv svc w2 final r result := by
  unfold apply at ran
  split at ran
  · obtain ⟨rfl, rfl⟩ := Prod.mk.inj ran
    exact .inl (.of_error (.of_trace rfl) _)
  obtain ⟨quiet, e, rfl⟩ | ⟨w1, r, w2, quiet, fresh, lockedRan, ended⟩ := underLock_ran ran
  · exact .inl (.of_error quiet e)
  obtain unbegun | ⟨plan, w3, begun, releaseRan⟩ := applyLocked_ran fresh lockedRan
  · exact .inl ((Unbegun.mk (quiet.trans unbegun.quietly) unbegun.done).ended ended)
  · exact .inr ⟨plan, w3, r, w2, begun.earlier quiet, releaseRan, ended⟩

/-- What quiet calls and the release keep, the whole run keeps. -/
theorem apply_since {holds : List (Event Machine) → Prop} {base : List (Event Machine)}
    (inv : Inventory) (pid : Nat) (svc : Service) (rel : ReleaseConfig) (mode : Mode) (opts : Options)
    (quiet : ∀ more event, quietCalls event.call = true → holds more → holds (more ++ [event]))
    {w : World Machine Deploy}
    (releases : ∀ plan w1, Begun env w w1 inv svc rel mode opts plan →
      Since base (fun more _ => holds more) w1 →
      Since base (fun more _ => holds more) ((release inv svc rel mode opts plan).run env w1).2)
    (start : Since base (fun more _ => holds more) w) :
    Since base (fun more _ => holds more) ((apply inv pid svc rel mode opts).run env w).2 := by
  cases ran : (apply inv pid svc rel mode opts).run env w with
  | mk result final =>
    obtain unbegun | ⟨plan, w1, r, w2, begun, releaseRan, ended⟩ := apply_ran ran
    · exact Quietly.since unbegun.quietly quiet start
    · have released := releases plan w1 begun (Quietly.since begun.quietly quiet start)
      rw [releaseRan] at released
      obtain ⟨more, trace, quietly, -⟩ := ended.events
      exact Quietly.since ⟨more, trace, quietly⟩ quiet released

end ReleaseLayout

/-! ### Deploys and rollbacks -/

namespace Operations
open Releases ReleaseOps

/-- `ovhost deploy` or `ovhost rollback`. -/
def operate (inv : Inventory) (pid : Nat) (id : String) : Mode → Options → Ops Applied
  | .deploy => deploy inv pid id
  | .rollback => rollback inv pid id

theorem frozen_quiet (inv : Inventory) (id : String) : Emits quietCalls (frozen inv id) := by
  unfold frozen
  refine emits_firstOf fun name _ => emits_attempt (emits_bind ?_ fun text => emits_pure _)
    fun _ => emits_pure _
  exact emits_orReject look_allowed

/-- A deploy or rollback is a run of the engine, with the options it is given or a target
that the release log names; or it fails before it starts one. -/
theorem operate_ran {inv : Inventory} {pid : Nat} {id : String} {mode : Mode} {opts : Options}
    {w final : World Machine Deploy} {result : Except Failure Applied}
    (ran : (operate inv pid id mode opts).run env w = (result, final)) :
    (Quietly w final ∧ ∃ e, result = .error e) ∨ ∃ svc opts' w1, inv.service id = .ok svc ∧
      Quietly w w1 ∧ (apply inv pid svc mode opts').run env w1 = (result, final) := by
  have found {svc : Service} {w0 : World Machine Deploy}
      (ran : (orThrow (inv.service id) : Ops Service).run env w = (.ok svc, w0)) :
      inv.service id = .ok svc ∧ w0 = w := by
    cases service : inv.service id with
    | error e => rw [service] at ran; cases ran
    | ok svc' => rw [service] at ran; cases ran; exact ⟨rfl, rfl⟩
  have looked : Emits quietCalls (orThrow (inv.service id) : Ops Service) := emits_orThrow _
  cases mode with
  | deploy =>
    simp only [operate, deploy] at ran
    obtain ⟨e, unknown, rfl⟩ | ⟨svc, w0, known, ran⟩ := run_bind ran
    · exact .inl ⟨.of_emits looked unknown, e, rfl⟩
    obtain ⟨service, same⟩ := found known
    rw [same] at ran
    have reads : Emits quietCalls (liftM (frozen inv svc.id) : Ops (Option Json)) :=
      emits_liftM (frozen_quiet inv svc.id)
    obtain ⟨e, frozenRan, rfl⟩ | ⟨hold, w1, frozenRan, ran⟩ := run_bind ran
    · exact .inl ⟨.of_emits reads frozenRan, e, rfl⟩
    split at ran
    · split at ran
      · obtain ⟨rfl, rfl⟩ := Prod.mk.inj ran
        exact .inl ⟨.of_emits reads frozenRan, _, rfl⟩
      · exact .inr ⟨svc, opts, w1, service, .of_emits reads frozenRan, ran⟩
    · exact .inr ⟨svc, opts, w1, service, .of_emits reads frozenRan, ran⟩
  | rollback =>
    simp only [operate, rollback] at ran
    obtain ⟨e, unknown, rfl⟩ | ⟨svc, w0, known, ran⟩ := run_bind ran
    · exact .inl ⟨.of_emits looked unknown, e, rfl⟩
    obtain ⟨service, same⟩ := found known
    rw [same] at ran
    split at ran
    · exact .inr ⟨svc, opts, w, service, .of_trace rfl, ran⟩
    split at ran
    · exact .inr ⟨svc, _, w, service, .of_trace rfl, ran⟩
    have heads : Emits quietCalls (liftM (Git.getHead svc.checkout) : Ops String) :=
      emits_liftM (emits_map (emits_mustRun position_allowed))
    have lists : Emits quietCalls (liftM (Releases.list inv id) : Ops (List Json)) :=
      emits_liftM (emits_list look_allowed inv id)
    obtain ⟨e, headRan, rfl⟩ | ⟨current, w1, headRan, ran⟩ := run_bind ran
    · exact .inl ⟨.of_emits heads headRan, e, rfl⟩
    have quiet1 : Quietly w w1 := .of_emits heads headRan
    obtain ⟨e, listRan, rfl⟩ | ⟨records, w2, listRan, ran⟩ := run_bind ran
    · exact .inl ⟨quiet1.trans (.of_emits lists listRan), e, rfl⟩
    have quiet2 : Quietly w w2 := quiet1.trans (.of_emits lists listRan)
    have names : Emits quietCalls
        (orThrow (previousFor records.reverse current) : Ops (Option String)) := emits_orThrow _
    obtain ⟨e, namesRan, rfl⟩ | ⟨previous, w3, namesRan, ran⟩ := run_bind ran
    · exact .inl ⟨quiet2.trans (.of_emits names namesRan), e, rfl⟩
    have quiet3 : Quietly w w3 := quiet2.trans (.of_emits names namesRan)
    split at ran
    · exact .inr ⟨svc, _, w3, service, quiet3, ran⟩
    · obtain ⟨rfl, rfl⟩ := Prod.mk.inj ran
      exact .inl ⟨quiet3, _, rfl⟩

/-- What quiet calls and the releases of both strategies keep, every deploy and rollback
keeps. -/
theorem operate_since {holds : List (Event Machine) → Prop} (env : Environment Machine)
    (inv : Inventory) (pid : Nat) (id : String) (mode : Mode) (opts : Options)
    (w : World Machine Deploy) (start : holds [])
    (quiet : ∀ more event, quietCalls event.call = true → holds more → holds (more ++ [event]))
    (inPlace : ∀ svc opts' plan w0 w1, inv.service id = .ok svc → w.trace <+: w0.trace →
      ReleaseOps.Begun env w0 w1 svc mode opts' plan →
      Since w.trace (fun more _ => holds more) w1 →
      Since w.trace (fun more _ => holds more)
        ((ReleaseOps.release inv svc mode opts' plan).run env w1).2)
    (layout : ∀ svc rel opts' plan w0 w1, inv.service id = .ok svc → svc.release = some rel →
      w.trace <+: w0.trace → ReleaseLayout.Begun env w0 w1 inv svc rel mode opts' plan →
      Since w.trace (fun more _ => holds more) w1 →
      Since w.trace (fun more _ => holds more)
        ((ReleaseLayout.release inv svc rel mode opts' plan).run env w1).2) :
    Since w.trace (fun more _ => holds more) ((operate inv pid id mode opts).run env w).2 := by
  have begins : Since w.trace (fun more _ => holds more) w := since_start start
  cases ran : (operate inv pid id mode opts).run env w with
  | mk result final =>
    obtain ⟨quietly, -⟩ | ⟨svc, opts', w0, service, quietly, applyRan⟩ := operate_ran ran
    · exact Quietly.since quietly quiet begins
    · have before := Quietly.since quietly quiet begins
      unfold apply at applyRan
      have last : final = ((result, final) : Except Failure Applied × World Machine Deploy).2 := rfl
      rw [last, ← applyRan]
      split
      · rename_i layoutStrategy
        refine ReleaseLayout.apply_since inv pid svc _ mode opts' quiet (fun plan w1 begun => ?_) before
        exact layout svc _ opts' plan w0 w1 service (Option.some_get _).symm quietly.onward begun
      · refine ReleaseOps.applyInPlace_since inv pid svc mode opts' quiet (fun plan w1 begun => ?_) before
        exact inPlace svc opts' plan w0 w1 service quietly.onward begun

end Operations

/-! ### A steady host

Where a claim fails, it fails on a host that answers like this one but for a few calls. -/

/-- Every call succeeds; there is nothing to find but memory. -/
def steady : (call : Call) → call.Answer
  | .git .. | .systemctl .. | .run .. => ({} : RunResult)
  | .readFile .. => .ok none
  | .writeFile .. | .appendFile .. | .removeFile .. | .symlink .. | .mkdir .. => .ok ()
  | .readlink _ => none
  | .stat _ => none
  | .readdir _ => none
  | .createExclusive .. => .ok true
  | .pidAlive _ => false
  | .http .. | .request .. => { status := 200 }
  | .psql .. => .ok []
  | .statfs _ => .ok 0
  | .listeners _ => .ok []
  | .acquireDeployLock .. => .ok ()
  | .releaseDeployLock | .sleep _ => ()
  | .memAvailableBytes => .ok (some (2 ^ 40))
  | .hostname | .operatorName | .randomId => "steady"
  | .isRoot | .kill .. => true
  | .sha256 _ => .ok ""

/-- A host whose answers depend on the call alone. -/
def hostOf (answers : (call : Call) → call.Answer) : Environment Machine where
  answer _ call := answers call
  takes _ _ := 0

/-- The world in which a run starts. -/
def fresh : World Machine Deploy := ⟨{}, 0, []⟩

/-- The exit code of a run that does not fail. -/
def endCode : Except Failure ReleaseOps.Applied → Option Nat
  | .ok applied => some applied.exitCode
  | .error _ => none

theorem ran_of_endCode {p : Ops ReleaseOps.Applied} {w : World Machine Deploy} {code : Nat}
    (ends : endCode (p.run env w).1 = some code) :
    ∃ applied, p.run env w = (.ok applied, (p.run env w).2) ∧ applied.exitCode = code := by
  cases ran : p.run env w with
  | mk result final =>
    rw [ran] at ends
    cases result with
    | error e => exact nomatch ends
    | ok applied => exact ⟨applied, rfl, Option.some.inj ends⟩

end OpenVibeHost
