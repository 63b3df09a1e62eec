import OpenVibeHost.Restoration

/-! The automatic rollback of an in-place run. It never throws, and its exit code 3 says that
the checkout is back, its dependencies resolve, and the units of the plan were restarted and
answer. -/
namespace OpenVibeHost.ReleaseOps
open Effects Program Releases Readiness

/-- The checkout was reset to the release left, then the units were restarted, and the
service answered. -/
def BackInPlace (env : Environment Machine) (svc : Service) (sha : String) (units : List String)
    (events : List (Event Machine)) : Prop :=
  ∃ before restored waited, events = before ++ restored ++ waited ∧
    (∃ installed, Restored env svc sha installed restored) ∧
      (∀ event ∈ waited, noMove event.call = true) ∧ Served svc units waited

theorem Served.append {svc : Service} {units : List String} {events : List (Event Machine)}
    (served : Served svc units events) (more : List (Event Machine)) : Served svc units (events ++ more) := by
  obtain ⟨restarts, ready, rfl, restarted, responded⟩ := served
  exact ⟨restarts, ready ++ more, List.append_assoc .., restarted, responded.append more⟩

theorem BackInPlace.append {env : Environment Machine} {svc : Service} {sha : String}
    {units : List String} {events more : List (Event Machine)} (back : BackInPlace env svc sha units events)
    (stay : ∀ event ∈ more, noMove event.call = true) : BackInPlace env svc sha units (events ++ more) := by
  obtain ⟨before, restored, waited, rfl, reset, still, served⟩ := back
  refine ⟨before, restored, waited ++ more, List.append_assoc .., reset, fun event member => ?_,
    served.append more⟩
  exact (List.mem_append.mp member).elim (still event) (stay event)

/-- The checkout is then where it was before the run. -/
theorem BackInPlace.checkout {env : Environment Machine} {svc : Service} {sha : String}
    {units : List String} {events : List (Event Machine)} (back : BackInPlace env svc sha units events) :
    movedTo svc events = some sha := by
  obtain ⟨before, _, waited, rfl, ⟨installed, r, t, rest, rfl, ok, stay, -⟩, still, -⟩ := back
  have moved : movedBy svc ⟨.git svc.repo false svc.owner (.resetHard sha), r, t⟩ = some sha :=
    if_pos ⟨rfl, ok⟩
  rw [movedTo_append still, List.append_cons, movedTo_append stay, movedTo_snoc]
  exact (congrArg (fun place => Option.or place (movedTo svc before)) moved).trans Option.some_or

/-- How an automatic rollback ends. -/
def RolledBack (env : Environment Machine) (svc : Service) (plan : Plan) (applied : Applied)
    (events : List (Event Machine)) : Prop :=
  (applied.exitCode = 3 ∧ BackInPlace env svc plan.fromSha plan.units events) ∨ applied.exitCode = 4

section
variable {env : Environment Machine} {base : List (Event Machine)} {svc : Service} {opts : Options}
  {plan : Plan}

theorem emits_restarts (units : List String) (expectSha : String) :
    Emits noMove (restartAndWait svc opts units expectSha) :=
  emits_restartAndWait (allows_noMove (by decide)) (fun _ _ => rfl) (fun _ _ _ => rfl) opts expectSha

theorem meets_rollBack :
    Meets env (Since base fun _ _ => True) (rollBack svc opts plan)
      (fun applied => Since base fun more _ => RolledBack env svc plan applied more)
      (fun _ _ => False) := by
  unfold rollBack
  refine meets_bind (Blames.meets_onward (blames_update _)) fun _ => ?_
  refine meets_attempt (T := fun _ => Since base fun _ _ => True) ?_ fun err => ?_
  · refine meets_bind (M := fun _ => Since base fun more _ => ∃ before restored, more = before ++ restored ∧
      ∃ installed, Restored env svc plan.fromSha installed restored) ?_ fun _ => ?_
    · refine ((emits_any _).meets_from (K := fun _ _ => True) fun base s =>
        meets_restoreCheckout plan.fromSha s).weaken (fun _ => id) (fun _ w since => since.mono ?_)
          fun _ _ => Since.onward
      exact fun more _ ⟨before, restored, s, split, _, _, done⟩ => ⟨before, restored, split, _, done⟩
    · have waits (base : List (Event Machine)) : Meets env (Since base fun more _ => more = [])
          (restartAndWait svc opts plan.units plan.fromSha)
          (fun r => Since base fun more _ => r.ok = true → Served svc plan.units more)
          (fun _ => Since base fun _ _ => True) :=
        (meets_restartAndWait opts plan.units plan.fromSha).weaken (fun _ => Since.onward) (fun _ _ => id)
          fun _ _ => id
      refine meets_bind (M := fun back => Since base fun more _ => back.ok = true →
        BackInPlace env svc plan.fromSha plan.units more) ?_ fun back => ?_
      · refine meets_since_liftM fun _ => ((emits_restarts plan.units plan.fromSha).meets_split
          waits).weaken (fun _ => id) (fun back w since => since.mono ?_) fun _ _ => Since.onward
        rintro _ _ ⟨_, waited, rfl, ⟨before, restored, rfl, reset⟩, still, served⟩ ok
        exact ⟨before, restored, waited, rfl, reset, still, served ok⟩
      · refine meets_bind (M := fun _ => Since base fun more _ => back.ok = true →
          BackInPlace env svc plan.fromSha plan.units more) (meets_since_update fun _ _ => id) fun _ => ?_
        split
        · rename_i ok
          refine meets_bind (M := fun _ => Since base fun more _ => BackInPlace env svc plan.fromSha
            plan.units more) (fun w ⟨more, trace, now⟩ => ⟨more, trace, now ok⟩) fun _ => ?_
          exact meets_pure fun w since => since.mono fun _ _ now => .inl ⟨rfl, now⟩
        · refine meets_bind (meets_onward _) fun _ => meets_pure fun w since => ?_
          exact since.mono fun _ _ _ => .inr rfl
  · refine meets_bind (Blames.meets_onward (blames_update _)) fun _ => meets_pure fun w since => ?_
    exact since.mono fun _ _ _ => .inr rfl

/-! ### Whole runs -/

/-- The automatic rollback that a run has entered. -/
abbrev entered (s : Deploy) : Option AutoRollback := s.record.autoRollback

abbrev anyCall (_ : Machine.Call) : Bool := true

theorem allows_any (kind : Kind) : Allows anyCall kind := fun _ _ => rfl

theorem frame_entered {α : Type} {p : Ops α} (frame : Frame anyCall Deploy.progress p) :
    Frame anyCall entered p := ⟨frame.emits, fun env w => congrArg (·.2.2) (frame.keeps env w)⟩

theorem meets_unentered {α : Type} {p : Ops α} (frame : Frame anyCall entered p) :
    Meets env (Since base fun _ s => entered s = none) p (fun _ => Since base fun _ s => entered s = none)
      (fun _ => Since base fun _ s => entered s = none) :=
  frame.meets (stable_since (fun _ _ _ _ => id) fun _ _ _ same none => same.trans none)

theorem meets_restartStage (mode : Mode) (announcements : Option (List Announcement)) :
    Meets env (Since base fun _ s => entered s = none) (restartStage svc mode opts plan announcements)
      (fun applied => Since base fun more s => entered s ≠ none → RolledBack env svc plan applied more)
      (fun _ => Since base fun _ s => entered s = none) := by
  unfold restartStage
  refine meets_bind (meets_unentered (frame_liftM (emits_any _))) fun r => ?_
  refine meets_bind (meets_unentered (frame_setRecord fun _ => rfl)) fun _ => ?_
  split
  · refine meets_bind (meets_unentered (frame_setRecord fun _ => rfl)) fun _ => ?_
    exact meets_pure fun w since => since.mono fun _ _ none some => absurd none some
  · exact meets_rollBack.weaken (fun _ => Since.onward) (fun applied w since => since.mono fun _ _ back _ =>
      back) fun _ _ => False.elim

/-- A release enters the automatic rollback only where it ends with it. -/
theorem meets_release (inv : Inventory) (mode : Mode) :
    Meets env (Since base fun _ s => entered s = none) (release inv svc mode opts plan)
      (fun applied => Since base fun more s => entered s ≠ none → RolledBack env svc plan applied more)
      (fun _ => Since base fun _ s => entered s = none) := by
  unfold release
  refine meets_bind (meets_unentered (frame_whenever fun _ => ?_)) fun _ => ?_
  · exact frame_entered (frame_guardSessions (allows_any _) (allows_any _) inv svc opts _).outcome.progress
  refine meets_bind (meets_unentered (frame_entered
    (frame_clearTheWay (allows_any _) svc plan).outcome.progress)) fun _ =>
      meets_bind (meets_unentered ?_) fun _ => ?_
  · unfold moveCheckout
    split
    · exact frame_pure _
    · exact frame_bind (frame_liftM (emits_any _)) fun _ => frame_setRecord fun _ => rfl
  · refine meets_bind (meets_unentered (frame_entered (frame_attempt ?_ fun err => ?_))) fun _ => ?_
    · exact (frame_prepareRestart (allows_any _) (allows_any _) (allows_any _) (allows_any _)
        fun _ _ _ => rfl).progress
    · exact frame_undoPrepare (allows_any _) (allows_any _) (allows_any _) svc plan err
    · refine meets_bind (meets_unentered (frame_liftM (emits_any _))) fun announcements => ?_
      split
      · refine meets_bind (meets_unentered ?_) fun _ => ?_
        · unfold finishWithoutRestart
          refine frame_bind (frame_setRecord fun _ => rfl) fun _ => ?_
          split
          · exact frame_bind (frame_liftM (emits_any _)) fun p => frame_setRecord fun _ => rfl
          · exact frame_pure _
        · exact meets_pure fun w since => since.mono fun _ _ none some => absurd none some
      · exact meets_restartStage mode announcements

end

/-- A run that enters the automatic rollback does not throw, and ends with exit code 3 or 4,
the lock file of the service aside; and with 3 only where the checkout is back, every
dependency resolves, and the units of the plan were restarted and answer. -/
theorem automatic_rollback (env : Environment Machine) (inv : Inventory) (pid : Nat) (svc : Service)
    (mode : Mode) (opts : Options) (w : World Machine Deploy) :
    Quietly w ((applyInPlace inv pid svc mode opts).run env w).2 ∨
      ∃ plan w1 events, Begun env w w1 svc mode opts plan ∧
        ((applyInPlace inv pid svc mode opts).run env w).2.trace = w1.trace ++ events ∧
        (entered ((applyInPlace inv pid svc mode opts).run env w).2.own = none ∨
          LockStuck inv svc events ∨
          ∃ applied, ((applyInPlace inv pid svc mode opts).run env w).1 = .ok applied ∧
            RolledBack env svc plan applied events) := by
  cases ran : (applyInPlace inv pid svc mode opts).run env w with
  | mk result final =>
    obtain unbegun | ⟨plan, w1, r, w2, begun, releaseRan, ended⟩ := applyInPlace_ran ran
    · exact .inl unbegun.quietly
    · have unentered : entered w1.own = none := congrArg (·.1.autoRollback) begun.core
      have met := @meets_release env w1.trace svc opts plan inv mode w1 (since_start unentered)
      obtain ⟨more, released⟩ := (Program.onward (release inv svc mode opts plan) env w1).2
      rw [releaseRan] at met released
      obtain ⟨later, trace, quiet, outcome⟩ := ended.events
      obtain ⟨result', core, -⟩ := ended.record
      have same : entered final.own = entered w2.own := congrArg (·.1.autoRollback) core
      refine .inr ⟨plan, w1, more ++ later, begun, by rw [trace, ← released, List.append_assoc], ?_⟩
      by_cases rolled : entered w2.own = none
      · exact .inl (same.trans rolled)
      · cases r with
        | error e =>
          obtain ⟨-, -, unentered⟩ := met
          exact absurd unentered rolled
        | ok applied =>
          have since : Since w1.trace (fun events s => entered s ≠ none → RolledBack env svc plan applied
            events) w2 := met
          have back := since.at_end released.symm rolled
          obtain rfl | ⟨-, message, t, member⟩ := outcome
          · refine .inr (.inr ⟨applied, rfl, back.imp_left fun ⟨three, there⟩ => ⟨three, there.append ?_⟩⟩)
            exact fun event member => quiet_noMove (quiet event member)
          · exact .inr (.inl ⟨message, t, List.mem_append_right _ member⟩)

/-! ### An auxiliary unit stays -/

/-- A service with an auxiliary unit. -/
def post : Service where
  id := "post"
  repo := "/srv/post"
  owner := "post"
  runAs := "post"
  units := ["post.service"]
  auxiliaryUnits := [{ unit := "queue.service", restartOn := ["deploy/queue/"] }]
  ready := some { url := "http://127.0.0.1:9003/ready" }
  unit_service := by decide
  socket_socket := Service.no_socket
  auxiliary_apart := by decide
  workers_service := Service.no_unit
  workers_apart := by decide
  auxiliary_no_worker := by decide
  sources_apart := Service.no_source
  sources_named := Service.no_source_named
  laid_out := Service.no_layout

def postHost : Inventory where
  stateDir := "/var/lib/openvibe-host"
  backupDir := "/var/backups/openvibe"
  backupStagingDir := "/var/backups/openvibe/staging"
  services := [post]
  backup_absolute := backups_absolute

/-- A reset of the checkout. -/
def isReset (event : Event Machine) : Bool :=
  match event.call with
  | .git _ _ _ (.resetHard _) => true
  | _ => false

/-- The unit that a call restarts. -/
def restartOf (event : Event Machine) : Option String :=
  match event.call with
  | .systemctl .restart unit => unit
  | _ => none

/-- The code of `post` and what its auxiliary unit runs on change, and the service answers
once the checkout is reset. -/
def readyOnceReset : Environment Machine where
  answer past call := match call with
    | .http .. => if past.any isReset then { status := 200 } else { status := 500 }
    | .git _ _ _ .head => { stdout := "aaaaaaaaaaaaaaaaaaaaaaaaaaaaaaaaaaaaaaaa" }
    | .git _ _ _ .branch => { stdout := "main" }
    | .git _ _ _ (.revParse _) => { stdout := "bbbbbbbbbbbbbbbbbbbbbbbbbbbbbbbbbbbbbbbb" }
    | .git _ _ _ (.changedFiles ..) => { stdout := "server.js\ndeploy/queue/limits.toml" }
    | other => steady other
  takes _ call := match call with
    | .sleep _ => 120000
    | _ => 0

/-- The release is rolled back, its auxiliary unit restarted and not again after the reset, and its locks given back. -/
theorem post_run :
    endCode ((applyInPlace postHost 7 post .deploy {}).run readyOnceReset fresh).1 = some 3 ∧
      (entered ((applyInPlace postHost 7 post .deploy {}).run readyOnceReset fresh).2.own).isSome = true ∧
      ((applyInPlace postHost 7 post .deploy {}).run readyOnceReset
        fresh).2.trace.any (restartOf · = some "queue.service") = true ∧
      (((applyInPlace postHost 7 post .deploy {}).run readyOnceReset fresh).2.trace.Pairwise fun first second =>
        isReset first = true → restartOf second ≠ some "queue.service") ∧
      ((applyInPlace postHost 7 post .deploy {}).run readyOnceReset fresh).2.trace.all
        (fun | ⟨.removeFile .., .error _, _⟩ => false | _ => true) = true := by decide +kernel

/-- Exit code 3 of a run that restarted a unit on the new release and not after the reset. -/
theorem auxiliary_not_rolled_back : ¬ ∀ env inv pid svc mode opts (w : World Machine Deploy),
    Quietly w ((applyInPlace inv pid svc mode opts).run env w).2 ∨
      ∃ plan w1 events, Begun env w w1 svc mode opts plan ∧
        ((applyInPlace inv pid svc mode opts).run env w).2.trace = w1.trace ++ events ∧
        (entered ((applyInPlace inv pid svc mode opts).run env w).2.own = none ∨
          LockStuck inv svc events ∨
          ∃ applied, ((applyInPlace inv pid svc mode opts).run env w).1 = .ok applied ∧
            ((applied.exitCode = 3 ∧ BackInPlace env svc plan.fromSha (events.filterMap restartOf) events) ∨
              applied.exitCode = 4)) := by
  intro claim
  obtain ⟨three, rolled, restarted, left, unlocked⟩ := post_run
  obtain ⟨event, member, restarts⟩ := List.any_eq_true.mp restarted
  have restarts := of_decide_eq_true restarts
  have loud : quietCalls event.call = false := by
    obtain ⟨call, answer, t⟩ := event
    cases call with
    | systemctl action unit => cases action <;> first | rfl | exact nomatch restarts
    | _ => exact nomatch restarts
  obtain ⟨more, trace, quiet⟩ | ⟨plan, w1, events, begun, trace, ends⟩ :=
    claim readyOnceReset postHost 7 post .deploy {} fresh
  · have within : event ∈ [] ++ more := trace ▸ member
    exact absurd (quiet event (by simpa using within)) (by simp [loud])
  · obtain ⟨first, trace1, quiet⟩ := begun.quietly
    have within : event ∈ events := by
      rw [trace, trace1] at member
      obtain early | late := List.mem_append.mp member
      · exact absurd (quiet event (by simpa [fresh] using early)) (by simp [loud])
      · exact late
    obtain unentered | ⟨message, t, stuck⟩ | ⟨applied, ended, ⟨-, back⟩ | four⟩ := ends
    · rw [unentered] at rolled
      exact nomatch rolled
    · have removed := List.all_eq_true.mp unlocked _ (trace ▸ List.mem_append_right _ stuck)
      exact nomatch removed
    · obtain ⟨before, _, waited, rfl, ⟨installed, r, t, rest, rfl, -⟩, -, restarts', ready, rfl, all, -⟩ := back
      obtain ⟨r', t', again, -⟩ := all "queue.service" (List.mem_filterMap.mpr ⟨event, within, restarts⟩)
      rw [trace] at left
      have apart := (List.pairwise_append.mp (List.pairwise_append.mp left).2.1).2.2
      exact apart _ (List.mem_append_right _ List.mem_cons_self) _ (List.mem_append_left _ again) rfl rfl
    · rw [ended] at three
      exact absurd (four.symm.trans (Option.some.inj three)) (by decide)

end OpenVibeHost.ReleaseOps
