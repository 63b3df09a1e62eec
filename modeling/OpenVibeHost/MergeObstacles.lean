import OpenVibeHost.AutomaticRollback
import Mathlib.Data.Set.Basic

/-! What an in-place deploy has taken out of its checkout when it fails before the checkout moves:
what it cleared out of the way of a merge that was then not made. -/
namespace OpenVibeHost
open Effects Program Releases

/-- The commits a run moves between. -/
def Deploy.commits (s : Deploy) : Option String × Option String := (s.record.fromSha, s.record.toSha)

/-- Where a run is with its checkout: whether it moved, and from where to where. -/
def Deploy.span (s : Deploy) : Bool × Option String × Option String := (s.record.checkoutMoved, s.commits)

namespace ReleaseOps

/-! ### What a checkout can lose -/

/-- The entries of the index, those of them with the skip-worktree bit, and the untracked files. -/
structure Holding where
  index : Set String
  skipped : Set String
  files : Set String

/-- What is surely left after an event. A move of the checkout leaves another index, and what
another command did than `rm` is not known. -/
def Holding.after (h : Holding) : Event Machine → Holding
  | ⟨.git _ _ _ command, r, _⟩ =>
    if RunResult.code r = 0 then
      match command with
      | .rmCached file => { h with index := {f ∈ h.index | f ≠ file ∧ beginsWith f (file ++ "/") = false} }
      | .noSkipWorktree file => { h with skipped := {f ∈ h.skipped | f ≠ file} }
      | .ffMerge _ | .resetHard _ => ⟨∅, ∅, ∅⟩
      | _ => h
    else h
  | ⟨.run cmd args _, r, _⟩ =>
    if cmd = "rm" then
      if RunResult.code r = 0 then { h with files := {f ∈ h.files | f ∉ args} } else h
    else ⟨∅, ∅, ∅⟩
  | ⟨.removeFile path _, _, _⟩ => { h with files := {f ∈ h.files | f ≠ path} }
  | _ => h

/-- The index, its bits and the untracked files are what they were, whatever they were; the lock
file of the service is the run's own. -/
def Kept (inv : Inventory) (svc : Service) (events : List (Event Machine)) : Prop :=
  ∀ h : Holding, Locks.lockFile inv svc.id ∉ h.files → events.foldl Holding.after h = h

/-- A call that takes nothing out of a checkout. -/
def harmless (lock : String) : Machine.Call → Bool
  | .git _ _ _ command =>
    match command with
    | .rmCached _ | .noSkipWorktree _ | .ffMerge _ | .resetHard _ => false
    | _ => true
  | .run .. => false
  | .removeFile path _ => path = lock
  | _ => true

/-- Such a call, or a git command that failed. -/
def spares (lock : String) (event : Event Machine) : Bool :=
  harmless lock event.call ||
    match event with
    | ⟨.git .., r, _⟩ => RunResult.code r ≠ 0
    | _ => false

theorem after_spared {lock : String} {event : Event Machine} (spared : spares lock event = true)
    {h : Holding} (own : lock ∉ h.files) : h.after event = h := by
  obtain ⟨call, answer, t⟩ := event
  cases call with
  | git dir safe owner command =>
    simp only [spares, Bool.or_eq_true] at spared
    obtain harmless | failed := spared
    · cases command <;> first | exact ite_self _ | exact nomatch harmless
    · exact if_neg (of_decide_eq_true failed)
  | run => exact nomatch spared
  | removeFile path privileged =>
    obtain rfl : path = lock := by simpa [spares, harmless] using spared
    have same : {f ∈ h.files | f ≠ path} = h.files :=
      Set.sep_eq_self_iff_mem_true.mpr fun f member same => own (same ▸ member)
    change { h with files := {f ∈ h.files | f ≠ path} } = h
    rw [same]
  | _ => rfl

theorem kept_of_spared {inv : Inventory} {svc : Service} {events : List (Event Machine)}
    (spared : ∀ event ∈ events, spares (Locks.lockFile inv svc.id) event = true) : Kept inv svc events := by
  intro h own
  induction events with
  | nil => rfl
  | cons event rest ih =>
    rw [List.foldl_cons, after_spared (spared event List.mem_cons_self) own]
    exact ih fun other member => spared other (List.mem_cons_of_mem _ member)

theorem after_fewer (h : Holding) (event : Event Machine) : (h.after event).files ⊆ h.files := by
  obtain ⟨call, answer, t⟩ := event
  cases call with
  | git dir safe owner command =>
    simp only [Holding.after]
    split
    · cases command <;> first | exact subset_rfl | exact Set.empty_subset _
    · exact subset_rfl
  | run cmd args options =>
    simp only [Holding.after]
    split
    · split
      · exact Set.sep_subset _ _
      · exact subset_rfl
    · exact Set.empty_subset _
  | removeFile path privileged => exact Set.sep_subset _ _
  | _ => exact subset_rfl

/-- A removal of the file. -/
def removes (file : String) (event : Event Machine) : Bool :=
  match event with
  | ⟨.run cmd args _, r, _⟩ => decide (cmd = "rm" ∧ file ∈ args ∧ RunResult.code r = 0)
  | _ => false

/-- A file that was removed is not there any more. -/
theorem gone_of_removes {file : String} {events : List (Event Machine)} (h : Holding)
    (removed : events.any (removes file) = true) : file ∉ (events.foldl Holding.after h).files := by
  induction events generalizing h with
  | nil => exact nomatch removed
  | cons event rest ih =>
    rw [List.any_cons, Bool.or_eq_true] at removed
    obtain first | later := removed
    · have fewer (others : List (Event Machine)) (h : Holding) : (others.foldl Holding.after h).files ⊆ h.files := by
        induction others generalizing h with
        | nil => exact subset_rfl
        | cons other others ih => exact (ih _).trans (after_fewer h other)
      refine fun there => absurd (fewer rest _ there) ?_
      obtain ⟨call, answer, t⟩ := event
      cases call with
      | run cmd args options =>
        obtain ⟨rfl, listed, done⟩ := of_decide_eq_true first
        have after : (h.after ⟨.run "rm" args options, answer, t⟩).files = {f ∈ h.files | f ∉ args} :=
          congrArg Holding.files (if_pos done)
        rw [after]
        exact fun member => member.2 listed
      | _ => exact nomatch first
    · exact ih _ later

theorem not_kept_of_removes {inv : Inventory} {svc : Service} {file : String} {events : List (Event Machine)}
    (other : file ≠ Locks.lockFile inv svc.id) (removed : events.any (removes file) = true) : ¬ Kept inv svc events := by
  intro kept
  have gone := gone_of_removes ⟨∅, ∅, {file}⟩ removed
  rw [kept ⟨∅, ∅, {file}⟩ fun lock => other (Set.mem_singleton_iff.mp lock).symm] at gone
  exact gone (Set.mem_singleton file)

/-! ### Steps that take nothing out -/

section
variable {σ : Type} {lock : String}

theorem harmless_look : Allows (harmless lock) .look := by
  rintro call looks
  cases call with
  | git dir safe owner command => cases command <;> first | rfl | exact nomatch looks
  | run cmd args options =>
    simp only [Call.kind] at looks
    split at looks <;> exact nomatch looks
  | removeFile path privileged => exact nomatch looks
  | _ => rfl

theorem harmless_position : Allows (harmless lock) .position := by
  rintro call same
  cases call with
  | git dir safe owner command => cases command <;> first | rfl | exact nomatch same
  | run cmd args options =>
    simp only [Call.kind] at same
    split at same <;> exact nomatch same
  | removeFile path privileged => exact nomatch same
  | _ => rfl

theorem harmless_lock : Allows (harmless lock) .lock := by
  rintro call same
  cases call with
  | git dir safe owner command => cases command <;> exact nomatch same
  | run cmd args options =>
    simp only [Call.kind] at same
    split at same <;> exact nomatch same
  | removeFile path privileged => exact nomatch same
  | _ => rfl

/-- From one world to the other nothing was taken out of the checkout. -/
def Sparing (lock : String) (w w' : World Machine σ) : Prop :=
  ∃ more, w'.trace = w.trace ++ more ∧ ∀ event ∈ more, spares lock event = true

theorem Sparing.of_trace {w w' : World Machine σ} (same : w'.trace = w.trace) : Sparing lock w w' :=
  ⟨[], by rw [same, List.append_nil], fun _ member => nomatch member⟩

theorem Sparing.trans {w w' w'' : World Machine σ} (first : Sparing lock w w') (second : Sparing lock w' w'') :
    Sparing lock w w'' := by
  obtain ⟨more, trace, spared⟩ := first
  obtain ⟨more', trace', spared'⟩ := second
  refine ⟨more ++ more', by rw [trace', trace, List.append_assoc], fun event member => ?_⟩
  exact (List.mem_append.mp member).elim (spared event) (spared' event)

theorem Sparing.of_emits {α : Type} {env : Environment Machine} {p : Ovhost σ α} (emits : Emits (harmless lock) p)
    {w w' : World Machine σ} {result : Except Failure α} (ran : p.run env w = (result, w')) : Sparing lock w w' := by
  have extends' := emits env w
  rw [ran] at extends'
  obtain ⟨more, trace, calls⟩ := extends'
  exact ⟨more, trace, fun event member => by simp [spares, calls event member]⟩

end

/-! ### Steps that leave the checkout where it is -/

section
variable {svc : Service} {plan : Plan}

theorem keeps_record {f : Record → Record} (same : ∀ s : Deploy, Deploy.span { s with record := f s.record } = s.span) :
    Keeps Deploy.span (setRecord f) := keeps_update same

theorem keeps_span {α : Type} {p : Ops α} (frame : Frame anyCall Deploy.outcome p) : Keeps Deploy.span p :=
  fun env w => congrArg (fun o : Outcome => (o.checkoutMoved, o.fromSha, o.toSha)) (frame.keeps env w)

theorem span_undoPrepare (err : Failure) : Keeps Deploy.span (undoPrepare svc plan err) := by
  unfold undoPrepare
  refine keeps_bind keeps_own fun s => keeps_bind (keeps_whenever fun _ => ?_) fun _ => ?_
  · refine keeps_attempt (keeps_bind ?_ fun _ => keeps_record fun _ => rfl) fun e => keeps_throw _
    exact keeps_span (frame_restoreCheckout (allows_any _) (allows_any _) (allows_any _) svc plan.fromSha).outcome
  · refine keeps_bind keeps_own fun s => ?_
    cases err <;> exact keeps_throw _

theorem span_prepared (inv : Inventory) (opts : Options) :
    Keeps Deploy.span (attempt (prepareRestart inv svc opts plan) (undoPrepare svc plan)) :=
  keeps_attempt (keeps_span (frame_prepareRestart (allows_any _) (allows_any _) (allows_any _) (allows_any _)
    fun _ _ _ => rfl)) fun err => span_undoPrepare err

theorem span_restartStage (mode : Mode) (opts : Options) (announcements : Option (List Announcement)) :
    Keeps Deploy.span (restartStage svc mode opts plan announcements) := by
  unfold restartStage
  refine keeps_bind (keeps_liftM _) fun r => keeps_bind (keeps_record fun _ => rfl) fun _ => ?_
  split
  · exact keeps_bind (keeps_record fun _ => rfl) fun _ => keeps_pure _
  · unfold rollBack
    refine keeps_bind (keeps_record fun _ => rfl) fun _ => keeps_attempt ?_ fun err => ?_
    · refine keeps_bind (keeps_span (frame_restoreCheckout (allows_any _) (allows_any _) (allows_any _)
        svc plan.fromSha).outcome) fun _ => keeps_bind (keeps_liftM _) fun back => ?_
      refine keeps_bind (keeps_record fun _ => rfl) fun _ => ?_
      split <;> exact keeps_bind (keeps_record fun _ => rfl) fun _ => keeps_pure _
    · exact keeps_bind (keeps_record fun _ => rfl) fun _ => keeps_pure _

/-- What follows the move of the checkout. -/
def afterMove (inv : Inventory) (svc : Service) (mode : Mode) (opts : Options) (plan : Plan) : Ops Applied := do
  attempt (prepareRestart inv svc opts plan) (undoPrepare svc plan)
  let announcements ← releaseAnnouncements svc
  if plan.restartNeeded = false then
    finishWithoutRestart svc mode
    return { exitCode := Exit.ok.code, announcements }
  else restartStage svc mode opts plan announcements

theorem span_afterMove (inv : Inventory) (mode : Mode) (opts : Options) :
    Keeps Deploy.span (afterMove inv svc mode opts plan) := by
  unfold afterMove
  refine keeps_bind (span_prepared inv opts) fun _ => keeps_bind (keeps_liftM _) fun announcements => ?_
  split
  · refine keeps_bind ?_ fun _ => keeps_pure _
    unfold finishWithoutRestart setResult
    refine keeps_bind (keeps_record fun _ => rfl) fun _ => ?_
    split
    · exact keeps_bind (keeps_liftM _) fun p => keeps_record fun _ => rfl
    · exact keeps_pure _
  · exact span_restartStage mode opts announcements

end

/-! ### Runs that fail before the move -/

/-- What a plan takes out of the way of its merge, beside rewritten build output. -/
def obstacles (plan : Plan) : List String :=
  plan.untrackedLockfiles ++ plan.untrackedGenerated ++ plan.untrackedDeleted

/-- What the release does before it removes any of them. -/
def beforeRemoval (inv : Inventory) (svc : Service) (opts : Options) (plan : Plan) : Ops Unit := do
  whenever plan.restartNeeded (guardSessions inv svc opts "before the checkout moves")
  whenever (plan.generatedDirty ≠ [] ∧ plan.upToDate = false)
    (Git.checkoutPaths svc.checkout plan.generatedDirty)

/-- What takes them out of the way. -/
def removal (svc : Service) (plan : Plan) : Ops Unit := do
  forEach (plan.untrackedLockfiles ++ plan.untrackedGenerated) fun f => do
    let _ ← Exec.run "rm" ["-f", "--", joinPath svc.repo f] { asUser := some svc.owner }
    setRecord fun r => { r with removedUntracked := r.removedUntracked ++ [f] }
  forEach plan.untrackedDeleted fun f => do
    let _ ← Git.tryRun svc.checkout (.noSkipWorktree f)
    let _ ← Git.mustRun svc.checkout (.rmCached f)
    setRecord fun r => { r with droppedFromIndex := r.droppedFromIndex ++ [f] }

section
variable {env : Environment Machine} {inv : Inventory} {svc : Service} {opts : Options} {plan : Plan}
  {w final : World Machine Deploy} {e : Failure} {lock : String}

theorem emits_checkoutPaths_harmless (g : Checkout) (files : List String) :
    Emits (harmless lock) (Git.checkoutPaths g files) := by
  have go (fuel : Nat) (files : List String) : Emits (harmless lock) (Git.checkoutPaths.go g fuel files) := by
    induction fuel generalizing files with
    | zero => exact emits_pure _
    | succ fuel ih =>
      unfold Git.checkoutPaths.go
      split
      · exact emits_pure _
      · exact emits_pure _
      · rename_i equal _
        obtain rfl := Nat.succ.inj equal
        refine emits_bind ?_ fun r => ih _
        unfold Git.mustRun Git.tryRun
        refine emits_bind (emits_ask rfl) fun r => ?_
        split
        · exact emits_throw _
        · exact emits_pure _
  exact go _ _

theorem removal_of_none (none' : obstacles plan = []) : removal svc plan = pure () := by
  obtain ⟨lockfiles, generated, deleted⟩ : plan.untrackedLockfiles = [] ∧ plan.untrackedGenerated = [] ∧
      plan.untrackedDeleted = [] := by simpa [obstacles] using none'
  unfold removal
  rw [lockfiles, generated, deleted]
  rfl

theorem release_parts : release inv svc .deploy opts plan = (do
    beforeRemoval inv svc opts plan
    removal svc plan
    moveCheckout svc .deploy plan
    afterMove inv svc .deploy opts plan) := by
  unfold release clearTheWay beforeRemoval removal afterMove
  simp only [bind_assoc]

/-- The merge fails and changes nothing, or the checkout has moved. -/
theorem moveCheckout_ran {result : Except Failure Unit} (later : plan.upToDate = false)
    (ran : (moveCheckout svc .deploy plan).run env w = (result, final)) :
    (∃ e, result = .error e) ∧ Sparing lock w final ∨ final.own.record.checkoutMoved = true := by
  have merges : moveCheckout svc .deploy plan = (do
      let _ ← Git.mustRun svc.checkout (.ffMerge plan.toSha)
      setRecord fun r => { r with checkoutMoved := true }) := by simp [moveCheckout, later]
  rw [merges] at ran
  obtain ⟨e, failed, rfl⟩ | ⟨_, w1, -, ran⟩ := run_bind ran
  · obtain ⟨last, failed, -, -, trace⟩ := run_liftM failed
    unfold Git.mustRun Git.tryRun at failed
    obtain ⟨_, ⟨⟩, -⟩ | ⟨r, w2, asked, failed⟩ := run_bind failed
    obtain ⟨answered, rfl⟩ := Prod.mk.inj asked
    obtain rfl := Except.ok.inj answered
    split at failed
    · rename_i nonzero
      obtain ⟨-, rfl⟩ := Prod.mk.inj failed
      refine .inl ⟨⟨e, rfl⟩, _, trace, fun event member => ?_⟩
      obtain rfl := List.mem_singleton.mp member
      exact decide_eq_true nonzero
    · exact nomatch failed
  · obtain ⟨-, rfl⟩ := Prod.mk.inj ran
    exact .inr rfl

/-- A release that does not move the checkout took nothing out, or there was something in the way. -/
theorem release_spares {result : Except Failure Applied} (later : plan.upToDate = false)
    (ran : (release inv svc .deploy opts plan).run env w = (result, final)) :
    Sparing lock w final ∨ final.own.record.checkoutMoved = true ∨
      obstacles plan ≠ [] ∧ ∃ w', (beforeRemoval inv svc opts plan).run env w = (.ok (), w') := by
  rw [release_parts] at ran
  have before : Emits (harmless lock) (beforeRemoval inv svc opts plan) :=
    emits_bind (emits_whenever fun _ => (frame_guardSessions harmless_look harmless_lock inv svc opts _).emits)
      fun _ => emits_whenever fun _ => emits_liftM (emits_checkoutPaths_harmless _ _)
  obtain ⟨e, refused, rfl⟩ | ⟨_, w1, passed, ran⟩ := run_bind ran
  · exact .inl (.of_emits before refused)
  by_cases none' : obstacles plan = []
  · have sparing : Sparing lock w w1 := .of_emits before passed
    rw [removal_of_none none', pure_bind] at ran
    obtain ⟨e, failed, rfl⟩ | ⟨_, w2, moved, ran⟩ := run_bind ran
    · obtain ⟨-, stays⟩ | moved := @moveCheckout_ran env svc plan w1 final lock _ later failed
      · exact .inl (sparing.trans stays)
      · exact .inr (.inl moved)
    · obtain ⟨⟨e, impossible⟩, -⟩ | moved := @moveCheckout_ran env svc plan w1 w2 lock _ later moved
      · exact nomatch impossible
      · have kept := @span_afterMove svc plan inv .deploy opts env w2
        rw [ran] at kept
        exact .inr (.inl ((congrArg Prod.fst kept).trans moved))
  · exact .inr (.inr ⟨none', w1, passed⟩)

end

/-! ### The whole run -/

section
variable {env : Environment Machine} {inv : Inventory} {svc : Service} {opts : Options} {pid : Nat}
  {w final : World Machine Deploy} {lock : String}

theorem commits_of_span {α : Type} {p : Ops α} (keeps : Keeps Deploy.span p) : Keeps Deploy.commits p :=
  fun env w => congrArg Prod.snd (keeps env w)

theorem keeps_commits {f : Record → Record}
    (same : ∀ s : Deploy, Deploy.commits { s with record := f s.record } = s.commits) :
    Keeps Deploy.commits (setRecord f) := keeps_update same

theorem commits_release (plan : Plan) : Keeps Deploy.commits (release inv svc .deploy opts plan) := by
  rw [release_parts]
  refine keeps_bind ?_ fun _ => keeps_bind ?_ fun _ => keeps_bind ?_ fun _ =>
    commits_of_span (span_afterMove inv .deploy opts)
  · unfold beforeRemoval
    refine keeps_bind (keeps_whenever fun _ => ?_) fun _ => keeps_whenever fun _ => keeps_liftM _
    exact commits_of_span (keeps_span (frame_guardSessions (allows_any _) (allows_any _) inv svc opts _).outcome)
  · unfold removal
    refine keeps_bind (keeps_forEach fun f _ => ?_) fun _ => keeps_forEach fun f _ => ?_
    · exact keeps_bind (keeps_liftM _) fun _ => keeps_commits fun _ => rfl
    · exact keeps_bind (keeps_liftM _) fun _ => keeps_bind (keeps_liftM _) fun _ => keeps_commits fun _ => rfl
  · unfold moveCheckout
    split
    · exact keeps_pure _
    · exact keeps_bind (keeps_liftM _) fun _ => keeps_commits fun _ => rfl

/-- A run under the lock up to the removal, and what it plans. -/
def lockedUntilRemoval (inv : Inventory) (svc : Service) (opts : Options) : Ops Plan := do
  Locks.acquireHost inv svc
  update fun s => { s with hostLock := true }
  let plan ← computePlan svc .deploy opts
  setRecord fun r => { r with
    fromSha := some plan.fromSha, toSha := some plan.toSha, commits := plan.commits.length
    lockfileChanged := plan.lockfileChanged, restartNeeded := some plan.restartNeeded }
  if plan.branch ≠ svc.branch ∨ plan.dirty ≠ [] then throw (opError "refused" .validation)
  else
    beforeRemoval inv svc opts plan
    return plan

/-- A whole run up to there. -/
def untilRemoval (inv : Inventory) (pid : Nat) (svc : Service) (opts : Options) : Ops Plan := do
  let _ ← Exec.readlink (joinPath svc.repo "current")
  Locks.acquire inv svc.id pid
  startRecord svc .deploy none
  lockedUntilRemoval inv svc opts

/-- From one world to the other nothing was taken out, unless the checkout moved or there was no other
commit to move to. -/
def Spares (lock : String) (w final : World Machine Deploy) : Prop :=
  Sparing lock w final ∨ final.own.record.checkoutMoved = true ∨
    ∃ sha, final.own.commits = (some sha, some sha)

theorem applyLocked_spares {result : Except Failure Applied}
    (ran : (applyLocked inv svc .deploy opts).run env w = (result, final)) :
    Spares lock w final ∨
      ∃ plan w', (lockedUntilRemoval inv svc opts).run env w = (.ok plan, w') ∧ obstacles plan ≠ [] := by
  unfold applyLocked at ran
  have acquires : Emits (harmless lock) (liftM (Locks.acquireHost inv svc) : Ops Unit) :=
    emits_liftM (emits_acquireHost harmless_lock inv svc)
  obtain ⟨e, taken, rfl⟩ | ⟨_, w1, taken, ran⟩ := run_bind ran
  · exact .inl (.inl (.of_emits acquires taken))
  obtain ⟨e, ⟨⟩, rfl⟩ | ⟨_, w2, holds, ran⟩ := run_bind ran
  have sparing2 : Sparing lock w w2 :=
    (Sparing.of_emits acquires taken).trans (.of_trace (update_ran holds).2.2)
  have plans : Emits (harmless lock) (liftM (computePlan svc .deploy opts) : Ops Plan) :=
    emits_liftM (emits_computePlan harmless_look harmless_position svc .deploy opts)
  obtain ⟨e, planRan, rfl⟩ | ⟨plan, w3, planRan, ran⟩ := run_bind ran
  · exact .inl (.inl (sparing2.trans (.of_emits plans planRan)))
  obtain ⟨last, planned, -, -, -⟩ := run_liftM planRan
  obtain ⟨e, ⟨⟩, rfl⟩ | ⟨_, w4, sets, ran⟩ := run_bind ran
  obtain ⟨-, own4, trace4⟩ := update_ran sets
  have sparing4 : Sparing lock w w4 :=
    (sparing2.trans (.of_emits plans planRan)).trans (.of_trace trace4)
  have commits4 : w4.own.commits = (some plan.fromSha, some plan.toSha) := by
    rw [own4]
    rfl
  have same : plan.upToDate = true → plan.fromSha = plan.toSha := fun upToDate =>
    of_decide_eq_true ((computePlan_planned planned).upToDate.symm.trans upToDate)
  -- up to date, the run never moves its checkout
  have still (upToDate : plan.upToDate = true) {α : Type} {p : Ops α} (keeps : Keeps Deploy.commits p)
      {r : Except Failure α} (rest : p.run env w4 = (r, final)) : Spares lock w final := by
    have kept := keeps env w4
    rw [rest, commits4, same upToDate] at kept
    exact .inr (.inr ⟨_, kept⟩)
  split at ran
  · obtain ⟨-, rfl⟩ := Prod.mk.inj ran
    exact .inl (.inl sparing4)
  rename_i branch
  split at ran
  · obtain ⟨-, rfl⟩ := Prod.mk.inj ran
    exact .inl (.inl sparing4)
  rename_i dirty
  split at ran
  · rename_i idle
    refine .inl (still idle.1 (p := _) ?_ ran)
    split
    · refine keeps_bind ?_ fun _ => keeps_bind (keeps_commits fun _ => rfl) fun _ => keeps_pure _
      exact commits_of_span (keeps_span (frame_installUnits (allows_any _) (allows_any _) svc).outcome)
    · exact keeps_bind (keeps_commits fun _ => rfl) fun _ => keeps_bind (keeps_update fun _ => rfl) fun _ => keeps_pure _
  · by_cases upToDate : plan.upToDate = true
    · exact .inl (still upToDate (commits_release plan) ran)
    · obtain sparing | moved | ⟨some', w5, reached⟩ :=
        @release_spares env inv svc opts plan w4 final lock _ (eq_false_of_ne_true upToDate) ran
      · exact .inl (.inl (sparing4.trans sparing))
      · exact .inl (.inr (.inl moved))
      · refine .inr ⟨plan, w5, ?_, some'⟩
        refine run_bind_ok.mpr ⟨_, _, taken, run_bind_ok.mpr ⟨_, _, holds, ?_⟩⟩
        refine run_bind_ok.mpr ⟨_, _, planRan, run_bind_ok.mpr ⟨_, _, sets, ?_⟩⟩
        rw [if_neg (not_or.mpr ⟨branch, dirty⟩)]
        exact run_bind_ok.mpr ⟨_, _, reached, rfl⟩

theorem emits_rejecting {calls : Machine.Call → Bool} {α : Type} {call : Call}
    {read : Machine.Answer call → Except String α} (allowed : calls call = true) :
    Emits calls (Exec.orReject call read) := by
  unfold Exec.orReject
  refine emits_bind (emits_ask allowed) fun r => ?_
  split
  · exact emits_pure _
  · exact emits_throw _

theorem emits_acquire_harmless : Emits (harmless (Locks.lockFile inv svc.id)) (Locks.acquire inv svc.id pid) := by
  unfold Locks.acquire
  refine emits_bind emits_now fun t => emits_bind (emits_rejecting rfl) fun created => ?_
  split
  · exact emits_pure _
  · refine emits_bind (emits_attempt ?_ fun _ => emits_pure _) fun holder => emits_bind ?_ fun alive => ?_
    · exact emits_bind (emits_rejecting rfl) fun _ => emits_pure _
    · split
      · exact emits_ask rfl
      · exact emits_pure _
    · split
      · exact emits_throw _
      · refine emits_bind (emits_rejecting (decide_eq_true rfl)) fun _ => emits_bind (emits_rejecting rfl) fun again => ?_
        split
        · exact emits_pure _
        · exact emits_throw _

theorem emits_finish_harmless : Emits (harmless (Locks.lockFile inv svc.id)) (finish inv svc) := by
  unfold finish
  refine emits_bind emits_now fun t => emits_bind (emits_update _) fun _ => emits_bind emits_own fun s => ?_
  refine emits_bind (emits_whenever fun _ => emits_attempt (emits_liftM (emits_rejecting rfl)) fun _ => emits_pure _)
    fun _ => emits_bind (emits_whenever fun _ => emits_liftM (emits_ask rfl)) fun _ => ?_
  exact emits_liftM (emits_rejecting (decide_eq_true rfl))

/-- What follows takes nothing out and leaves the record of the move as it is. -/
theorem Spares.onward {w1 w2 : World Machine Deploy} (before : Sparing lock w w1) (spares : Spares lock w1 w2)
    (after : Sparing lock w2 final) (same : final.own.span = w2.own.span) : Spares lock w final := by
  obtain sparing | moved | ⟨sha, commits⟩ := spares
  · exact .inl ((before.trans sparing).trans after)
  · exact .inr (.inl ((congrArg Prod.fst same).trans moved))
  · exact .inr (.inr ⟨sha, (congrArg Prod.snd same).trans commits⟩)

theorem applyInPlace_spares {result : Except Failure Applied}
    (ran : (applyInPlace inv pid svc .deploy opts).run env w = (result, final)) :
    Spares (Locks.lockFile inv svc.id) w final ∨
      ∃ plan w', (untilRemoval inv pid svc opts).run env w = (.ok plan, w') ∧ obstacles plan ≠ [] := by
  unfold applyInPlace at ran
  split at ran
  · obtain ⟨-, rfl⟩ := Prod.mk.inj ran
    exact .inl (.inl (.of_trace rfl))
  split at ran
  · obtain ⟨-, rfl⟩ := Prod.mk.inj ran
    exact .inl (.inl (.of_trace rfl))
  obtain ⟨e, read, rfl⟩ | ⟨current, w0, read, ran⟩ := run_bind ran
  · exact nomatch (run_liftM read).choose_spec.1
  have sparing0 : Sparing (Locks.lockFile inv svc.id) w w0 :=
    .of_emits (emits_liftM (@emits_call _ _ _ (.readlink _) _ harmless_look)) read
  split at ran
  · obtain ⟨-, rfl⟩ := Prod.mk.inj ran
    exact .inl (.inl sparing0)
  have acquires := @emits_acquire_harmless inv svc pid
  obtain ⟨e, taken, rfl⟩ | ⟨_, w1, taken, ran⟩ := run_bind ran
  · exact .inl (.inl (sparing0.trans (.of_emits (emits_liftM acquires) taken)))
  have starts : Emits (harmless (Locks.lockFile inv svc.id)) (startRecord svc .deploy none) :=
    emits_startRecord harmless_look svc .deploy none
  obtain ⟨e, started, rfl⟩ | ⟨_, w2, started, ran⟩ := run_bind ran
  · exact nomatch (startRecord_ran started).1
  have sparing2 : Sparing (Locks.lockFile inv svc.id) w w2 :=
    (sparing0.trans (.of_emits (emits_liftM acquires) taken)).trans (.of_emits starts started)
  obtain ⟨r, w4, tried, last⟩ := run_ensure ran
  obtain ⟨r, w3, lockedRan, sparing4, span4⟩ : ∃ r w3, (applyLocked inv svc .deploy opts).run env w2 = (r, w3) ∧
      Sparing (Locks.lockFile inv svc.id) w3 w4 ∧ w4.own.span = w3.own.span := by
    obtain ⟨a, done, -⟩ | ⟨e, w3, failed, recorded⟩ := run_attempt tried
    · exact ⟨_, w4, done, .of_trace rfl, rfl⟩
    · have keeps : Keeps Deploy.span (recordFailure e : Ops Applied) :=
        keeps_bind (keeps_record fun _ => rfl) fun _ => keeps_throw _
      have kept := keeps env w3
      rw [recorded] at kept
      exact ⟨_, w3, failed, .of_trace (recordFailure_ran recorded).2.1, kept⟩
  obtain ⟨answer, finished⟩ : ∃ answer, (finish inv svc).run env w4 = (answer, final) :=
    last.elim (fun done => ⟨_, done.1⟩) fun ⟨_, failed, _⟩ => ⟨_, failed⟩
  have span5 := keeps_span (frame_finish (allows_any _) (allows_any _) (allows_any _) inv svc).outcome env w4
  rw [finished] at span5
  obtain spares | ⟨plan, w', reached, some'⟩ := applyLocked_spares lockedRan
  · exact .inl (spares.onward sparing2 (sparing4.trans (.of_emits emits_finish_harmless finished)) (span5.trans span4))
  · refine .inr ⟨plan, w', ?_, some'⟩
    refine run_bind_ok.mpr ⟨_, _, read, run_bind_ok.mpr ⟨_, _, taken, ?_⟩⟩
    exact run_bind_ok.mpr ⟨_, _, started, reached⟩

/-- A deploy to another commit that fails before its checkout moves leaves the index and the untracked
files as it found them, if what it planned has nothing in the way of the merge. -/
theorem failed_deploy_keeps {e : Failure}
    (ran : (applyInPlace inv pid svc .deploy opts).run env w = (.error e, final))
    (unmoved : final.own.record.checkoutMoved = false)
    (other : ∀ sha, final.own.commits ≠ (some sha, some sha))
    (clear : ∀ plan w', (untilRemoval inv pid svc opts).run env w = (.ok plan, w') → obstacles plan = []) :
    ∃ more, final.trace = w.trace ++ more ∧ Kept inv svc more := by
  obtain (⟨more, trace, spared⟩ | moved | ⟨sha, same⟩) | ⟨plan, w', reached, some'⟩ := applyInPlace_spares ran
  · exact ⟨more, trace, kept_of_spared spared⟩
  · exact nomatch moved.symm.trans unmoved
  · exact absurd same (other sha)
  · exact absurd (clear plan w' reached) some'

end

/-! ### A checkout that went its own way -/

/-- A service whose release restarts nothing. -/
def docs : Service where
  id := "docs"
  repo := "/srv/docs"
  owner := "docs"
  runAs := "docs"
  unit_service := Service.no_unit
  socket_socket := Service.no_socket
  auxiliary_apart := Service.no_auxiliary
  workers_service := Service.no_unit
  workers_apart := Service.no_worker
  auxiliary_no_worker := Service.no_auxiliary_worker
  sources_apart := Service.no_source
  sources_named := Service.no_source_named
  laid_out := Service.no_layout

def docsHost : Inventory where
  stateDir := "/var/lib/openvibe-host"
  backupDir := "/var/backups/openvibe"
  backupStagingDir := "/var/backups/openvibe/staging"
  services := [docs]
  backup_absolute := backups_absolute

/-- The checkout has a commit of its own, so it is not fast-forwarded to the release, and the untracked
files `there`, which the release brings with the same bytes. -/
def diverged (there : List String) (call : Call) : call.Answer :=
  match call with
  | .git _ _ _ .head => { stdout := "aaaaaaaaaaaaaaaaaaaaaaaaaaaaaaaaaaaaaaaa" }
  | .git _ _ _ .branch => { stdout := "main" }
  | .git _ _ _ (.revParse _) => { stdout := "bbbbbbbbbbbbbbbbbbbbbbbbbbbbbbbbbbbbbbbb" }
  | .git _ _ _ (.changedFiles ..) | .git _ _ _ (.addedFiles ..) => { stdout := "notes.txt" }
  | .git _ _ _ (.show "bbbbbbbbbbbbbbbbbbbbbbbbbbbbbbbbbbbbbbbb" "notes.txt") => { stdout := "notes" }
  | .git _ _ _ (.show _ _) => { code := 128 }
  | .git _ _ _ (.ffMerge _) => { code := 128, stderr := "fatal: Not possible to fast-forward, aborting." }
  | .stat path => if path ∈ there then some { size := 5 } else none
  | .readFile path _ => if path ∈ there then .ok (some "notes") else .ok none
  | other => steady other

/-- Such a run, and how it ends. -/
def divergedRun (there : List String) : Except Failure Applied × World Machine Deploy :=
  (applyInPlace docsHost 7 docs .deploy {}).run (hostOf (diverged there)) fresh

theorem diverged_fails {there : List String} (failed : endCode (divergedRun there).1 = none) :
    ∃ e, divergedRun there = (.error e, (divergedRun there).2) := by
  cases ran : divergedRun there with
  | mk result final =>
    rw [ran] at failed
    cases result with
    | error e => exact ⟨e, rfl⟩
    | ok applied => exact nomatch failed

theorem diverged_commits {there : List String} (commits : (divergedRun there).2.own.commits =
      (some "aaaaaaaaaaaaaaaaaaaaaaaaaaaaaaaaaaaaaaaa", some "bbbbbbbbbbbbbbbbbbbbbbbbbbbbbbbbbbbbbbbb")) :
    ∀ sha, (divergedRun there).2.own.commits ≠ (some sha, some sha) := by
  intro sha same
  obtain ⟨first, second⟩ := Prod.mk.inj (commits.symm.trans same)
  exact absurd (first.trans second.symm) (by decide)

theorem diverged_unobstructed : (match (untilRemoval docsHost 7 docs {}).run (hostOf (diverged [])) fresh with
    | (.ok plan, _) => obstacles plan
    | _ => []) = [] := by
  decide +kernel

/-- Where the release brings a file that is not there yet, the run takes nothing out. -/
theorem diverged_keeps : ∃ e more, divergedRun [] = (.error e, (divergedRun []).2) ∧
    (divergedRun []).2.trace = fresh.trace ++ more ∧ Kept docsHost docs more := by
  obtain ⟨e, ran⟩ := @diverged_fails [] (by decide +kernel)
  have planned := diverged_unobstructed
  obtain ⟨more, trace, kept⟩ := failed_deploy_keeps ran (by decide +kernel) (diverged_commits (by decide +kernel))
    fun plan w' reached => by simpa only [reached] using planned
  exact ⟨e, more, ran, trace, kept⟩

/-- An untracked file with the bytes the release brings is removed for a merge that is then refused. -/
theorem diverged_removes : ¬ ∀ env inv pid svc opts (w final : World Machine Deploy) e,
    (applyInPlace inv pid svc .deploy opts).run env w = (.error e, final) →
    final.own.record.checkoutMoved = false → (∀ sha, final.own.commits ≠ (some sha, some sha)) →
    ∃ more, final.trace = w.trace ++ more ∧ Kept inv svc more := by
  intro claim
  obtain ⟨e, ran⟩ := @diverged_fails ["/srv/docs/notes.txt"] (by decide +kernel)
  obtain ⟨more, trace, kept⟩ := claim _ docsHost 7 docs {} fresh _ e ran (by decide +kernel)
    (diverged_commits (by decide +kernel))
  have removed : (divergedRun ["/srv/docs/notes.txt"]).2.trace.any (removes "/srv/docs/notes.txt") = true := by
    decide +kernel
  rw [trace] at removed
  exact not_kept_of_removes (by decide) removed kept

end ReleaseOps

end OpenVibeHost
