import OpenVibeHost.ServiceLock

/-! What the per-service lock guarantees. A takeover removes a file by its path
after deciding about contents it read earlier; the section is exclusive and no
live holder loses its file exactly in the runs where every takeover still finds
the file it read. Two processes that recover one stale file at once are a run
where the second does not. -/
namespace OpenVibeHost.ServiceLock
open Transition

/-- What one action does, whatever state it is taken in. -/
inductive Outcome (state : State) : Action → State → Prop where
  | stays (action : Action) : Outcome state action state
  | exits (pid : Nat) (outside : ∀ serial, state.phase pid ≠ .holding serial) :
      Outcome state (.exit pid)
        { state.goto pid .idle with alive := Function.update state.alive pid false }
  | gives_up (pid : Nat) (outside : ∀ serial, state.phase pid ≠ .holding serial) :
      Outcome state (.call pid) (state.goto pid .idle)
  | found (pid : Nat) (outside : ∀ serial, state.phase pid ≠ .holding serial) :
      Outcome state (.call pid) (state.goto pid .reading)
  | asks (pid : Nat) (seen : LockFile) (holder : Nat)
      (outside : ∀ serial, state.phase pid ≠ .holding serial)
      (there : state.file = some seen) (names : seen.pid = some holder) :
      Outcome state (.call pid) (state.goto pid (.checking seen holder))
  | judges_read (pid : Nat) (outside : ∀ serial, state.phase pid ≠ .holding serial)
      (dead : ∀ seen, state.file = some seen → NamesNoLive state seen) :
      Outcome state (.call pid) (state.goto pid (.removing state.file))
  | judges_dead (pid : Nat) (seen : LockFile) (holder : Nat)
      (asked : state.phase pid = .checking seen holder) (dead : state.alive holder = false) :
      Outcome state (.call pid) (state.goto pid (.removing (some seen)))
  | creates (pid : Nat) (outside : ∀ serial, state.phase pid ≠ .holding serial)
      (live : state.alive pid = true) (free : state.file = none) :
      Outcome state (.call pid) { state with
        file := some ⟨some pid, state.made + 1⟩
        made := state.made + 1
        phase := Function.update state.phase pid (.holding (state.made + 1)) }
  | takes_over (pid : Nat) (seen : Option LockFile) (judged : state.phase pid = .removing seen)
      (live : state.alive pid = true) :
      Outcome state (.call pid) { state.goto pid .retrying with file := none }
  | releases (pid : Nat) (serial : Nat) (held : state.phase pid = .holding serial)
      (live : state.alive pid = true) :
      Outcome state (.call pid) { state.goto pid .idle with file := none }

private theorem create_outcome (state : State) (pid : Nat) (taken : Phase)
    (outside : ∀ serial, state.phase pid ≠ .holding serial) (live : state.alive pid = true)
    (waits : taken = .idle ∨ taken = .reading) :
    Outcome state (.call pid) (createExclusive state pid taken) := by
  unfold createExclusive
  cases free : state.file with
  | none => exact .creates pid outside live free
  | some there =>
    rcases waits with rfl | rfl
    · exact .gives_up pid outside
    · exact .found pid outside

theorem step_outcome (state : State) (action : Action) :
    Outcome state action (step state action) := by
  cases action with
  | exit pid =>
    simp only [step]
    split
    · exact .stays _
    · rename_i outside
      exact .exits pid outside
  | call pid =>
    by_cases live : state.alive pid = true
    · simp only [step, live, if_true]
      cases phase : state.phase pid with
      | idle => exact create_outcome state pid _ (by simp [phase]) live (.inr rfl)
      | reading =>
        cases there : state.file with
        | none =>
          simpa [there] using @Outcome.judges_read state pid (by simp [phase])
            (by simp [there])
        | some seen =>
          cases names : seen.pid with
          | none =>
            simpa [there, names] using @Outcome.judges_read state pid (by simp [phase])
              (by simp [there, NamesNoLive, names])
          | some holder =>
            simpa [names] using Outcome.asks pid seen holder (by simp [phase]) there names
      | checking seen holder =>
        by_cases holds : state.alive holder = true
        · simpa [holds] using @Outcome.gives_up state pid (by simp [phase])
        · simpa [holds] using Outcome.judges_dead pid seen holder phase (by simpa using holds)
      | removing seen => exact .takes_over pid seen phase live
      | retrying => exact create_outcome state pid _ (by simp [phase]) live (.inl rfl)
      | holding serial => exact .releases pid serial phase live
    · simpa [step, live] using Outcome.stays _

/-- What holds of a lock path in every run, whatever the interleaving. -/
structure Tracked (state : State) : Prop where
  /-- A file a process made stays until that process leaves the section. -/
  made_by : ∀ file, state.file = some file → file.serial = 0 ∨
    ∃ pid, state.phase pid = .holding file.serial ∧ file.pid = some pid
  live : ∀ pid serial, state.phase pid = .holding serial → state.alive pid = true
  asked : ∀ pid seen holder, state.phase pid = .checking seen holder → seen.pid = some holder
  judged : ∀ pid seen, state.phase pid = .removing (some seen) → NamesNoLive state seen
  /-- While the first file is still there, whoever read a file read that one. -/
  first_read : ∀ pid file, state.file = some file → file.serial = 0 →
    (∀ seen holder, state.phase pid = .checking seen holder → seen = file) ∧
    (∀ seen, state.phase pid = .removing seen → seen = some file)

theorem tracked_initial {state : State} (initial : Initial state) : Tracked state := by
  obtain ⟨_, idle, first⟩ := initial
  refine ⟨fun file there => .inl (first file there), ?_, ?_, ?_, ?_⟩ <;> simp [idle]

theorem tracked_step {state next : State} {action : Action} (tracked : Tracked state)
    (outcome : Outcome state action next) : Tracked next := by
  obtain ⟨made_by, live, asked, judged, first_read⟩ := tracked
  cases outcome <;> constructor <;> simp only [State.goto, NamesNoLive] at * <;>
    grind [Function.update_apply]

/-- A holder's own file is at the path. Only a takeover that removes a file it
did not read can break this. -/
def HoldersOwnIt (state : State) : Prop :=
  ∀ pid serial, state.phase pid = .holding serial → state.file = some ⟨some pid, serial⟩

theorem holders_exclusive {state : State} (own : HoldersOwnIt state) : Exclusive state := by
  intro first second m n holds holds'
  have same := (own first m holds).symm.trans (own second n holds')
  simp only [Option.some.injEq, LockFile.mk.injEq] at same
  exact same.1

/-- A takeover of the file that was read takes no holder's file: the pid in it
was dead when it was asked about, and holders live. -/
theorem takeover_finds_no_holder {state : State} {pid : Nat} {seen : Option LockFile}
    (tracked : Tracked state) (own : HoldersOwnIt state)
    (judged : state.phase pid = .removing seen)
    (unchanged : ∀ file, state.file = some file → seen = some file) (holder serial : Nat) :
    state.phase holder ≠ .holding serial := by
  intro holds
  have there := own holder serial holds
  rw [unchanged _ there] at judged
  have dead := tracked.judged pid _ judged holder rfl
  simp [tracked.live holder serial holds] at dead

theorem holders_step {state next : State} {action : Action} (tracked : Tracked state)
    (own : HoldersOwnIt state) (outcome : Outcome state action next)
    (unchanged : StillTheOneRead state action) : HoldersOwnIt next := by
  intro other serial holds
  cases outcome with
  | stays => exact own other serial holds
  | creates pid outside live free =>
    -- Nobody holds while the path is free, so the new holder is the only one.
    simp only [Function.update_apply] at holds
    split at holds
    · cases holds
      simp_all
    · exact absurd (own other serial holds) (by simp [free])
  | takes_over pid seen judged live =>
    have alone := takeover_finds_no_holder tracked own judged
      (by simpa [judged] using unchanged live)
    simp only [State.goto, Function.update_apply] at holds
    split at holds
    · cases holds
    · exact absurd holds (alone other serial)
  | releases pid held phase live =>
    simp only [State.goto, Function.update_apply] at holds
    split at holds
    · cases holds
    · rename_i differs
      exact absurd (holders_exclusive own other pid _ _ holds phase) differs
  | _ =>
    simp only [State.goto, Function.update_apply] at holds ⊢
    split at holds
    · cases holds
    · exact own other serial holds

/-- A takeover of the file that was read removes a dead process's file. -/
theorem unchanged_removes_dead {state : State} {action : Action} (tracked : Tracked state)
    (own : HoldersOwnIt state) (unchanged : StillTheOneRead state action) :
    RemovesOwnOrDead state action := by
  cases action with
  | exit pid => trivial
  | call pid =>
    intro live
    have unchanged := unchanged live
    cases phase : state.phase pid with
    | removing seen =>
      simp only [phase] at unchanged ⊢
      intro file there
      rw [unchanged file there] at phase
      exact tracked.judged pid file phase
    | holding serial =>
      intro file there
      rw [own pid serial phase] at there
      cases there
      exact .inl rfl
    | _ => trivial

/-- Conversely a takeover that removes a dead process's file removes the file
left before the run, and that is the one it read. -/
theorem removes_dead_unchanged {state : State} {action : Action} (tracked : Tracked state)
    (removes : RemovesOwnOrDead state action) : StillTheOneRead state action := by
  cases action with
  | exit pid => trivial
  | call pid =>
    intro live
    have removes := removes live
    cases phase : state.phase pid with
    | removing seen =>
      simp only [phase] at removes ⊢
      intro file there
      rcases tracked.made_by file there with first | ⟨maker, holds, names⟩
      · exact (tracked.first_read pid file there first).2 seen phase
      · have dead := removes file there maker names
        simp [tracked.live maker _ holds] at dead
    | _ => trivial

theorem tracked_always {state : State} (initial : Initial state) (schedule : List Action) :
    Always step Tracked state schedule :=
  always_of_preserved (fun current action tracked => tracked_step tracked (step_outcome current action))
    schedule (tracked_initial initial)

/-- The section is exclusive and every removal takes the process's own file or
a dead process's, exactly in the runs where each takeover still finds at the
path the file it read, or none. -/
theorem lock_safe_iff_takeovers_unchanged {state : State} (initial : Initial state)
    (schedule : List Action) :
    (Always step Exclusive state schedule ∧ Along step RemovesOwnOrDead state schedule) ↔
      Along step StillTheOneRead state schedule := by
  constructor
  · rintro ⟨_, removes⟩
    exact along_of_always (fun _ _ => removes_dead_unchanged) schedule
      (tracked_always initial schedule) removes
  · intro unchanged
    have kept : Always step (fun current => Tracked current ∧ HoldersOwnIt current) state schedule :=
      always_of_invariant
        (fun current action inv unchanged =>
          ⟨tracked_step inv.1 (step_outcome current action),
            holders_step inv.1 inv.2 (step_outcome current action) unchanged⟩)
        schedule ⟨tracked_initial initial, by simp [HoldersOwnIt, initial.2.1]⟩ unchanged
    exact ⟨always_mono (fun _ inv => holders_exclusive inv.2) schedule kept,
      along_of_always (fun _ _ inv unchanged => unchanged_removes_dead inv.1 inv.2 unchanged)
        schedule kept unchanged⟩

/-- A dead process 9 left the lock; 1 and 2 are two deploys that start now. -/
def staleStart : State where
  file := some ⟨some 9, 0⟩
  made := 0
  alive := fun pid => pid != 9
  phase := fun _ => .idle

/-- Both read the stale file and ask about its pid before either removes it. -/
def bothRecover : List Action :=
  [.call 1, .call 1, .call 1, .call 2, .call 2, .call 2, .call 1, .call 1, .call 2, .call 2]

theorem stale_start_initial : Initial staleStart :=
  ⟨rfl, fun _ => rfl, by rintro _ ⟨⟩; rfl⟩

/-- The second recovery removes the lock the first one has just made, and both
are in the section. -/
theorem two_recoveries_share_the_lock :
    Initial staleStart ∧ ¬ Always step Exclusive staleStart bothRecover ∧
      ¬ Along step RemovesOwnOrDead staleStart bothRecover := by
  refine ⟨stale_start_initial, fun always => ?_, fun along => ?_⟩
  · have shared := always_last bothRecover always 1 2 1 2 (by decide) (by decide)
    exact absurd shared (by decide)
  · have removed := along.2.2.2.2.2.2.2.2.1 (by decide) ⟨some 1, 1⟩ (by decide) 1 rfl
    exact absurd removed (by decide)

/-- A single recovery of the stale lock meets the condition. -/
theorem lock_safe_of_one_recovery :
    Always step Exclusive staleStart [.call 1, .call 1, .call 1, .call 1, .call 1, .call 1] ∧
      Along step RemovesOwnOrDead staleStart
        [.call 1, .call 1, .call 1, .call 1, .call 1, .call 1] := by
  refine (lock_safe_iff_takeovers_unchanged stale_start_initial _).mpr ?_
  refine ⟨?_, ?_, ?_, ?_, ?_, ?_, trivial⟩ <;>
    simp [StillTheOneRead, step, staleStart, createExclusive, State.goto]

end OpenVibeHost.ServiceLock
