import OpenVibeHost.IdleGuard

/-! What systemctl reports of the units of a service, and the units that a count of sessions
takes for stopped. -/
namespace OpenVibeHost.Probes
open Effects Program Releases

/-- The reply to a query of a unit's state. -/
def shownIn (event : Event Machine) : Option RunResult :=
  match event with
  | ⟨.systemctl .show _, r, _⟩ => some r
  | _ => none

/-- A reply that is read as a unit that runs. -/
def readUp (r : RunResult) : Bool :=
  decide (Systemd.orUnknown (Systemd.property r.stdout "ActiveState") ∈
    ["active", "activating", "reloading", "deactivating"])

/-- What decides whether a state is one of several. -/
local instance lawfulStates : LawfulBEq (Option String) := inferInstance

/-- A reply that positively reports a stopped unit. -/
def reportsStopped (r : RunResult) : Bool :=
  decide (r.code = 0 ∧ Systemd.property r.stdout "ActiveState" ∈ [some "inactive", some "failed"])

/-- An event is the answer to a query whose reply is as `holds` says. -/
def Shows (holds : RunResult → Bool) (event : Event Machine) : Prop :=
  ∃ r, shownIn event = some r ∧ holds r = true

theorem not_up_of_stopped {r : RunResult} (stopped : reportsStopped r = true) : readUp r = false := by
  obtain ⟨-, state⟩ := of_decide_eq_true stopped
  unfold readUp
  obtain state | state : Systemd.property r.stdout "ActiveState" = some "inactive" ∨
      Systemd.property r.stdout "ActiveState" = some "failed" := by simpa using state
  all_goals
    rw [state]
    decide

section
variable {env : Environment Machine} {svc : Service} {base : List (Event Machine)}

/-- The queries of some units, of which none is read as running. -/
def AllDown (units : List String) (events : List (Event Machine)) : Prop :=
  events.map (·.call) = units.map (fun unit => Call.systemctl .show (some unit)) ∧
    ∀ event ∈ events, Shows (fun r => !readUp r) event

/-- The queries of a service's units, up to the first that is read as running. -/
theorem meets_running : Meets env (fun w : World Machine Unit => w.trace = base) (running svc)
    (fun runs w => ∃ shown, w.trace = base ++ shown ∧ (∀ event ∈ shown, (shownIn event).isSome) ∧
      (runs = true → ∃ event ∈ shown, Shows readUp event) ∧ (runs = false → AllDown svc.units shown))
    (fun _ _ => False) := by
  have search (units : List String) (base : List (Event Machine)) :
      Meets env (fun w : World Machine Unit => w.trace = base)
        (firstOf units fun unit => do
          let st ← Systemd.showUnit unit
          return if st.active ∈ ["active", "activating", "reloading", "deactivating"] then some () else none)
        (fun found w => ∃ shown, w.trace = base ++ shown ∧ (∀ event ∈ shown, (shownIn event).isSome) ∧
          (found.isSome = true → ∃ event ∈ shown, Shows readUp event) ∧
            (found.isSome = false → AllDown units shown)) (fun _ _ => False) := by
    induction units generalizing base with
    | nil =>
      refine meets_ret fun w same => ⟨[], by simpa using same, by simp, by simp, fun _ => ⟨rfl, by simp⟩⟩
    | cons unit rest ih =>
      unfold firstOf Systemd.showUnit
      rw [systemctl_safe rfl rfl]
      refine meets_andThen (M := fun found w => ∃ event, w.trace = base ++ [event] ∧
        event.call = .systemctl .show (some unit) ∧ Shows (fun r => readUp r == found.isSome) event) ?_ fun found => ?_
      · refine meets_bind (M := fun st w => ∃ event, w.trace = base ++ [event] ∧
          event.call = .systemctl .show (some unit) ∧
            ∃ r, shownIn event = some r ∧ st.active = Systemd.orUnknown (Systemd.property r.stdout "ActiveState")) ?_ fun st => ?_
        · refine meets_bind (M := fun r w => ∃ t, w.trace = base ++ [⟨.systemctl .show (some unit), r, t⟩])
            (fun w same => ⟨_, congrArg (· ++ _) same⟩) fun r => meets_pure ?_
          rintro w ⟨t, trace⟩
          exact ⟨_, trace, rfl, r, rfl, rfl⟩
        · refine meets_pure ?_
          rintro w ⟨event, trace, asked, r, reply, active⟩
          refine ⟨event, trace, asked, r, reply, ?_⟩
          rw [active]
          unfold readUp
          split <;> rename_i up <;> simp [up]
      · cases found with
        | some found =>
          refine meets_ret ?_
          rintro w ⟨event, trace, -, r, reply, up⟩
          exact ⟨[event], trace, by simp [reply], fun _ => ⟨event, by simp, r, reply, by simpa using up⟩, by simp⟩
        | none =>
          rintro w ⟨event, trace, asked, r, reply, down⟩
          refine (ih w.trace w rfl).mono ?_ fun _ _ => id
          rintro found w' ⟨shown, trace', replied, up, rest'⟩
          refine ⟨event :: shown, by simp [trace', trace], ?_, ?_, fun none' => ⟨?_, ?_⟩⟩
          · simpa [reply] using replied
          · intro some'
            obtain ⟨other, member, up⟩ := up some'
            exact ⟨other, List.mem_cons_of_mem _ member, up⟩
          · exact congrArg₂ List.cons asked (rest' none').1
          · intro other member
            cases List.mem_cons.mp member with
            | inl same => exact same ▸ ⟨r, reply, by simpa using down⟩
            | inr member => exact (rest' none').2 other member
  exact meets_bind (search svc.units base) fun found => meets_pure fun w now => now

/-- A count of a service with protected sessions, with the queries it rests on. -/
theorem meets_shown {p : Protected} (declared : svc.sessions = some p) :
    Meets env (fun w : World Machine Unit => w.trace = base) (countProtected svc)
      (fun sessions w => ∃ shown after, w.trace = base ++ (shown ++ after) ∧
        (∀ event ∈ shown, (shownIn event).isSome) ∧
          (sessions.notRunning = false → ∃ event ∈ shown, Shows readUp event) ∧
            (sessions.notRunning = true → after = [] ∧ AllDown svc.units shown)) (fun _ _ => False) := by
  unfold countProtected
  rw [declared]
  refine meets_bind meets_running fun runs => ?_
  cases runs with
  | false =>
    refine meets_pure ?_
    rintro w ⟨shown, trace, replied, -, down⟩
    exact ⟨shown, [], by simpa using trace, replied, nofun, fun _ => ⟨rfl, down rfl⟩⟩
  | true =>
    simp only [not_true_eq_false, if_false]
    rintro w ⟨shown, trace, replied, up, -⟩
    have ends (count : Counted) (label : String) :
        Meets env (fun v => w.trace <+: v.trace) (pure { count, label } : Exec Sessions)
          (fun sessions v => ∃ shown after, v.trace = base ++ (shown ++ after) ∧
            (∀ event ∈ shown, (shownIn event).isSome) ∧
              (sessions.notRunning = false → ∃ event ∈ shown, Shows readUp event) ∧
                (sessions.notRunning = true → after = [] ∧ AllDown svc.units shown)) (fun _ _ => False) := by
      refine meets_pure ?_
      rintro v ⟨after, onward⟩
      refine ⟨shown, after, ?_, replied, fun _ => up trivial, nofun⟩
      rw [← onward, trace, List.append_assoc]
    cases p.probe with
    | one probe =>
      refine meets_bind (M := fun _ v => w.trace <+: v.trace) ?_ (fun count => ends count _) w rfl
      rintro _ rfl
      refine (meets_countOne probe w rfl).mono ?_ fun _ _ => id
      rintro count v' ⟨event, trace', -⟩
      exact trace' ▸ List.prefix_append _ _
    | sum probes =>
      refine meets_bind (M := fun _ v => w.trace <+: v.trace) ?_ (fun count => ends count _) w rfl
      rintro _ rfl
      refine (meets_countSum 0 0 probes w rfl).mono ?_ fun _ _ => id
      rintro count v' ⟨events, trace', -⟩
      exact trace' ▸ List.prefix_append _ _

/-- A count that finds no unit running has no more than replies that say so, exactly where each
reply says so, or one reports a unit that runs. -/
theorem told_iff {units : List String} {shown : List (Event Machine)} {notRunning : Bool}
    (up : notRunning = false → ∃ event ∈ shown, Shows readUp event)
    (down : notRunning = true → AllDown units shown) :
    (notRunning = true → ∀ event ∈ shown, Shows reportsStopped event) ↔
      (∃ event ∈ shown, Shows readUp event) ∨ ∀ event ∈ shown, Shows reportsStopped event := by
  cases notRunning with
  | false => exact ⟨fun _ => .inl (up rfl), fun _ => nofun⟩
  | true =>
    refine ⟨fun told => .inr (told rfl), fun either _ => ?_⟩
    obtain ⟨event, member, r, reply, runs⟩ | stopped := either
    · obtain ⟨r', reply', quiet⟩ := (down rfl).2 event member
      obtain rfl := Option.some.inj (reply.symm.trans reply')
      simp [runs] at quiet
    · exact stopped

end

/-- The queries of all units of a service, each of which reports a stopped unit. -/
def ReportedStopped (svc : Service) (shown : List (Event Machine)) : Prop :=
  shown.map (·.call) = svc.units.map (fun unit => Call.systemctl .show (some unit)) ∧
    ∀ event ∈ shown, Shows reportsStopped event

/-- A service is taken for stopped on reports that say so exactly where every query that a count
makes is answered by one, or one reports a unit that runs; and where each reply of a guard's run
is one or the other, the guard goes by a known zero of a running service or by such reports. -/
theorem stopped_where_reported (svc : Service) (p : Protected) (declared : svc.sessions = some p) :
    (∀ (env : Environment Machine) (w : World Machine Unit), ∃ sessions final shown after,
      Program.run (countProtected svc) env w = (.ok sessions, final) ∧ final.trace = w.trace ++ (shown ++ after) ∧
        (∀ event ∈ shown, (shownIn event).isSome) ∧
          ((sessions.notRunning = true → after = [] ∧ ReportedStopped svc shown) ↔
            (∃ event ∈ shown, Shows readUp event) ∨ ∀ event ∈ shown, Shows reportsStopped event)) ∧
    ∀ (env : Environment Machine) (inv : Inventory) (opts : Options) (checkedWhen : String)
      (w final : World Machine Deploy), opts.force = false →
      (opts.waitIdle = true ∨ svc.drain.policy ≠ .report) → ¬ Hasty svc opts →
      (ReleaseOps.guardSessions inv svc opts checkedWhen).run env w = (.ok (), final) →
      (∀ event ∈ final.trace, ∀ r, shownIn event = some r → readUp r = true ∨ reportsStopped r = true) →
        ∃ (v v' : World Machine Unit) (sessions : Sessions) (after : List (Event Machine)),
          Program.run (countProtected svc) env v = (.ok sessions, v') ∧ w.trace <+: v.trace ∧
            final.trace = v'.trace ++ after ∧ (∀ event ∈ after, noCount event.call = true) ∧
              ((sessions.notRunning = false ∧ sessions.count = .ok 0) ∨
                (sessions.notRunning = true ∧ ∃ shown, v'.trace = v.trace ++ shown ∧ ReportedStopped svc shown)) := by
  have counted (env : Environment Machine) (w : World Machine Unit) : ∃ sessions final shown after,
      Program.run (countProtected svc) env w = (.ok sessions, final) ∧ final.trace = w.trace ++ (shown ++ after) ∧
        (∀ event ∈ shown, (shownIn event).isSome) ∧
          (sessions.notRunning = false → ∃ event ∈ shown, Shows readUp event) ∧
            (sessions.notRunning = true → after = [] ∧ AllDown svc.units shown) := by
    have ends := @meets_shown env svc w.trace p declared w rfl
    cases ran : Program.run (countProtected svc) env w with
    | mk result final =>
      rw [ran] at ends
      cases result with
      | error e => exact ends.elim
      | ok sessions =>
        obtain ⟨shown, after, trace, rest⟩ := ends
        exact ⟨sessions, final, shown, after, rfl, trace, rest⟩
  constructor
  · intro env w
    obtain ⟨sessions, final, shown, after, ran, trace, replied, up, down⟩ := counted env w
    refine ⟨sessions, final, shown, after, ran, trace, replied, ?_⟩
    rw [← told_iff up fun none' => (down none').2]
    exact ⟨fun told none' => (told none').2.2, fun told none' => ⟨(down none').1, (down none').2.1, told none'⟩⟩
  · intro env inv opts checkedWhen w final unforced holds careful ran decisive
    have last (v v' : World Machine Unit) (sessions : Sessions) (after : List (Event Machine))
        (ran : Program.run (countProtected svc) env v = (.ok sessions, v')) (idle : sessions.idle = true)
        (onward : w.trace <+: v.trace) (trace : final.trace = v'.trace ++ after)
        (quiet : ∀ event ∈ after, noCount event.call = true) :
        ∃ (v v' : World Machine Unit) (sessions : Sessions) (after : List (Event Machine)),
          Program.run (countProtected svc) env v = (.ok sessions, v') ∧ w.trace <+: v.trace ∧
            final.trace = v'.trace ++ after ∧ (∀ event ∈ after, noCount event.call = true) ∧
              ((sessions.notRunning = false ∧ sessions.count = .ok 0) ∨
                (sessions.notRunning = true ∧ ∃ shown, v'.trace = v.trace ++ shown ∧ ReportedStopped svc shown)) := by
      refine ⟨v, v', sessions, after, ran, onward, trace, quiet, ?_⟩
      obtain ⟨sessions', final', shown, rest, ran', trace', -, -, down⟩ := counted env v
      obtain ⟨same, rfl⟩ := Prod.mk.inj (ran'.symm.trans ran)
      obtain rfl := Except.ok.inj same
      cases runs : sessions'.notRunning with
      | false =>
        refine .inl ⟨rfl, ?_⟩
        cases count : sessions'.count with
        | error reason => simp [Sessions.idle, runs, count] at idle
        | ok n => simpa [Sessions.idle, runs, count] using idle
      | true =>
        obtain ⟨rfl, asked, all⟩ := down runs
        refine .inr ⟨rfl, shown, by simpa using trace', asked, fun event member => ?_⟩
        obtain ⟨r, reply, quiet⟩ := all event member
        obtain runs' | stopped := decisive event (by simp [trace, trace', member]) r reply
        · simp [runs'] at quiet
        · exact ⟨r, reply, stopped⟩
    obtain ⟨v, v', sessions, same, ran, idle, trace⟩ | ⟨n, some', -, idled⟩ :=
      guarded_unless_hasty unforced holds careful ran
    · exact last v v' sessions [] ran idle (same ▸ List.prefix_rfl) (by simp [trace]) (by simp)
    · obtain ⟨trace, reached⟩ : ∃ trace, final.trace = trace := ⟨_, rfl⟩
      rw [reached] at idled
      cases idled with
      | start => exact absurd some' (lt_irrefl _)
      | again earlier ran _ idle uncounted => exact last _ _ _ _ ran idle earlier.onward reached uncounted

/-- systemctl cannot be asked. -/
def mute : Environment Machine where
  answer _ call := match call with
    | .systemctl .show _ => { code := 1, stderr := "Failed to connect to bus: Connection timed out" }
    | other => steady other
  takes _ _ := 0

/-- So it is of a chat, whose unit nothing is heard of. -/
theorem chat_where_reported : ∃ sessions final shown after,
    Program.run (countProtected chat) mute ⟨(), 0, []⟩ = (.ok sessions, final) ∧ final.trace = [] ++ (shown ++ after) ∧
      (∀ event ∈ shown, (shownIn event).isSome) ∧
        ((sessions.notRunning = true → after = [] ∧ ReportedStopped chat shown) ↔
          (∃ event ∈ shown, Shows readUp event) ∨ ∀ event ∈ shown, Shows reportsStopped event) :=
  (stopped_where_reported chat _ rfl).1 mute ⟨(), 0, []⟩

theorem mute_counted : (match Program.run (countProtected chat) mute ⟨(), 0, []⟩ with
    | (.ok sessions, final) => sessions.notRunning && sessions.idle &&
        final.trace.all fun event => (shownIn event).any fun r => !reportsStopped r
    | (.error _, _) => false) = true := by decide +kernel

/-- The unit is taken for stopped, on a query that failed. -/
theorem unanswered_read_as_stopped : ¬ ∀ (env : Environment Machine) (svc : Service) (p : Protected)
    (w : World Machine Unit), svc.units ≠ [] → svc.sessions = some p → ∃ sessions final shown after,
      Program.run (countProtected svc) env w = (.ok sessions, final) ∧ final.trace = w.trace ++ (shown ++ after) ∧
        (∀ event ∈ shown, (shownIn event).isSome) ∧
          (sessions.notRunning = true → after = [] ∧ ReportedStopped svc shown) := by
  intro claim
  obtain ⟨sessions, final, shown, after, ran, trace, -, told⟩ := claim mute chat _ ⟨(), 0, []⟩ (by decide) rfl
  have counted := mute_counted
  rw [ran] at counted
  simp only [Bool.and_eq_true] at counted
  obtain ⟨⟨down, -⟩, unreported⟩ := counted
  obtain ⟨rfl, asked, stopped⟩ := told down
  cases shown with
  | nil => exact nomatch asked
  | cons event rest =>
    obtain ⟨r, reply, reports⟩ := stopped event List.mem_cons_self
    have unstated := List.all_eq_true.mp unreported event (by simp [trace])
    simp [reply, reports] at unstated

end OpenVibeHost.Probes
