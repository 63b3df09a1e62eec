import OpenVibeHost.SessionCounts

/-! What lets the session guard return: the probe it ends on, and how many idle ones in a row
there were before it. -/
namespace OpenVibeHost.Probes
open Effects Program Releases

/-- The guard went ahead right after an idle count: the first of all, or the last of at least
one, and of as many in a row as the drain asks for. -/
def Guarded (env : Environment Machine) (svc : Service) (base trace : List (Event Machine)) : Prop :=
  (∃ (w w' : World Machine Unit) (sessions : Sessions), w.trace = base ∧
    Program.run (countProtected svc) env w = (.ok sessions, w') ∧ sessions.idle = true ∧ trace = w'.trace) ∨
  ∃ n, 0 < n ∧ svc.drain.enough n = true ∧ Idled env svc base n trace

/-- `opts.waitIdle || svc.drain.policy === 'wait'`. -/
def waits (svc : Service) (opts : Options) : Bool := opts.waitIdle || decide (svc.drain.policy = .wait)

/-- A count of the service can be other than zero: it has units, and a probe is asked. -/
def CanBeBusy (svc : Service) : Prop :=
  svc.units ≠ [] ∧ ∃ p, svc.sessions = some p ∧ probesOf p.probe ≠ []

/-- A wait for idle sessions that may end on a count that is not idle: it counts at least once,
and no idle count is enough for it. -/
def Hasty (svc : Service) (opts : Options) : Prop :=
  CanBeBusy svc ∧ waits svc opts = true ∧ 0 < svc.drain.waitMaxMs ∧ svc.drain.enough 0 = true

section
variable {env : Environment Machine} {svc : Service} {base : List (Event Machine)}

/-! ### Counts that cannot be but idle -/

theorem idle_unless_busy {sessions : Sessions} {w w' : World Machine Unit} (quiet : ¬ CanBeBusy svc)
    (ran : Program.run (countProtected svc) env w = (.ok sessions, w')) : sessions.idle = true := by
  cases declared : svc.sessions with
  | none =>
    unfold countProtected at ran
    rw [declared] at ran
    obtain rfl := Except.ok.inj (Prod.mk.inj ran).1
    rfl
  | some p =>
    have counted := @meets_countProtected env svc p w declared w rfl
    rw [ran] at counted
    obtain ⟨down, -⟩ | ⟨-, w1, events, runs, -, asked, sums, -⟩ := counted
    · simp [Sessions.idle, down]
    · have unasked : probesOf p.probe = [] := by
        by_contra some'
        by_cases units : svc.units = []
        · unfold running at runs
          rw [units] at runs
          cases (Prod.mk.inj runs).1
        · exact quiet ⟨units, p, declared, some'⟩
      rw [unasked] at sums
      have zero : sessions.count.toOption = some 0 := sums
      cases count : sessions.count with
      | error reason => rw [count] at zero; cases zero
      | ok n =>
        rw [count] at zero
        obtain rfl := Option.some.inj zero
        simp [Sessions.idle, count]

/-! ### How the guard returns -/

/-- A loop without time does nothing. -/
theorem meets_no_time {σ ε α β : Type} {S : Signature} {env : Environment S} {pre : World S σ → Prop}
    {start : Nat} {turn : β → Program S σ ε (β ⊕ α)} {carried : β} {err : ε → World S σ → Prop} :
    Meets env pre (whileWithin start 0 turn carried)
      (fun ended _ => ended = .inl carried) err := by
  unfold whileWithin loop timed
  refine meets_andThen (M := fun ended _ => ended = .inr (.inl carried)) ?_ fun ended => ?_
  · refine meets_andThen (M := fun ended _ => ended = .inr (.inl carried)) ?_ fun ended => ?_
    · refine meets_andThen (M := fun _ => pre) (meets_now fun _ => id) fun t => ?_
      rw [if_neg (by omega)]
      exact meets_ret fun _ _ => rfl
    · rintro w rfl
      rfl
  · rintro w rfl
    rfl

/-- Without time the wait gives up. -/
theorem meets_gives_up {inv : Inventory} {start : Nat} {first : Sessions} (time : svc.drain.waitMaxMs = 0) :
    Meets env (fun _ => True) (ReleaseOps.waitOutsideLock inv svc (ReleaseOps.poll svc start first))
      (fun _ _ => False) (fun _ _ => True) := by
  have poll : Meets env (fun _ => True) (ReleaseOps.poll svc start first) (fun _ _ => False) (fun _ _ => True) := by
    unfold ReleaseOps.poll
    rw [time]
    refine meets_bind meets_no_time fun ended => ?_
    rintro w rfl
    trivial
  unfold ReleaseOps.waitOutsideLock
  refine meets_bind (M := fun _ _ => True) (meets_anyhow _) fun _ => ?_
  refine meets_bind (M := fun _ _ => True) (meets_anyhow _) fun _ => ?_
  exact meets_ensure poll (fun _ _ impossible => impossible.elim) fun e => meets_anyhow _

/-- A guard that returns, and does not force or report, returns on its first count, or on a wait
that had time. -/
theorem meets_guard {inv : Inventory} {opts : Options} {checkedWhen : String}
    (unforced : opts.force = false) (holds : opts.waitIdle = true ∨ svc.drain.policy ≠ .report) :
    Meets env (fun w => w.trace = base) (ReleaseOps.guardSessions inv svc opts checkedWhen)
      (fun _ w => ∃ (v v' : World Machine Unit) (first : Sessions), v.trace = base ∧
        Program.run (countProtected svc) env v = (.ok first, v') ∧
          ((first.idle = true ∧ w.trace = v'.trace) ∨
            (first.idle = false ∧ waits svc opts = true ∧ 0 < svc.drain.waitMaxMs ∧
              ∃ n, svc.drain.enough n = true ∧ Idled env svc base n w.trace))) (fun _ _ => True) := by
  unfold ReleaseOps.guardSessions
  refine meets_bind meets_count fun first => ?_
  refine meets_bind (M := fun _ w => ∃ v v' : World Machine Unit, v.trace = base ∧
    Program.run (countProtected svc) env v = (.ok first, v') ∧ w.trace = v'.trace)
    (fun w now => now) fun _ => ?_
  refine meets_ite (fun idle => ?_) fun busy => ?_
  · refine meets_pure ?_
    rintro w ⟨v, v', same, counted, trace⟩
    exact ⟨v, v', first, same, counted, .inl ⟨idle, trace⟩⟩
  · rw [unforced, if_neg Bool.false_ne_true]
    refine meets_ite (fun reports => ?_) fun _ => meets_ite (fun _ => ?_) fun waiting => ?_
    · obtain ⟨policy, -, waitIdle⟩ := reports
      obtain waitIdle' | policy' := holds
      · exact nomatch waitIdle.symm.trans waitIdle'
      · exact absurd policy policy'
    · exact meets_throw fun _ _ => trivial
    · have waits : waits svc opts = true := by
        by_cases waitIdle : opts.waitIdle = true
        · simp [Probes.waits, waitIdle]
        · have policy := not_and_not_right.mp waiting (Bool.eq_false_iff.mpr waitIdle)
          simp [Probes.waits, policy]
      rintro w ⟨v, v', rfl, counted, trace⟩
      refine (meets_bind (M := fun _ w => v.trace <+: w.trace)
        (meets_now fun w onward => onward) fun start => ?_) w (show v.trace <+: w.trace from trace ▸ ran_onward counted)
      by_cases time : 0 < svc.drain.waitMaxMs
      · exact (meets_waits inv start first).weaken (fun _ => id)
          (fun _ w idled => ⟨v, v', first, rfl, counted,
            .inr ⟨Bool.eq_false_iff.mpr busy, waits, time, idled⟩⟩) fun _ _ => id
      · exact (meets_gives_up (Nat.eq_zero_of_not_pos time)).weaken (fun _ _ => trivial)
          (fun _ _ impossible => impossible.elim) fun _ _ => id

/-- Where a wait asks for an idle count, the guard goes by one. -/
theorem guarded_unless_hasty {inv : Inventory} {opts : Options} {checkedWhen : String}
    (unforced : opts.force = false) (holds : opts.waitIdle = true ∨ svc.drain.policy ≠ .report)
    (careful : ¬ Hasty svc opts) {w final : World Machine Deploy}
    (ran : (ReleaseOps.guardSessions inv svc opts checkedWhen).run env w = (.ok (), final)) :
    Guarded env svc w.trace final.trace := by
  have ends := @meets_guard env svc w.trace inv opts checkedWhen unforced holds w rfl
  rw [ran] at ends
  obtain ⟨v, v', first, same, counted, ⟨idle, trace⟩ | ⟨busy, waiting, time, n, enough, idled⟩⟩ := ends
  · exact .inl ⟨v, v', first, same, counted, idle, trace⟩
  · refine .inr ⟨n, Nat.pos_of_ne_zero fun none' => careful ⟨?_, waiting, time, none' ▸ enough⟩, enough, idled⟩
    by_contra quiet
    exact nomatch busy.symm.trans (idle_unless_busy quiet counted)

end

/-! ### A host on which no count is known -/

/-- The units run, and no probe is answered. -/
def deaf : Environment Machine where
  answer _ call := match call with
    | .systemctl .show _ => { stdout := "ActiveState=active\nSubState=running" }
    | .http .. => { status := 0, error := "unreachable" }
    | .psql .. => .error "unreachable"
    | other => steady other
  takes _ _ := 0

section
variable {svc : Service} {c : Nat}

theorem deaf_state : Systemd.property "ActiveState=active\nSubState=running" "ActiveState" = some "active" := by
  decide +kernel

theorem deaf_running (units : svc.units ≠ []) :
    Meets deaf (fun w : World Machine Unit => w.clock = c) (running svc)
      (fun runs w => runs = true ∧ w.clock = c) (fun _ _ => False) := by
  obtain ⟨unit, rest, found⟩ := List.exists_cons_of_ne_nil units
  unfold running Systemd.showUnit
  rw [found]
  refine meets_bind (M := fun found w => found.isSome = true ∧ w.clock = c) ?_ fun found => ?_
  · refine meets_andThen (M := fun found w => found = some () ∧ w.clock = c) ?_ fun found => ?_
    · refine meets_bind (M := fun st w => st.active = "active" ∧ w.clock = c) ?_ fun st => ?_
      · rw [systemctl_safe rfl rfl]
        refine meets_bind (M := fun r w => r.stdout = "ActiveState=active\nSubState=running" ∧ w.clock = c)
          (fun w clock => ⟨rfl, clock⟩) fun r => meets_pure fun w both => ⟨?_, both.2⟩
        rw [both.1, deaf_state]
        rfl
      · exact meets_pure fun w both => ⟨by rw [both.1]; rfl, both.2⟩
    · rintro w ⟨rfl, clock⟩
      exact ⟨rfl, clock⟩
  · exact meets_pure fun w both => both

theorem deaf_countOne (probe : CountProbe) :
    Meets deaf (fun w : World Machine Unit => w.clock = c) (countOne probe)
      (fun count w => (∃ reason, count = .error reason) ∧ w.clock = c) (fun _ _ => False) := by
  rintro w rfl
  cases probe with
  | httpJsonCount => exact ⟨⟨_, rfl⟩, rfl⟩
  | postgresqlCount => exact ⟨⟨_, rfl⟩, rfl⟩

theorem deaf_countProtected (busy : CanBeBusy svc) :
    Meets deaf (fun w : World Machine Unit => w.clock = c) (countProtected svc)
      (fun sessions w => sessions.idle = false ∧ w.clock = c) (fun _ _ => False) := by
  obtain ⟨units, p, declared, asked⟩ := busy
  unfold countProtected
  rw [declared]
  refine meets_bind (deaf_running units) fun runs => meets_given (fun _ both => both.1) fun up => ?_
  subst up
  simp only [not_true_eq_false, if_false]
  cases source : p.probe with
  | one probe =>
    refine (meets_bind (deaf_countOne probe) fun count => meets_pure ?_).weaken
      (fun _ both => both.2) (fun _ _ => id) fun _ _ => id
    rintro w ⟨⟨reason, rfl⟩, clock⟩
    exact ⟨rfl, clock⟩
  | sum probes =>
    rw [source] at asked
    obtain ⟨probe, rest, found⟩ := List.exists_cons_of_ne_nil asked
    obtain rfl : probes = probe :: rest := found
    unfold countSum
    have counted : Meets deaf (fun w : World Machine Unit => w.clock = c) (countSum 0 0 (probe :: rest))
        (fun count w => (∃ reason, count = .error reason) ∧ w.clock = c) (fun _ _ => False) := by
      unfold countSum
      refine meets_bind (deaf_countOne probe) fun count => ?_
      rintro w ⟨⟨reason, rfl⟩, clock⟩
      exact ⟨⟨_, rfl⟩, clock⟩
    refine (meets_bind counted fun count => meets_pure ?_).weaken (fun _ both => both.2) (fun _ _ => id)
      fun _ _ => id
    rintro w ⟨⟨reason, rfl⟩, clock⟩
    exact ⟨rfl, clock⟩

theorem deaf_counts (busy : CanBeBusy svc) {sessions : Sessions} {w w' : World Machine Unit}
    (ran : Program.run (countProtected svc) deaf w = (.ok sessions, w')) : sessions.idle = false := by
  have ends := deaf_countProtected busy w rfl
  rw [ran] at ends
  exact ends.1

/-- A count inside a run. -/
theorem deaf_count {trace : Nat} (busy : CanBeBusy svc) :
    Meets deaf (fun w : World Machine Deploy => w.clock = trace) (liftM (countProtected svc) : Ops Sessions)
      (fun sessions w => sessions.idle = false ∧ w.clock = trace) (fun _ _ => False) := by
  rintro w rfl
  have ends := deaf_countProtected busy (⟨(), w.clock, w.trace⟩ : World Machine Unit) rfl
  cases ran : Program.run (countProtected svc) deaf ⟨(), w.clock, w.trace⟩ with
  | mk result last =>
    rw [ran] at ends
    have lifted : (liftM (countProtected svc) : Ops Sessions).run deaf w =
        (result, ⟨w.own, last.clock, last.trace⟩) := by
      change Program.run (beside (countProtected svc)) deaf w = _
      simp [beside, ran]
    rw [lifted]
    cases result with
    | ok sessions => exact ends
    | error e => exact ends

/-- On this host the first turn of the wait is its last. -/
theorem deaf_poll {start : Nat} {first : Sessions} (hasty : Hasty svc opts) :
    Meets deaf (fun w : World Machine Deploy => w.clock = start) (ReleaseOps.poll svc start first)
      (fun _ _ => True) (fun _ _ => False) := by
  obtain ⟨busy, -, time, enough⟩ := hasty
  have turn (carried : Nat × Sessions) :
      Meets deaf (fun w : World Machine Deploy => w.clock = start) (ReleaseOps.pollTurn svc start carried)
        (fun ended _ => ∃ done, ended = .inr done) (fun _ _ => False) := by
    unfold ReleaseOps.pollTurn
    refine meets_bind (M := fun _ _ => True) (fun w _ => trivial) fun _ => ?_
    refine meets_bind (M := fun last _ => last.idle = false) ?_ fun last => meets_given (fun _ known => known) fun idle => ?_
    · intro w _
      exact (deaf_count busy w rfl).mono (fun _ _ => And.left) fun _ _ => id
    · rw [idle, if_neg Bool.false_ne_true, if_pos enough]
      exact fun w _ => ⟨(), rfl⟩
  unfold ReleaseOps.poll whileWithin
  refine meets_bind (M := fun ended _ => ended = .inr ()) (meets_andThen (M := fun ended _ => ∃ done, ended = .inr (.inr done)) ?_ fun ended => ?_) fun ended => ?_
  · unfold loop
    refine meets_andThen (M := fun ended _ => ∃ done, ended = .inr (.inr done)) ?_ fun ended => ?_
    · unfold timed
      refine meets_andThen (M := fun t w => t = start ∧ w.clock = start) (meets_now fun w clock => ⟨clock, clock⟩)
        fun t => meets_given (fun _ both => both.1) fun same => ?_
      rw [if_pos (by omega)]
      refine meets_andThen ((turn _).weaken (fun _ both => both.2) (fun _ _ => id) fun _ _ => id) fun ended => ?_
      rintro w ⟨done, rfl⟩
      exact ⟨done, rfl⟩
    · rintro w ⟨done, rfl⟩
      exact ⟨done, rfl⟩
  · rintro w ⟨done, rfl⟩
    rfl
  · rintro w rfl
    trivial

/-- On this host a hasty guard returns. -/
theorem deaf_guard {inv : Inventory} {opts : Options} {checkedWhen : String}
    (unforced : opts.force = false) (hasty : Hasty svc opts) :
    Meets deaf (fun _ => True) (ReleaseOps.guardSessions inv svc opts checkedWhen)
      (fun _ _ => True) (fun _ _ => False) := by
  have waiting := hasty.2.1
  unfold ReleaseOps.guardSessions
  refine meets_bind (M := fun first _ => first.idle = false) ?_ fun first => meets_given (fun _ known => known) fun idle => ?_
  · intro w _
    exact (deaf_count hasty.1 w rfl).mono (fun _ _ => And.left) fun _ _ => id
  refine meets_bind (M := fun _ _ => True) (meets_update fun _ _ => trivial) fun _ => ?_
  rw [idle, if_neg Bool.false_ne_true, unforced, if_neg Bool.false_ne_true]
  refine meets_ite (fun _ => meets_pure fun _ _ => trivial) fun _ => meets_ite (fun refuses => ?_) fun _ => ?_
  · simp [waits, refuses.1, refuses.2] at waiting
  · refine meets_bind (M := fun start w => w.clock = start) (meets_now fun _ _ => rfl) fun start => ?_
    unfold ReleaseOps.waitOutsideLock
    refine meets_bind (M := fun _ w => w.clock = start) ?_ fun _ => ?_
    · rintro w rfl
      rfl
    · refine meets_bind (M := fun _ w => w.clock = start) (meets_update fun _ clock => clock) fun _ => ?_
      exact meets_ensure (deaf_poll hasty) (fun _ _ _ => trivial) fun _ _ impossible => impossible.elim

end

/-- The host of one service. -/
def hostFor (svc : Service) : Inventory where
  stateDir := "/var/lib/ovhost"
  backupDir := "/var/backups/openvibe"
  backupStagingDir := "/var/backups/openvibe/staging"
  services := [svc]
  backup_absolute := backups_absolute

/-- On this host a hasty guard goes ahead on no idle count. -/
theorem hasty_unguarded {svc : Service} {opts : Options} (unforced : opts.force = false) (hasty : Hasty svc opts) :
    ∃ final, (ReleaseOps.guardSessions (hostFor svc) svc opts "before the restart").run deaf fresh = (.ok (), final) ∧
      ¬ Guarded deaf svc fresh.trace final.trace := by
  have returns := @deaf_guard _ (hostFor svc) opts "before the restart" unforced hasty fresh trivial
  cases ran : (ReleaseOps.guardSessions (hostFor svc) svc opts "before the restart").run deaf fresh with
  | mk result final =>
    rw [ran] at returns
    cases result with
    | error e => exact returns.elim
    | ok done =>
      refine ⟨final, rfl, ?_⟩
      rintro (⟨w, w', sessions, -, counted, idle, -⟩ | ⟨n, some', -, idled⟩)
      · exact nomatch (deaf_counts hasty.1 counted).symm.trans idle
      · generalize final.trace = trace at idled
        cases idled with
        | start => exact absurd some' (lt_irrefl _)
        | again _ counted _ idle _ => exact nomatch (deaf_counts hasty.1 counted).symm.trans idle

/-- The guard that does not force or report returns only right after an idle count, and after
enough of them, exactly where its wait asks for at least one. -/
theorem guard_goes_by_idle_counts (svc : Service) (opts : Options) (unforced : opts.force = false)
    (holds : opts.waitIdle = true ∨ svc.drain.policy ≠ .report) :
    (∀ (env : Environment Machine) (inv : Inventory) (checkedWhen : String) (w final : World Machine Deploy),
      (ReleaseOps.guardSessions inv svc opts checkedWhen).run env w = (.ok (), final) →
        Guarded env svc w.trace final.trace) ↔ ¬ Hasty svc opts := by
  constructor
  · intro guarded hasty
    obtain ⟨final, ran, unguarded⟩ := hasty_unguarded unforced hasty
    exact unguarded (guarded deaf (hostFor svc) _ fresh final ran)
  · exact fun careful env inv checkedWhen w final ran => guarded_unless_hasty unforced holds careful ran

/-- The drain that a service gets which names none of its own asks for two. -/
theorem guard_by_default : (∀ (env : Environment Machine) (inv : Inventory) (checkedWhen : String)
    (w final : World Machine Deploy),
      (ReleaseOps.guardSessions inv chat {} checkedWhen).run env w = (.ok (), final) →
        Guarded env chat w.trace final.trace) ↔ ¬ Hasty chat {} :=
  guard_goes_by_idle_counts chat {} rfl (.inr (by decide))

/-- A service whose drain waits, and asks for no idle check. -/
def hurried : Service := { chat with drain := { policy := .wait, quietChecks := .num 0 } }

theorem hurried_hasty : Hasty hurried {} := by
  refine ⟨⟨by decide, _, rfl, by decide⟩, rfl, ?_, ?_⟩
  · decide +kernel
  · decide +kernel

/-- The wait goes ahead on its first count, which is unknown. -/
theorem unknown_goes_ahead : ¬ ∀ (svc : Service) (opts : Options) (at' : String) (given : Option Json),
    Drain.normalise at' given = .ok svc.drain → opts.force = false →
      (opts.waitIdle = true ∨ svc.drain.policy ≠ .report) →
        ∀ (env : Environment Machine) (inv : Inventory) (checkedWhen : String) (w final : World Machine Deploy),
          (ReleaseOps.guardSessions inv svc opts checkedWhen).run env w = (.ok (), final) →
            Guarded env svc w.trace final.trace := by
  intro claim
  obtain ⟨given, accepted⟩ := Drain.normalise_accepts "services.chat" hurried.drain
  obtain ⟨final, ran, unguarded⟩ := @hasty_unguarded hurried {} rfl hurried_hasty
  exact unguarded (claim hurried {} _ _ accepted rfl (.inr (by decide)) deaf (hostFor hurried) _ fresh final ran)

end OpenVibeHost.Probes
