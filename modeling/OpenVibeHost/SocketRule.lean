import OpenVibeHost.Runs

/-! The listener of a socket-activated service. Only `rebindSocket` closes it, and that
only where the installed socket file was replaced in the same run or where pid 1 was found
not to hold the listener. -/
namespace OpenVibeHost.SocketRule
open Effects Program ReleaseOps ReleaseLayout Operations

/-- It stops or restarts a socket unit. -/
def closes : Call → Bool
  | .systemctl .stop (some unit) | .systemctl .restart (some unit) => endsWith unit ".socket"
  | _ => false

abbrev Closes (event : Event Machine) : Prop := closes event.call = true

/-- The installed file of a unit was read, differed from the one of a release, and had
that one installed over it. -/
def Replaced (unit : String) (events : List (Event Machine)) : Prop :=
  ∃ file want old r read t installed, want ≠ old ∧ r.code = 0 ∧
    List.Sublist
      [⟨.readFile file false, .ok (some want), read⟩,
        ⟨.readFile (joinPath "/etc/systemd/system" unit) true, .ok (some old), t⟩,
        ⟨.run "install" ["-m", "0644", "-D", file, joinPath "/etc/systemd/system" unit]
          { privileged := true }, r, installed⟩]
      events

/-- Pid 1 was not among those that listen on the port. -/
def NotHeld (port : Nat) (events : List (Event Machine)) : Prop :=
  ∃ holders t, (⟨.listeners port, .ok holders, t⟩ : Event Machine) ∈ events ∧
    ∀ h ∈ holders, h.pid = some 1 →
      h.process ≠ none ∧ h.process ≠ some "" ∧ h.process ≠ some "systemd"

/-- A reason to close the listener. -/
def Reason (svc : Service) (rel : ReleaseConfig) (socket : String) (events : List (Event Machine)) :
    Prop :=
  Replaced socket events ∨ ∃ port, socketPort svc rel = some port ∧ NotHeld port events

/-- The call restarts the socket of a service right after its first unit was stopped, as
`rebindSocket` does, and for a reason. -/
def Rebinds (svc : Service) (rel : ReleaseConfig) (earlier : List (Event Machine))
    (event : Event Machine) : Prop :=
  ∃ socket first rest before r t, svc.socketUnit = some socket ∧ svc.units = first :: rest ∧
    event.call = .systemctl .restart (some socket) ∧
    earlier = before ++ [⟨.systemctl .stop (some first), r, t⟩] ∧ Reason svc rel socket before

/-- `rebindSocket` of a service in the release layout, for a reason. -/
def ReboundFor (inv : Inventory) (name : String) (earlier : List (Event Machine))
    (event : Event Machine) : Prop :=
  ∃ svc rel, inv.service name = .ok svc ∧ svc.release = some rel ∧ Rebinds svc rel earlier event

theorem Replaced.append {unit : String} {events : List (Event Machine)} (replaced : Replaced unit events)
    (more : List (Event Machine)) : Replaced unit (events ++ more) := by
  obtain ⟨file, want, old, r, read, t, installed, differ, ok, within⟩ := replaced
  exact ⟨file, want, old, r, read, t, installed, differ, ok,
    within.trans (List.sublist_append_left events more)⟩

theorem Reason.append {svc : Service} {rel : ReleaseConfig} {socket : String}
    {events : List (Event Machine)} (reason : Reason svc rel socket events)
    (more : List (Event Machine)) : Reason svc rel socket (events ++ more) := by
  obtain replaced | ⟨port, known, holders, t, member, none⟩ := reason
  · exact .inl (replaced.append more)
  · exact .inr ⟨port, known, holders, t, List.mem_append_left _ member, none⟩

/-! ### Calls that close no listener -/

def leavesOpen (call : Machine.Call) : Bool := !closes call

theorem calm : Calm leavesOpen := by
  intro kind notRestart notStart call same
  cases call with
  | systemctl action unit => cases action <;> simp_all [Call.kind, Action.kind, leavesOpen, closes]
  | _ => rfl

theorem restarts (unit : String) : Restarts leavesOpen unit := by
  intro other
  simp [leavesOpen, closes, other]

section
variable {inv : Inventory} {name : String} {svc : Service} {rel : ReleaseConfig}
  {env : Environment Machine} {base : List (Event Machine)} {σ α : Type}

/-- So far every listener that was closed was closed for a reason. -/
abbrev Kept (inv : Inventory) (name : String) (more : List (Event Machine)) : Prop :=
  Each Closes (ReboundFor inv name) more

/-- So far so, and a socket file that is reported as changed was replaced. -/
def KeptWith (inv : Inventory) (name : String) (svc : Service) (changed : Bool)
    (more : List (Event Machine)) : Prop :=
  Kept inv name more ∧ (changed = true → ∃ socket, svc.socketUnit = some socket ∧ Replaced socket more)

theorem kept_snoc {more : List (Event Machine)} {event : Event Machine}
    (kept : Kept inv name more) (leaves : leavesOpen event.call = true) :
    Kept inv name (more ++ [event]) := by
  refine each_snoc.mpr ⟨kept, fun picked => ?_⟩
  simp only [leavesOpen, Bool.not_eq_true'] at leaves
  exact absurd picked (by simp [Closes, leaves])

theorem keptWith_snoc {changed : Bool} {more : List (Event Machine)} {event : Event Machine}
    (leaves : leavesOpen event.call = true) (kept : KeptWith inv name svc changed more) :
    KeptWith inv name svc changed (more ++ [event]) := by
  refine ⟨kept_snoc kept.1 leaves, fun so => ?_⟩
  obtain ⟨socket, bound, replaced⟩ := kept.2 so
  exact ⟨socket, bound, replaced.append _⟩

theorem meets_open {changed : Bool} {p : Ovhost σ α} (emits : Emits leavesOpen p) :
    Meets env (Since base fun more _ => KeptWith inv name svc changed more) p
      (fun _ => Since base fun more _ => KeptWith inv name svc changed more)
      (fun _ => Since base fun more _ => Kept inv name more) :=
  (emits.meets_events fun _ _ leaves => keptWith_snoc leaves).weaken (fun _ => id) (fun _ _ => id)
    fun _ _ since => since.mono fun _ _ kept => kept.1

theorem look_open : Allows leavesOpen .look := calm _ (by decide) (by decide)

/-- An installed unit file is replaced where`installReleaseUnit` says that the socket
changed. -/
theorem meets_installReleaseUnit (dir : String) (done : UnitsChanged) (entry : String × String) :
    Meets env (Since base fun more _ => KeptWith inv name svc done.socketChanged more)
      (installReleaseUnit svc dir done entry)
      (fun next => Since base fun more _ => KeptWith inv name svc next.socketChanged more)
      (fun _ => Since base fun more _ => Kept inv name more) := by
  unfold installReleaseUnit
  dsimp only
  refine meets_reject_then (fun want answer read found => ?_) fun _ _ _ w _ since => ?_
  · cases want with
    | none =>
      refine meets_pure fun w since => since.mono fun more _ ⟨before, split, kept⟩ => ?_
      exact split ▸ keptWith_snoc rfl kept
    | some want =>
      refine meets_reject_then (fun installed answer' read' settled => ?_) fun _ _ _ w _ since => ?_
      · split
        · refine meets_pure fun w since => since.mono fun more _ ⟨_, split, _, split', kept⟩ => ?_
          exact split ▸ keptWith_snoc rfl (split' ▸ keptWith_snoc rfl kept)
        · rename_i differs
          refine meets_since_ask_then fun r t => ?_
          have three : ∀ more, (∃ before, more = before ++ [(⟨_, r, t⟩ : Event Machine)] ∧ ∃ before',
              before = before' ++ [⟨_, answer', read'⟩] ∧ ∃ before'', before' = before'' ++
                [⟨_, answer, read⟩] ∧ KeptWith inv name svc done.socketChanged before'') →
              KeptWith inv name svc done.socketChanged more := by
            rintro more ⟨_, rfl, _, rfl, _, rfl, kept⟩
            exact keptWith_snoc rfl (keptWith_snoc rfl (keptWith_snoc rfl kept))
          split
          · exact meets_throw fun w since => since.mono fun more _ shape => (three more shape).1
          · rename_i ok
            refine meets_pure fun w since => since.mono fun more _ shape => ⟨(three more shape).1, ?_⟩
            intro changed
            simp only [Bool.or_eq_true, Bool.and_eq_true, decide_eq_true_eq] at changed
            obtain already | ⟨mine, there⟩ := changed
            · exact (three more shape).2 already
            · obtain ⟨old, rfl⟩ := Option.isSome_iff_exists.mp there
              obtain ⟨_, rfl, _, rfl, _, rfl, -⟩ := shape
              obtain rfl : answer = .ok (some want) := found
              obtain rfl : answer' = .ok (some old) := settled
              refine ⟨entry.1, mine, _, want, old, r, read, read', t, fun same => differs (by rw [same]),
                not_not.mp ok, ?_⟩
              simp only [List.append_assoc]
              exact List.sublist_append_right _ _
      · exact since.mono fun more _ ⟨_, split, _, split', kept⟩ =>
          (split ▸ keptWith_snoc rfl (split' ▸ keptWith_snoc rfl kept) : KeptWith inv name svc _ more).1
  · exact since.mono fun more _ ⟨_, split, kept⟩ =>
      (split ▸ keptWith_snoc rfl kept : KeptWith inv name svc _ more).1

/-- Where the unit files of a release are said to change the socket, it was replaced. -/
theorem meets_installReleaseUnits (dir : String) :
    Meets env (Since base fun more _ => Kept inv name more) (installReleaseUnits svc dir)
      (fun done => Since base fun more _ => KeptWith inv name svc done.socketChanged more)
      (fun _ => Since base fun more _ => Kept inv name more) := by
  unfold installReleaseUnits
  refine meets_bind (M := fun done => Since base fun more _ =>
    KeptWith inv name svc done.socketChanged more) ?_ fun done => ?_
  · refine (meets_fold (b := ({} : UnitsChanged)) (I := fun done => Since base fun more _ =>
      KeptWith inv name svc done.socketChanged more) fun done entry _ =>
        meets_installReleaseUnit dir done entry).weaken (fun w since => ?_) (fun _ _ => id) fun _ _ => id
    exact since.mono fun more _ kept => ⟨kept, fun no => nomatch no⟩
  · refine meets_bind (meets_open (emits_whenever fun _ => ?_)) fun _ => meets_pure fun _ => id
    have change : Allows leavesOpen .change := calm _ (by decide) (by decide)
    exact emits_bind (by grind) fun _ => emits_forEach fun u _ => by grind

/-- A reason that `restartRelease` finds is one. -/
theorem meets_rebindReason (socketChanged : Bool) :
    Meets env (Since base fun more _ => KeptWith inv name svc socketChanged more)
      (rebindReason svc rel socketChanged)
      (fun reason => Since base fun more _ => Kept inv name more ∧ (reason.isSome = true →
        ∃ socket, svc.socketUnit = some socket ∧ Reason svc rel socket more))
      (fun _ => Since base fun more _ => Kept inv name more) := by
  unfold rebindReason
  split
  · exact meets_pure fun w since => since.mono fun _ _ kept => ⟨kept.1, fun no => nomatch no⟩
  · rename_i socket bound
    refine meets_bind (meets_open (emits_ensureActive look_open rfl)) fun _ => ?_
    refine meets_bind (M := fun held => Since base fun more _ =>
      KeptWith inv name svc socketChanged more ∧
        (held = false → ∃ port, socketPort svc rel = some port ∧ NotHeld port more)) ?_ fun held => ?_
    · split
      · rename_i port known
        unfold Systemd.socketHeld
        refine meets_bind (M := fun hold : Systemd.SocketHold => Since base fun more _ =>
          KeptWith inv name svc socketChanged more ∧
            (hold.held = false → ∃ port, socketPort svc rel = some port ∧ NotHeld port more))
          ?_ fun hold => meets_pure fun _ => id
        refine meets_reject_then (fun holders answer t found => ?_) fun _ _ _ w _ since => ?_
        · refine meets_pure fun w since => since.mono fun more _ ⟨_, split, kept⟩ => ?_
          subst split
          refine ⟨keptWith_snoc rfl kept, fun none => ⟨port, known, holders, t, ?_, ?_⟩⟩
          · obtain rfl : answer = .ok holders := found
            simp
          · simpa [and_assoc] using none
        · exact since.mono fun more _ ⟨_, split, kept⟩ =>
            (split ▸ keptWith_snoc rfl kept : KeptWith inv name svc _ more).1
      · exact meets_pure fun w since => since.mono fun _ _ kept => ⟨kept, fun no => nomatch no⟩
    · refine meets_pure fun w since => since.mono fun more _ ⟨kept, notHeld⟩ => ⟨kept.1, ?_⟩
      intro some'
      split at some'
      · rename_i changed
        obtain ⟨socket', bound', replaced⟩ := kept.2 changed
        exact ⟨socket', bound', .inl replaced⟩
      · split at some'
        · rename_i no
          exact ⟨socket, bound, .inr (notHeld no)⟩
        · exact nomatch some'

theorem meets_kept {p : Ovhost σ α} (emits : Emits leavesOpen p) :
    Meets env (Since base fun more _ => Kept inv name more) p
      (fun _ => Since base fun more _ => Kept inv name more)
      (fun _ => Since base fun more _ => Kept inv name more) :=
  emits.meets_events fun _ _ leaves kept => kept_snoc kept leaves

theorem meets_installs (dir : String) :
    Meets env (Since base fun more _ => Kept inv name more)
      (liftM (installReleaseUnits svc dir) : Ops UnitsChanged)
      (fun done => Since base fun more _ => KeptWith inv name svc done.socketChanged more)
      (fun _ => Since base fun more _ => Kept inv name more) :=
  meets_since_liftM fun _ => meets_installReleaseUnits dir

variable (service : inv.service name = .ok svc) (layout : svc.release = some rel)
include service layout

/-- The one place where a listener is closed. -/
theorem meets_rebindFirst (reason : Option Systemd.RebindReason) :
    Meets env (Since base fun more _ => Kept inv name more ∧ (reason.isSome = true →
        ∃ socket, svc.socketUnit = some socket ∧ Reason svc rel socket more))
      (rebindFirst svc reason)
      (fun _ => Since base fun more _ => Kept inv name more)
      (fun _ => Since base fun more _ => Kept inv name more) := by
  unfold rebindFirst
  split
  · rename_i why socket bound
    split
    · rename_i first rest units
      unfold Systemd.rebindSocket
      split
      · rw [throw_bind]
        exact meets_throw fun w since => since.mono fun _ _ kept => kept.1
      · rename_i named
        have leaves (action : Action) : leavesOpen (.systemctl action (some first)) = true := by
          have service : endsWith first ".service" = true := by
            by_contra other
            exact named (.inl other)
          cases action <;> simp [leavesOpen, closes, service_no_socket service]
        rw [bind_assoc]
        refine meets_since_ask_then fun r t => ?_
        rw [bind_assoc]
        refine meets_since_ask_then fun r' t' => ?_
        refine (meets_kept ?_).weaken (fun w since => ?_) (fun _ _ => id)
          fun _ _ => id
        · refine emits_bind (emits_bind (emits_ask (leaves _)) fun started => by grind) fun _ => ?_
          exact emits_pure _
        · refine since.mono fun more _ ⟨_, split, before, split', kept, reason⟩ => ?_
          obtain ⟨socket', bound', why⟩ := reason rfl
          obtain rfl : socket = socket' := Option.some.inj (bound.symm.trans bound')
          subst split split'
          refine each_snoc.mpr ⟨kept_snoc kept (leaves _), fun _ => ?_⟩
          exact ⟨svc, rel, service, layout, socket, first, rest, before, r, t, bound, units, rfl, rfl, why⟩
    · exact meets_throw fun w since => since.mono fun _ _ kept => kept.1
  · exact meets_pure fun w since => since.mono fun _ _ kept => kept.1

theorem meets_restartRelease (opts : Options) (socketChanged : Bool) (expectSha : String) :
    Meets env (Since base fun more _ => KeptWith inv name svc socketChanged more)
      (restartRelease svc rel opts socketChanged expectSha)
      (fun _ => Since base fun more _ => Kept inv name more)
      (fun _ => Since base fun more _ => Kept inv name more) := by
  unfold restartRelease
  refine meets_bind (meets_rebindReason socketChanged) fun reason => ?_
  refine meets_bind (meets_rebindFirst service layout reason) fun units => meets_kept ?_
  refine emits_bind (emits_forEach fun unit _ => emits_restart (restarts unit)) fun _ => ?_
  refine emits_bind (emits_waitReady look_open svc _ _ _) fun ready => ?_
  have look := look_open
  split
  · split
    · exact emits_bind (by grind) fun held => emits_pure _
    · exact emits_pure _
  · exact emits_pure _

theorem meets_restarts (opts : Options) (socketChanged : Bool) (expectSha : String) :
    Meets env (Since base fun more _ => KeptWith inv name svc socketChanged more)
      (liftM (restartRelease svc rel opts socketChanged expectSha) : Ops Restarted)
      (fun _ => Since base fun more _ => Kept inv name more)
      (fun _ => Since base fun more _ => Kept inv name more) :=
  meets_since_liftM fun _ => meets_restartRelease service layout opts socketChanged expectSha

theorem meets_switchAndRestart (mode : Mode) (opts : Options) (plan : LayoutPlan) (dir : String) :
    Meets env (Since base fun more _ => Kept inv name more)
      (switchAndRestart svc rel mode opts plan dir)
      (fun _ => Since base fun more _ => Kept inv name more)
      (fun _ => Since base fun more _ => Kept inv name more) := by
  have look := look_open
  have change : Allows leavesOpen .change := calm _ (by decide) (by decide)
  have switch : Allows leavesOpen .switch := calm _ (by decide) (by decide)
  have position : Allows leavesOpen .position := calm _ (by decide) (by decide)
  have worktree : Allows leavesOpen .worktree := calm _ (by decide) (by decide)
  have switches := emits_switchCurrent change switch rel
  unfold switchAndRestart
  refine meets_bind (meets_kept (emits_switchTo calm rel plan dir)) fun _ => ?_
  refine meets_bind (meets_installs dir) fun u => ?_
  refine meets_bind (meets_open (Releases.emits_setRecord _)) fun _ => ?_
  refine meets_bind (meets_restarts service layout opts _ _) fun r => ?_
  refine meets_bind (meets_kept (Releases.emits_setRecord _)) fun _ => ?_
  split
  · refine meets_bind (meets_kept (Releases.emits_setRecord _)) fun _ => ?_
    refine meets_bind (meets_kept ?_) fun _ => meets_pure fun _ => id
    exact (frame_recordPrune change look position worktree svc rel mode plan).emits
  · unfold ReleaseLayout.rollBack
    refine meets_bind (meets_kept (Releases.emits_setRecord _)) fun _ => ?_
    refine meets_attempt (T := fun _ => Since base fun more _ => Kept inv name more) ?_ fun err => ?_
    · refine meets_bind (meets_kept emits_own) fun s => ?_
      refine meets_bind (meets_kept (emits_whenever fun _ => emits_liftM (switches _))) fun _ => ?_
      refine meets_bind (meets_installs _) fun back => meets_bind (meets_restarts service layout opts _ _) fun b => ?_
      refine meets_kept (emits_bind (Releases.emits_setRecord _) fun _ => ?_)
      split <;> exact emits_bind (Releases.emits_setRecord _) fun _ => emits_pure _
    · exact meets_kept (emits_bind (Releases.emits_setRecord _) fun _ => emits_pure _)

theorem meets_release (mode : Mode) (opts : Options) (plan : LayoutPlan) :
    Meets env (Since base fun more _ => Kept inv name more)
      (ReleaseLayout.release inv svc rel mode opts plan)
      (fun _ => Since base fun more _ => Kept inv name more)
      (fun _ => Since base fun more _ => Kept inv name more) := by
  unfold ReleaseLayout.release
  refine meets_bind (meets_kept (emits_makeReady calm svc rel mode plan)) fun _ => ?_
  dsimp only
  generalize (if plan.upToDate = true then plan.currentDir else plan.targetDir) = dir
  split
  · exact meets_kept (emits_bind (Releases.emits_setRecord _) fun _ => emits_pure _)
  · split
    · exact meets_kept (emits_switchOnly calm svc rel mode plan dir)
    · refine meets_bind (meets_kept (emits_guarded calm svc rel inv opts plan dir)) fun _ => ?_
      exact meets_switchAndRestart service layout mode opts plan dir

end

theorem quiet_leaves {call : Machine.Call} (quiet : quietCalls call = true) :
    leavesOpen call = true := by
  change Call at call
  cases call with
  | systemctl action unit =>
    cases action <;> first | rfl | simp [quietCalls, Call.kind, Action.kind, Kind.quiet] at quiet
  | _ => rfl

/-! ### The rule -/

/-- Nothing in the run is a reason to close the listener of the service. -/
def NoReason (inv : Inventory) (name : String) (events : List (Event Machine)) : Prop :=
  ∀ svc rel socket, inv.service name = .ok svc → svc.release = some rel →
    svc.socketUnit = some socket → ¬ Reason svc rel socket events

/-- In every deploy and rollback, whatever the host answers, a socket unit is stopped or
restarted by `rebindSocket` only, and for a reason only; without one the listener stays
open throughout. -/
theorem listener_closed_for_reason (env : Environment Machine) (inv : Inventory) (pid : Nat)
    (name : String) (mode : Mode) (opts : Options) (w : World Machine Deploy) :
    Since w.trace (fun events _ => Each Closes (ReboundFor inv name) events ∧
        (NoReason inv name events → ∀ event ∈ events, ¬ Closes event))
      ((operate inv pid name mode opts).run env w).2 := by
  have start : Kept inv name [] := each_nil
  refine (operate_since env inv pid name mode opts w start
    (fun _ _ quiet kept => kept_snoc kept (quiet_leaves quiet)) ?_ ?_).mono fun events _ kept => ?_
  · intro svc opts' plan w0 w1 _ _ _ since
    have releases : Emits leavesOpen (ReleaseOps.release inv svc mode opts' plan) :=
      ReleaseOps.emits_release calm (fun _ _ => rfl) (fun unit _ => restarts unit) inv mode opts'
        fun unit _ => restarts unit
    exact (meets_kept releases w1 since).always
  · intro svc rel opts' plan w0 w1 service layout _ _ since
    exact (meets_release service layout mode opts' plan w1 since).always
  · refine ⟨kept, fun noReason event member closed => ?_⟩
    obtain ⟨earlier, later, split⟩ := List.append_of_mem member
    obtain ⟨svc, rel, service, layout, socket, first, rest, before, r, t, bound, -, -, shape, reason⟩ :=
      kept earlier event later split closed
    refine noReason svc rel socket service layout bound ?_
    rw [split, shape, List.append_assoc]
    exact reason.append _

end OpenVibeHost.SocketRule
