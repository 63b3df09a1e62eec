import OpenVibeHost.Runs

/-! Worker units drain on their own: ovhost is never to start, stop or restart one. The
inventory keeps them apart from the units of a service, but auxiliary units, and the unit
files that `unitsMatch` finds on the host, are only compared with them by name: an
instance of a worker template gets through either way, and nothing else does. -/
namespace OpenVibeHost.WorkerUnits
open Effects Program Operations ReleaseOps

/-- Whether a unit is an instance of a worker template. -/
def isInstance (worker unit : String) : Bool :=
  endsWith worker "@.service" && beginsWith unit (Systemd.stem worker) && endsWith unit ".service"

/-- A declared worker unit, or an instance of a declared template. -/
def isWorker (svc : Service) (unit : String) : Bool :=
  svc.workerUnits.any fun worker => unit = worker || isInstance worker unit

/-- The unit that a call starts, stops or restarts. -/
def drives : Call → Option String
  | .systemctl .start unit | .systemctl .stop unit | .systemctl .restart unit => unit
  | _ => none

def leaves (svc : Service) (call : Machine.Call) : Bool :=
  ((drives call).map (isWorker svc)) != some true

theorem calm (svc : Service) : Calm (leaves svc) := by
  intro kind notRestart notStart call same
  cases call with
  | systemctl action unit => cases action <;> simp_all [Call.kind, Action.kind, leaves, drives]
  | _ => rfl

theorem quiet_leaves (svc : Service) {call : Machine.Call} (quiet : quietCalls call = true) :
    leaves svc call = true := by
  change Call at call
  cases call with
  | systemctl action unit =>
    cases action <;> first | rfl | simp [quietCalls, Call.kind, Action.kind, Kind.quiet] at quiet
  | _ => rfl

section
variable {svc : Service}

theorem leaves_unit {action : Action} {unit : String} (other : isWorker svc unit = false) :
    leaves svc (.systemctl action (some unit)) = true := by
  cases action <;> simp [leaves, drives, other]

theorem restarts {unit : String} (other : isWorker svc unit = false) :
    Restarts (leaves svc) unit := fun _ => leaves_unit other

/-- `normalise` compares the units of a service with its workers as it must. -/
theorem unit_no_worker {unit : String} (mine : unit ∈ svc.units) : isWorker svc unit = false := by
  rw [isWorker, List.any_eq_false]
  intro worker member
  have apart := svc.workers_apart worker member unit mine
  simp only [namesWorker, Bool.or_eq_false_iff, Bool.and_eq_false_iff] at apart
  simp only [isInstance, Systemd.stem, Bool.or_eq_true, Bool.and_eq_true]
  rintro (same | ⟨⟨template, starts⟩, -⟩)
  · simp_all
  · rcases apart.2 with no | no <;> simp_all

theorem socket_no_worker {unit : String} (socket : svc.socketUnit = some unit) :
    isWorker svc unit = false := by
  have apart := svc.socket_socket unit socket
  rw [isWorker, List.any_eq_false]
  intro worker member
  have service := svc.workers_service worker member
  simp only [isInstance, Bool.or_eq_true, Bool.and_eq_true, decide_eq_true_eq]
  rintro (rfl | ⟨-, ends⟩)
  · rw [service_no_socket service] at apart
    exact nomatch apart
  · rw [service_no_socket ends] at apart
    exact nomatch apart

/-- A name that is none of the declared ones is a worker as an instance only. -/
theorem no_worker {unit : String} (named : unit ∉ svc.workerUnits)
    (instances : ∀ worker ∈ svc.workerUnits, isInstance worker unit = false) :
    isWorker svc unit = false := by
  rw [isWorker, List.any_eq_false]
  intro worker member
  simp only [instances worker member, Bool.or_false, decide_eq_true_eq]
  rintro rfl
  exact named member

end

/-! ### The unit files that are found on the host -/

/-- The unit files that `listUnitFiles` takes from an answer. -/
def unitFiles (r : RunResult) : List String :=
  (linesOf r.stdout).filterMap fun line =>
    match Systemd.words line with
    | unit :: _ =>
      if endsWith unit ".service" ∧ ¬ endsWith unit "@.service" then some unit else none
    | [] => none

/-- `systemctl list-unit-files` answered with the unit. -/
def Found (unit : String) (events : List (Event Machine)) : Prop :=
  ∃ pattern r t, (⟨.systemctl .listUnitFiles (some pattern), r, t⟩ : Event Machine) ∈ events ∧
    unit ∈ unitFiles r

theorem Found.append {unit : String} {events : List (Event Machine)} (found : Found unit events)
    (more : List (Event Machine)) : Found unit (events ++ more) := by
  obtain ⟨pattern, r, t, member, named⟩ := found
  exact ⟨pattern, r, t, List.mem_append_left _ member, named⟩

section
variable {env : Environment Machine} {base : List (Event Machine)} {svc : Service}

/-- Every unit of a list was found on the host and is none of the declared workers. -/
def AllFound (svc : Service) (units : List String) (events : List (Event Machine)) : Prop :=
  ∀ unit ∈ units, Found unit events ∧ unit ∉ svc.workerUnits

theorem allFound_snoc {units : List String} {events : List (Event Machine)} {event : Event Machine}
    (all : AllFound svc units events) : AllFound svc units (events ++ [event]) :=
  fun unit member => ⟨(all unit member).1.append _, (all unit member).2⟩

theorem meets_findExtraUnits :
    Meets env (Since base fun _ _ => True) (findExtraUnits svc)
      (fun extra => Since base fun more _ => AllFound svc extra more) (fun _ _ => True) := by
  unfold findExtraUnits
  split
  · exact meets_pure fun w since => since.mono fun _ _ _ => fun _ member => nomatch member
  · rename_i pattern _
    refine meets_bind (M := fun found => Since base fun more _ => AllFound svc found more)
      (meets_attempt (T := fun _ => Since base fun _ _ => True) ?_ fun _ => ?_) fun found => ?_
    · refine meets_bind (M := fun files => Since base fun more _ => ∀ unit ∈ files, Found unit more)
        ?_ fun files => meets_pure fun w since => since.mono fun more _ all unit member => ?_
      · unfold Systemd.listUnitFiles
        rw [systemctl_safe rfl rfl]
        refine meets_since_ask_then fun r t => ?_
        split
        · exact meets_throw fun w since => since.mono fun _ _ _ => trivial
        · refine meets_pure fun w since => since.mono fun more _ ⟨before, split, _⟩ unit member => ?_
          exact ⟨pattern, r, t, by simp [split], member⟩
      · obtain ⟨listed, -, other⟩ := by simpa using member
        exact ⟨all unit listed, other⟩
    · exact meets_pure fun w since => since.mono fun _ _ _ => fun _ member => nomatch member
    · refine (meets_fold (b := ([] : List String)) (I := fun extra => Since base fun more _ =>
        AllFound svc found more ∧ AllFound svc extra more) fun extra u member => ?_).weaken
          (fun w since => since.mono fun _ _ all => ⟨all, fun _ none => nomatch none⟩)
          (fun _ _ since => since.mono fun _ _ all => all.2) fun _ _ => id
      refine meets_bind (((emits_any _).meets_events fun _ _ _ all =>
        ⟨allFound_snoc all.1, allFound_snoc all.2⟩).weaken (fun _ => id) (fun _ _ => id)
          fun _ _ _ => trivial) fun type => meets_pure fun w since => since.mono fun more _ all => ?_
      refine ⟨all.1, ?_⟩
      split
      · exact all.2
      · intro unit listed
        obtain earlier | last := List.mem_append.mp listed
        · exact all.2 unit earlier
        · obtain rfl := List.mem_singleton.mp last
          exact all.1 unit member

end

/-! ### Runs -/

/-- No auxiliary unit and no unit file found on the host is an instance of a worker
template. -/
def Apart (inv : Inventory) (name : String) (events : List (Event Machine)) : Prop :=
  ∀ svc, inv.service name = .ok svc → ∀ worker ∈ svc.workerUnits,
    (∀ auxiliary ∈ svc.auxiliaryUnits, isInstance worker auxiliary.unit = false) ∧
      ∀ unit, Found unit events → isInstance worker unit = false

/-- The call starts, stops or restarts a worker unit of the service. -/
def DrivesWorker (inv : Inventory) (name : String) (event : Event Machine) : Prop :=
  ∃ svc unit, inv.service name = .ok svc ∧ drives event.call = some unit ∧ isWorker svc unit = true

/-- No worker is driven, if only they are kept apart. -/
def LeftAlone (inv : Inventory) (name : String) (events : List (Event Machine)) : Prop :=
  Apart inv name events → ∀ event ∈ events, ¬ DrivesWorker inv name event

theorem Apart.earlier {inv : Inventory} {name : String} {events later : List (Event Machine)}
    (apart : Apart inv name (events ++ later)) : Apart inv name events :=
  fun svc service worker member => ⟨(apart svc service worker member).1,
    fun unit found => (apart svc service worker member).2 unit (found.append later)⟩

section
variable {env : Environment Machine} {inv : Inventory} {name : String} {svc : Service}
  (service : inv.service name = .ok svc)
include service

theorem leftAlone_snoc {events : List (Event Machine)} {event : Event Machine}
    (leaves' : leaves svc event.call = true) (alone : LeftAlone inv name events) :
    LeftAlone inv name (events ++ [event]) := by
  intro apart other member
  obtain earlier | last := List.mem_append.mp member
  · exact alone apart.earlier other earlier
  · obtain rfl := List.mem_singleton.mp last
    rintro ⟨svc', unit, service', driven, worker⟩
    obtain rfl : svc = svc' := Except.ok.inj (service.symm.trans service')
    simp [leaves, driven, worker] at leaves'

/-- A program that drives no worker, or only where workers are not kept apart. -/
theorem since_leftAlone {α : Type} {base : List (Event Machine)} {p : Ops α}
    {w : World Machine Deploy} (since : Since base (fun more _ => LeftAlone inv name more) w)
    (emits : Since base (fun more _ => Apart inv name more) w → Emits (leaves svc) p) :
    Since base (fun more _ => LeftAlone inv name more) (p.run env w).2 := by
  by_cases apart : Since base (fun more _ => Apart inv name more) w
  · exact ((emits apart).meets_events (fun _ _ => leftAlone_snoc service) w since).always
  · obtain ⟨more, trace, -⟩ := since
    obtain ⟨later, onward, -⟩ := emits_any p env w
    refine ⟨more ++ later, by rw [onward, trace, List.append_assoc], fun apart' => ?_⟩
    exact absurd ⟨more, trace, apart'.earlier⟩ apart

end

/-- In every deploy and rollback, no worker unit is started, stopped or restarted, if no
auxiliary unit and no unit file found on the host is an instance of a worker template. -/
theorem workers_left_alone (env : Environment Machine) (inv : Inventory) (pid : Nat)
    (name : String) (mode : Mode) (opts : Options) (w : World Machine Deploy) :
    Since w.trace (fun events _ => LeftAlone inv name events)
      ((operate inv pid name mode opts).run env w).2 := by
  refine operate_since env inv pid name mode opts w (fun _ _ member => nomatch member) ?_ ?_ ?_
  · intro events event quiet alone
    cases service : inv.service name with
    | ok svc => exact leftAlone_snoc service (quiet_leaves svc quiet) alone
    | error e =>
      rintro - other member ⟨svc, -, known, -⟩
      rw [service] at known
      exact nomatch known
  · intro svc opts' plan w0 w1 service before begun since
    refine since_leftAlone service since fun apart => ?_
    obtain ⟨first, last, planned, starts, ends⟩ := begun.planned
    have found := planned.extra.since (before.trans starts) ends meets_findExtraUnits
      fun more later all unit member => ⟨(all unit member).1.append later, (all unit member).2⟩
    obtain ⟨more, trace, apart⟩ := apart
    have all : AllFound svc plan.extraUnits more := found.at_end trace
    have auxiliary : ∀ unit ∈ plan.auxRestart, isWorker svc unit = false := by
      intro unit member
      obtain ⟨a, listed, rfl⟩ := planned.auxiliary unit member
      exact no_worker (svc.auxiliary_no_worker a listed)
        fun worker declared => (apart svc service worker declared).1 a listed
    have units : ∀ unit ∈ plan.units, isWorker svc unit = false := by
      intro unit member
      rw [planned.units] at member
      obtain mine | extra := List.mem_append.mp member
      · exact unit_no_worker mine
      · obtain ⟨found, named⟩ := all unit extra
        exact no_worker named fun worker declared => (apart svc service worker declared).2 unit found
    exact emits_release (calm svc) (fun unit socket => leaves_unit (socket_no_worker socket))
      (fun unit member => restarts (units unit member)) inv mode opts'
      fun unit member => restarts (auxiliary unit member)
  · intro svc rel opts' plan w0 w1 service _ _ _ since
    refine since_leftAlone service since fun _ => ?_
    refine ReleaseLayout.emits_release (calm svc)
      (fun unit socket => leaves_unit (socket_no_worker socket))
      (fun unit member => restarts (unit_no_worker member)) (fun unit member socket bound => ?_)
      inv rel mode opts' plan
    exact ⟨leaves_unit (unit_no_worker member), leaves_unit (unit_no_worker member),
      leaves_unit (socket_no_worker bound)⟩

/-! ### A worker instance that is declared as an auxiliary unit -/

def media : Service where
  id := "media"
  repo := "/srv/media"
  owner := "media"
  runAs := "media"
  units := ["media.service"]
  workerUnits := ["media-worker@.service"]
  auxiliaryUnits := [{ unit := "media-worker@1.service", restartOn := ["deploy/worker.conf"] }]
  unitSources := [("media-worker@1.service", "deploy/media-worker@.service")]
  unit_service := by decide
  socket_socket := Service.no_socket
  auxiliary_apart := by decide
  workers_service := by decide
  workers_apart := by decide
  auxiliary_no_worker := by decide
  sources_apart := by decide
  sources_named := by decide
  laid_out := Service.no_layout

def mediaHost : Inventory where
  stateDir := "/var/lib/openvibe-host"
  backupDir := "/var/backups/openvibe"
  backupStagingDir := "/var/backups/openvibe/staging"
  services := [media]
  backup_absolute := backups_absolute

/-- The release on its way changes the configuration of the worker. -/
def workerChanged : Environment Machine := hostOf fun
  | .git _ _ _ .head => { stdout := "aaaaaaaaaaaa" }
  | .git _ _ _ (.revParse _) => { stdout := "bbbbbbbbbbbb" }
  | .git _ _ _ .branch => { stdout := "main" }
  | .git _ _ _ (.changedFiles ..) => { stdout := "deploy/worker.conf" }
  | other => steady other

/-- A deploy restarts a worker instance that is declared as an auxiliary unit. -/
theorem worker_restarted : ¬ ∀ (env : Environment Machine) inv pid name mode opts
    (w : World Machine Deploy), Since w.trace
      (fun events _ => ∀ event ∈ events, ¬ DrivesWorker inv name event)
      ((operate inv pid name mode opts).run env w).2 := by
  intro never
  obtain ⟨events, trace, none⟩ := never workerChanged mediaHost 7 "media" .deploy {} fresh
  have restarted : ((operate mediaHost 7 "media" .deploy {}).run workerChanged fresh).2.trace.any
      (fun event => drives event.call = some "media-worker@1.service") = true := by decide +kernel
  rw [trace] at restarted
  obtain ⟨event, member, driven⟩ := List.any_eq_true.mp restarted
  refine none event member ⟨media, "media-worker@1.service", by rfl, by simpa using driven, ?_⟩
  decide +kernel

end OpenVibeHost.WorkerUnits
