import Mathlib.Data.List.TakeWhile
import OpenVibeHost.Runs

/-! When a freeze holds a deploy. The freeze files are read once, at the start: a deploy
that then waits for the host lock, or for sessions to end, goes on through a freeze that
is written meanwhile. -/
namespace OpenVibeHost.FreezeHold
open Effects Program Operations ReleaseOps

/-- The freeze that a freeze file's content is. -/
def freezeIn : Except String (Option String) → Option Json
  | .ok text => (Json.parseFile text).filter Json.truthy
  | .error _ => none

abbrev freezeRead (inv : Inventory) (name : String) : Call := .readFile (freezeFile inv name) false

def readFreeze (inv : Inventory) (name : String) : Exec (Option Json) :=
  ask (S := Machine) (freezeRead inv name) freezeIn

/-- A freeze of the service, or of all, is completely written after `past`. -/
def Stands (env : Environment Machine) (inv : Inventory) (svc : Service)
    (past : List (Event Machine)) : Prop :=
  ∃ name ∈ [svc.id, "all"], (freezeIn (env.answer past (freezeRead inv name))).isSome = true

/-- It moves the checkout, switches `current`, or restarts a unit. -/
def changes (call : Call) : Bool :=
  match call.kind with
  | .move | .switch | .restart => true
  | _ => false

section
variable (env : Environment Machine) (inv : Inventory) (pid : Nat) (svc : Service) (opts : Options)
  (w : World Machine Deploy)

/-- A freeze is there at a moment of the deploy before it moved, switched or restarted
anything. -/
def FrozenInTime : Prop :=
  ∃ earlier later, ((deploy inv pid svc.id opts).run env w).2.trace = w.trace ++ earlier ++ later ∧
    (∀ event ∈ earlier, changes event.call = false) ∧ Stands env inv svc (w.trace ++ earlier)

/-- The deploy is refused as frozen, and did nothing but read the freeze files. -/
def Held : Prop :=
  exitCode ((deploy inv pid svc.id opts).run env w).1 = Exit.frozen.code ∧
    Since w.trace (fun events _ => ∀ event ∈ events, ∃ name ∈ [svc.id, "all"],
      event.call = freezeRead inv name) ((deploy inv pid svc.id opts).run env w).2

/-- What the deploy reads of its own freeze file, or then of the one for all, is a freeze. -/
def StoodAtStart : Prop :=
  (freezeIn (env.answer w.trace (freezeRead inv svc.id))).isSome = true ∨
    (freezeIn (env.answer (Program.run (readFreeze inv svc.id) env ⟨(), w.clock, w.trace⟩).2.trace
      (freezeRead inv "all"))).isSome = true

/-- What a freeze is for: a deploy that has changed nothing when it is written is held. -/
def HoldsDeploy : Prop := FrozenInTime env inv pid svc opts w → Held env inv pid svc opts w

end

/-! ### Reading the freeze files -/

theorem frozen_eq (inv : Inventory) (id : String) :
    frozen inv id = firstOf [id, "all"] (readFreeze inv) := by
  unfold frozen
  congr 1
  funext name
  refine Program.ext fun env w => ?_
  have reads := run_orReject (freezeRead inv name) (fun answer => answer) env w
  have asks : Program.run (readFreeze inv name) env w =
      (.ok (freezeIn (env.answer w.trace (freezeRead inv name))),
        ((ask (S := Machine) (freezeRead inv name) fun answer => answer :
          Exec (Except String (Option String))).run env w).2) := rfl
  rw [asks]
  cases answered : env.answer w.trace (freezeRead inv name) with
  | ok text =>
    rw [answered] at reads
    simp only [attempt, bind_eq]
    rw [run_andThen_ok (p := Exec.readFile (freezeFile inv name)) reads]
    rfl
  | error message =>
    rw [answered] at reads
    simp only [attempt, bind_eq]
    rw [run_andThen_error (p := Exec.readFile (freezeFile inv name)) reads]
    rfl

def readsFreeze (inv : Inventory) (id : String) (call : Call) : Bool :=
  [id, "all"].any fun name => decide (call = freezeRead inv name)

theorem emits_frozen (inv : Inventory) (id : String) :
    Emits (readsFreeze inv id) (frozen inv id) := by
  rw [frozen_eq]
  refine emits_firstOf fun name member => emits_ask (List.any_eq_true.mpr ⟨name, member, ?_⟩)
  exact decide_eq_true (p := freezeRead inv name = freezeRead inv name) rfl

/-- The files are read without fail, and say whether a freeze stood at the start. -/
theorem frozen_ran (env : Environment Machine) (inv : Inventory) (svc : Service)
    (w : World Machine Deploy) :
    ∃ hold, (Program.run (frozen inv svc.id) env ⟨(), w.clock, w.trace⟩).1 = .ok hold ∧
      (hold.isSome = true ↔ StoodAtStart env inv svc w) := by
  have asks (name : String) (w : World Machine Unit) : Program.run (readFreeze inv name) env w =
      (.ok (freezeIn (env.answer w.trace (freezeRead inv name))),
        (Program.run (readFreeze inv name) env w).2) := rfl
  rw [frozen_eq]
  unfold StoodAtStart
  have own := asks svc.id ⟨(), w.clock, w.trace⟩
  cases mine : freezeIn (env.answer w.trace (freezeRead inv svc.id)) with
  | some hold =>
    rw [mine] at own
    exact ⟨some hold, congrArg Prod.fst (run_firstOf_some own), by simp⟩
  | none =>
    rw [mine] at own
    rw [run_firstOf_none own]
    have all := asks "all" (Program.run (readFreeze inv svc.id) env ⟨(), w.clock, w.trace⟩).2
    cases everyone : freezeIn (env.answer
        (Program.run (readFreeze inv svc.id) env ⟨(), w.clock, w.trace⟩).2.trace
        (freezeRead inv "all")) with
    | some hold =>
      rw [everyone] at all
      exact ⟨some hold, congrArg Prod.fst (run_firstOf_some all), by simp⟩
    | none =>
      rw [everyone] at all
      rw [run_firstOf_none all]
      exact ⟨none, rfl, by simp⟩

/-! ### Held or not -/

/-- The first call that a program makes reads no freeze file. -/
def StartsElsewhere {σ α : Type} (inv : Inventory) (p : Ovhost σ α) : Prop :=
  ∀ env w, ∃ event later, (p.run env w).2.trace = w.trace ++ event :: later ∧
    ∀ name, event.call ≠ freezeRead inv name

theorem starts_ask {σ α : Type} {inv : Inventory} {call : Call} {read : Machine.Answer call → α}
    (other : ∀ name, call ≠ freezeRead inv name) :
    StartsElsewhere inv (ask call read : Ovhost σ α) :=
  fun _ _ => ⟨_, [], rfl, other⟩

theorem starts_bind {σ α β : Type} {inv : Inventory} {p : Ovhost σ α} {f : α → Ovhost σ β}
    (starts : StartsElsewhere inv p) : StartsElsewhere inv (p >>= f) := by
  intro env w
  obtain ⟨event, later, trace, other⟩ := starts env w
  cases ran : p.run env w with
  | mk result next =>
    rw [ran] at trace
    cases result with
    | error e => exact ⟨event, later, by rw [bind_eq, run_andThen_error ran]; exact trace, other⟩
    | ok a =>
      obtain ⟨more, onward⟩ := ((f a).onward env next).2
      refine ⟨event, later ++ more, ?_, other⟩
      rw [bind_eq, run_andThen_ok ran, ← onward, trace, List.append_assoc, List.cons_append]

theorem starts_liftM {σ α : Type} {inv : Inventory} {p : Exec α} (starts : StartsElsewhere inv p) :
    StartsElsewhere inv (liftM p : Ovhost σ α) := fun env w => starts env ⟨(), w.clock, w.trace⟩

theorem starts_reject {α : Type} {inv : Inventory} {call : Call}
    {read : Machine.Answer call → Except String α} (other : ∀ name, call ≠ freezeRead inv name) :
    StartsElsewhere inv (Exec.orReject call read) := starts_bind (starts_ask other)

/-- An engine that gets going does more than to read the freeze files. -/
theorem apply_starts (inv : Inventory) (pid : Nat) (svc : Service) (opts : Options) :
    (∃ message, apply inv pid svc .deploy opts = Program.throw (opError message .usage)) ∨
      StartsElsewhere inv (apply inv pid svc .deploy opts) := by
  unfold apply
  split
  · unfold ReleaseLayout.apply
    split
    · exact .inl ⟨_, rfl⟩
    · refine .inr (starts_bind (starts_liftM fun env w => ?_))
      exact starts_bind (starts_reject fun name => by simp) env w
  · unfold applyInPlace
    split
    · exact .inl ⟨_, rfl⟩
    · split
      · exact .inl ⟨_, rfl⟩
      · exact .inr (starts_bind (starts_liftM (starts_ask fun name => by simp)))

section
variable {env : Environment Machine} {inv : Inventory} {pid : Nat} {svc : Service} {opts : Options}
  {w : World Machine Deploy}

/-- The deploy is held by the freeze that it finds at its start, and by no other. -/
theorem held_iff (service : inv.service svc.id = .ok svc) (unforced : opts.force = false) :
    Held env inv pid svc opts w ↔ StoodAtStart env inv svc w := by
  obtain ⟨hold, reads, stood⟩ := frozen_ran env inv svc w
  obtain ⟨more, trace, freezes⟩ := emits_frozen inv svc.id env ⟨(), w.clock, w.trace⟩
  rw [← stood]
  cases ran : Program.run (frozen inv svc.id) env ⟨(), w.clock, w.trace⟩ with
  | mk result next =>
    rw [ran] at reads trace
    obtain rfl : result = .ok hold := reads
    have lifted : (liftM (frozen inv svc.id) : Ops (Option Json)).run env w =
        (.ok hold, ⟨w.own, next.clock, next.trace⟩) := by
      rw [liftM_eq]
      simp only [beside, ran]
    unfold Held deploy
    rw [service]
    change exitCode ((andThen (liftM (frozen inv svc.id)) _).run env w).1 = _ ∧
      Since w.trace _ ((andThen (liftM (frozen inv svc.id)) _).run env w).2 ↔ _
    rw [run_andThen_ok lifted]
    cases hold with
    | some hold =>
      refine iff_of_true ?_ rfl
      dsimp only
      rw [if_pos unforced]
      refine ⟨rfl, more, trace, fun event member => ?_⟩
      obtain ⟨name, listed, same⟩ := List.any_eq_true.mp (freezes event member)
      exact ⟨name, listed, of_decide_eq_true (p := (show Call from event.call) = freezeRead inv name) same⟩
    | none =>
      refine iff_of_false ?_ (by simp)
      rintro ⟨refused, events, all, only⟩
      obtain ⟨message, same⟩ | starts := apply_starts inv pid svc opts
      · rw [same] at refused
        exact absurd (show Exit.usage.code = Exit.frozen.code from refused) (by decide)
      · obtain ⟨event, later, trace', other⟩ := starts env ⟨w.own, next.clock, next.trace⟩
        have both : w.trace ++ events = w.trace ++ (more ++ event :: later) := by
          rw [← all, ← List.append_assoc]
          exact trace'.trans (congrArg (· ++ event :: later) trace)
        obtain rfl := List.append_cancel_left both
        obtain ⟨name, -, same⟩ := only event (by simp)
        exact other name same

/-- A deploy that finds a freeze in time is held by it: exactly where the freeze was there
when the deploy read the freeze files. -/
theorem holds_deploy_iff (service : inv.service svc.id = .ok svc) (unforced : opts.force = false) :
    HoldsDeploy env inv pid svc opts w ↔
      (FrozenInTime env inv pid svc opts w → StoodAtStart env inv svc w) :=
  imp_congr_right fun _ => held_iff service unforced

end

/-! ### A freeze written while a deploy waits -/

def shop : Service where
  id := "shop"
  repo := "/srv/shop"
  owner := "shop"
  runAs := "shop"
  units := ["shop.service"]
  unit_service := by decide
  socket_socket := Service.no_socket
  auxiliary_apart := by decide
  workers_service := Service.no_unit
  workers_apart := by decide
  auxiliary_no_worker := Service.no_auxiliary_worker
  sources_apart := Service.no_source
  sources_named := Service.no_source_named
  laid_out := Service.no_layout

def shopHost : Inventory where
  stateDir := "/var/lib/openvibe-host"
  backupDir := "/var/backups/openvibe"
  backupStagingDir := "/var/backups/openvibe/staging"
  services := [shop]
  backup_absolute := backups_absolute

/-- The host lock is awaited. -/
def awaited (past : List (Event Machine)) : Bool :=
  past.any fun event => match event.call with
    | .acquireDeployLock .. => true
    | _ => false

/-- A release is on its way, and the shop is frozen once the deploy waited for the lock. -/
def frozenMeanwhile : Environment Machine where
  answer past
    | .git _ _ _ .head => { stdout := "aaaaaaaaaaaa" }
    | .git _ _ _ (.revParse _) => { stdout := "bbbbbbbbbbbb" }
    | .git _ _ _ .branch => { stdout := "main" }
    | .git _ _ _ (.changedFiles ..) => { stdout := "server.js" }
    | .readFile path _ => .ok (if path = freezeFile shopHost "shop" ∧ awaited past = true then
        some "\x7b\"service\":\"shop\",\"reason\":\"incident\"\x7d" else none)
    | other => steady other
  takes _ _ := 0

def shopRun : List (Event Machine) := ((deploy shopHost 7 shop.id {}).run frozenMeanwhile fresh).2.trace

theorem holds_deploy_iff_shop : HoldsDeploy frozenMeanwhile shopHost 7 shop {} fresh ↔
    (FrozenInTime frozenMeanwhile shopHost 7 shop {} fresh →
      StoodAtStart frozenMeanwhile shopHost shop fresh) := holds_deploy_iff rfl rfl

/-- The deploy moves the checkout and restarts the shop through the freeze. -/
theorem deploys_through_freeze : ¬ ∀ env inv pid svc opts w, inv.service svc.id = .ok svc →
    opts.force = false → HoldsDeploy env inv pid svc opts w := by
  intro holds
  let calm : Event Machine → Bool := fun event => !changes event.call
  have split : shopRun = shopRun.takeWhile calm ++ shopRun.dropWhile calm :=
    List.takeWhile_append_dropWhile.symm
  have before : ∀ event ∈ shopRun.takeWhile calm, changes event.call = false := fun event member => by
    simpa [calm] using List.mem_takeWhile_imp member
  have stands : Stands frozenMeanwhile shopHost shop (shopRun.takeWhile calm) :=
    ⟨"shop", by simp [shop], by decide +kernel⟩
  have held := holds frozenMeanwhile shopHost 7 shop {} fresh rfl rfl
    ⟨shopRun.takeWhile calm, shopRun.dropWhile calm, split, before, stands⟩
  have refused : exitCode ((deploy shopHost 7 shop.id {}).run frozenMeanwhile fresh).1 = 6 := held.1
  exact absurd refused (by decide +kernel)

end OpenVibeHost.FreezeHold
