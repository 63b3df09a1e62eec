import OpenVibeHost.BackupAll
import OpenVibeHost.EffectLogic

/-! The steps of a backup that leave its log and the archiver's count alone. -/
namespace OpenVibeHost.Backup
open Effects Program

variable {α β : Type}

/-- The calls of these steps. -/
@[grind =] def stepCalls : Machine.Call → Bool
  | .run .. | .readFile .. | .stat _ | .readdir _ | .mkdir .. | .psql .. | .statfs _ => true
  | _ => false

/-- Only such calls, and no error but a plain one. -/
structure Quiet (p : Exec α) : Prop where
  emits : Emits stepCalls p
  plain : ∀ env w e w', Program.run p env w = (.error e, w') → ∃ message, e = .plain message

/-! ### A rule for each construct -/

@[grind ←] theorem quiet_pure (a : α) : Quiet (pure a : Exec α) := ⟨emits_pure a, fun _ _ _ _ ran => nomatch ran⟩

@[grind ←] theorem quiet_now : Quiet (now : Exec Nat) := ⟨emits_now, fun _ _ _ _ ran => nomatch ran⟩

@[grind ←] theorem quiet_throw (message : String) : Quiet (throw (.plain message) : Exec α) := by
  refine ⟨emits_throw _, fun env w e w' ran => ?_⟩
  rw [run_throw] at ran
  obtain ⟨same, -⟩ := Prod.mk.inj ran
  exact ⟨message, (Except.error.inj same).symm⟩

@[grind ←] theorem quiet_bind {p : Exec α} {f : α → Exec β} (first : Quiet p) (second : ∀ a, Quiet (f a)) :
    Quiet (p >>= f) := by
  refine ⟨emits_bind first.emits fun a => (second a).emits, fun env w e w' ran => ?_⟩
  rcases run_bind ran with ⟨e', failed, same⟩ | ⟨a, next, -, after⟩
  · obtain rfl := Except.error.inj same
    exact first.plain env w e w' failed
  · exact (second a).plain env next e w' after

@[grind ←] theorem quiet_andThen {p : Exec α} {f : α → Exec β} (first : Quiet p) (second : ∀ a, Quiet (f a)) :
    Quiet (andThen p f) := quiet_bind first second

@[grind ←] theorem quiet_ask {call : Machine.Call} {read : Machine.Answer call → α} (allowed : stepCalls call = true) :
    Quiet (ask call read : Exec α) := ⟨emits_ask allowed, fun _ _ _ _ ran => nomatch ran⟩

theorem emits_rejecting {calls : Machine.Call → Bool} {call : Machine.Call}
    {read : Machine.Answer call → Except String α} (allowed : calls call = true) :
    Emits calls (Exec.orReject call read) := by
  refine emits_bind (emits_ask allowed) fun answer => ?_
  cases answer with
  | ok value => exact emits_pure value
  | error message => exact emits_throw _

@[grind ←] theorem quiet_orReject {call : Call} {read : Machine.Answer call → Except String α}
    (allowed : stepCalls call = true) : Quiet (Exec.orReject call read) := by
  refine quiet_bind (quiet_ask allowed) fun answer => ?_
  cases answer with
  | ok value => exact quiet_pure value
  | error message => exact quiet_throw message

@[grind ←] theorem quiet_run (cmd : String) (args : List String) (options : RunOptions) :
    Quiet (Exec.run cmd args options) := quiet_ask rfl

@[grind ←] theorem quiet_fold {items : List α} {b : β} {turn : β → α → Exec β}
    (each : ∀ carried, ∀ item ∈ items, Quiet (turn carried item)) : Quiet (fold items b turn) := by
  induction items generalizing b with
  | nil => exact quiet_pure b
  | cons item rest ih =>
    exact quiet_andThen (each b item List.mem_cons_self)
      fun next => ih fun carried later member => each carried later (List.mem_cons_of_mem _ member)

@[grind ←] theorem quiet_forEach {items : List α} {turn : α → Exec Unit}
    (each : ∀ item ∈ items, Quiet (turn item)) : Quiet (forEach items turn) := by
  induction items with
  | nil => exact quiet_pure ()
  | cons item rest ih =>
    exact quiet_andThen (each item List.mem_cons_self)
      fun _ => ih fun later member => each later (List.mem_cons_of_mem _ member)

@[grind ←] theorem quiet_whenever {condition : Prop} [Decidable condition] {p : Exec Unit}
    (quiet : condition → Quiet p) : Quiet (whenever condition p) := by
  unfold whenever
  split
  · exact quiet ‹_›
  · exact quiet_pure ()

@[grind ←] theorem quiet_ensure {p : Exec α} {last : Exec Unit} (first : Quiet p) (second : Quiet last) :
    Quiet (ensure p last) := by
  refine ⟨emits_ensure first.emits second.emits, fun env w e w' ran => ?_⟩
  obtain ⟨r, next, done, ⟨-, same⟩ | ⟨e', failed, same⟩⟩ := run_ensure ran
  · exact first.plain env w e next (same ▸ done)
  · obtain rfl := Except.error.inj same
    exact second.plain env next e w' failed

/-- A quiet step keeps what its calls do not undo. -/
theorem Quiet.meets {env : Environment Machine} {base : List (Event Machine)} {p : Exec α} (quiet : Quiet p)
    {K : List (Event Machine) → Prop}
    (sees : ∀ more event, stepCalls event.call = true → K more → K (more ++ [event])) :
    Meets env (Since base fun more _ => K more) p (fun _ => Since base fun more _ => K more)
      (fun e => Since base fun more _ => K more ∧ ∃ message, e = .plain message) := by
  intro w since
  have kept : Meets env (Since base fun more _ => K more) p (fun _ => Since base fun more _ => K more)
    (fun _ => Since base fun more _ => K more) := quiet.emits.meets_events sees
  have ended := kept w since
  have plain := quiet.plain env w
  cases ran : Program.run p env w with
  | mk result next =>
    rw [ran] at ended plain
    cases result with
    | ok a => exact ended
    | error e =>
      have since : Since base (fun more _ => K more) next := ended
      have thrown : Since base (fun more _ => K more ∧ ∃ message, e = .plain message) next :=
        since.mono fun _ _ now => ⟨now, plain e next rfl⟩
      exact thrown

/-! ### The steps -/

theorem quiet_lockDown (path mode : String) : Quiet (lockDown path mode) := by
  unfold lockDown
  grind

theorem quiet_privateDir (path : String) : Quiet (privateDir path) := by
  unfold privateDir
  grind [quiet_lockDown]

theorem quiet_dumpOne (dir stage : String) (db : Database) : Quiet (dumpOne dir stage db) := by
  unfold dumpOne
  grind

theorem quiet_shortOfSpace (inv : Inventory) (sourceBytes : Option Nat) : Quiet (shortOfSpace inv sourceBytes) := by
  cases sourceBytes with
  | none => exact quiet_pure _
  | some bytes => exact quiet_bind (quiet_orReject rfl) fun _ => quiet_pure _

theorem quiet_archiveOne (inv : Inventory) (dir stage : String) (obj : ObjectDirectory) :
    Quiet (archiveOne inv dir stage obj) := by
  unfold archiveOne
  refine quiet_bind (by grind) fun st => ?_
  split
  · exact quiet_pure _
  · refine quiet_bind (by grind) fun du => quiet_bind (quiet_shortOfSpace _ _) fun short => ?_
    split
    · exact quiet_pure _
    · grind

theorem quiet_checkCopy (stage : String) (f : BackupFile) : Quiet (checkCopy stage f) := by
  unfold checkCopy
  split
  · refine quiet_bind (by grind) fun st => ?_
    split
    · grind [quiet_lockDown]
    · exact quiet_pure _
  · exact quiet_pure _

theorem quiet_clearStage (stage : String) : Quiet (clearStage stage) := by
  unfold clearStage
  grind

theorem quiet_copyAll (inv : Inventory) (svc : Service) (due : Bool) (dir stage : String) :
    Quiet (copyAll inv svc due dir stage) := by
  unfold copyAll
  refine quiet_bind (quiet_fold fun files db _ => quiet_bind (quiet_dumpOne _ _ _) fun _ => quiet_pure _) fun dumps => ?_
  refine quiet_bind (quiet_lockDown _ _) fun _ => ?_
  refine quiet_bind (quiet_fold fun files obj _ => quiet_bind (quiet_archiveOne _ _ _ _) fun _ => quiet_pure _)
    fun made => ?_
  refine quiet_bind (quiet_fold fun files f _ => quiet_bind (quiet_checkCopy _ _) fun _ => quiet_pure _) fun files => ?_
  refine quiet_bind (quiet_ask rfl) fun listed => ?_
  refine quiet_bind (quiet_forEach fun e _ => by grind) fun _ => quiet_bind (quiet_whenever fun _ => ?_) fun _ => by grind
  refine quiet_bind (quiet_run _ _ _) fun mv => ?_
  split
  · exact quiet_throw _
  · exact quiet_lockDown _ _

theorem quiet_verifyPgBackRest : Quiet verifyPgBackRest := by
  unfold verifyPgBackRest
  refine quiet_bind quiet_now fun t => quiet_bind (quiet_run _ _ _) fun r => ?_
  split
  · exact quiet_throw _
  · split
    · exact quiet_throw _
    · dsimp only
      split
      · exact quiet_throw _
      · split
        · exact quiet_throw _
        · split
          · exact quiet_throw _
          · split
            · exact quiet_throw _
            · exact quiet_pure _

theorem recordedIn_plain {base : String} {recs : List Json} {e : Failure} (failed : recordedIn base recs = .error e) :
    ∃ message, e = .plain message := by
  induction recs with
  | nil => exact nomatch failed
  | cons r rest ih =>
    unfold recordedIn at failed
    split at failed
    · exact nomatch failed
    · rename_i wrong
      obtain rfl := Except.error.inj failed
      unfold nameIn at wrong
      split at wrong
      · exact nomatch wrong
      · exact ⟨_, (Except.error.inj wrong).symm⟩
    · rename_i later _
      obtain rfl := Except.error.inj failed
      exact ih later

theorem quiet_prune (inv : Inventory) (service : String) (daily weekly : Nat) :
    Quiet (prune inv service daily weekly) := by
  unfold prune records
  refine quiet_bind (by grind) fun listed => quiet_bind (by grind) fun recs => quiet_bind ?_ fun recorded => ?_
  · refine ⟨emits_orThrow _, fun env w e w' ran => ?_⟩
    unfold orThrow at ran
    split at ran
    · exact nomatch ran
    · rename_i failed
      rw [run_throw] at ran
      obtain ⟨same, -⟩ := Prod.mk.inj ran
      obtain rfl := Except.error.inj same
      exact recordedIn_plain failed
  · refine quiet_bind (quiet_forEach fun d _ => ?_) fun _ => quiet_pure _
    unfold removeOne
    grind

/-! ### A backup in two parts -/

/-- Makes the copies: the directory and the entries. -/
def stageCopies (inv : Inventory) (svc : Service) (due : Bool) : Exec (String × List BackupFile) := do
  let st := Dates.stamp (← now)
  let dir := joinPath (joinPath inv.backupDir svc.id) st
  if (← Exec.stat dir).isSome then
    throw (.plain (dir ++ " already exists; a backup never overwrites another"))
  else
    privateDir inv.backupDir
    privateDir (joinPath inv.backupDir svc.id)
    Exec.mkdir inv.backupStagingDir (some "root")
    lockDown inv.backupStagingDir "0711"
    let stage := joinPath inv.backupStagingDir (svc.id ++ "-" ++ st)
    clearStage stage
    Exec.mkdir stage (some (if svc.databases ≠ [] then pgUser else "root"))
    let files ← ensure (copyAll inv svc due dir stage) (clearStage stage)
    return (dir, files)

/-- The record of some copies. -/
def copiesRecord (svc : Service) (reason : String) (verified : Option Verified) (dir : String)
    (files : List BackupFile) (at' : Nat) : BackupRecord where
  service := svc.id
  madeAt := some (Dates.isoString at')
  reason
  engine := engineOf svc
  good := (files.filter (·.error.isSome)).isEmpty && files.any copied
  dir := some dir
  files
  verified

/-- Records the copies; a failed one is an error that carries the record. -/
def recordCopies (inv : Inventory) (svc : Service) (reason : String) (verified : Option Verified) (dir : String)
    (files : List BackupFile) : Exec BackupRecord := do
  let record := copiesRecord svc reason verified dir files (← now)
  appendRecord inv svc.id record
  if files.filter (·.error.isSome) ≠ [] then
    throw (.backup ("; ".intercalate ((files.filter (·.error.isSome)).map fun f => f.name ++ ": " ++ f.error.getD ""))
      record)
  else return record

theorem makeCopies_eq (inv : Inventory) (svc : Service) (reason : String) (due : Bool) (verified : Option Verified) :
    makeCopies inv svc reason due verified =
      (stageCopies inv svc due >>= fun made => recordCopies inv svc reason verified made.1 made.2) := by
  unfold makeCopies stageCopies recordCopies
  rw [bind_assoc]
  congr 1
  funext t
  dsimp only
  rw [bind_assoc]
  congr 1
  funext there
  split
  · rfl
  · simp only [bind_assoc, pure_bind, copiesRecord]

theorem quiet_stageCopies (inv : Inventory) (svc : Service) (due : Bool) : Quiet (stageCopies inv svc due) := by
  unfold stageCopies
  refine quiet_bind quiet_now fun t => quiet_bind (quiet_ask rfl) fun there => ?_
  split
  · exact quiet_throw _
  · refine quiet_bind (quiet_privateDir _) fun _ => quiet_bind (quiet_privateDir _) fun _ => ?_
    refine quiet_bind (quiet_orReject rfl) fun _ => quiet_bind (quiet_lockDown _ _) fun _ => ?_
    refine quiet_bind (quiet_clearStage _) fun _ => quiet_bind (quiet_orReject rfl) fun _ => ?_
    exact quiet_bind (quiet_ensure (quiet_copyAll _ _ _ _ _) (quiet_clearStage _)) fun files => quiet_pure _

end OpenVibeHost.Backup
