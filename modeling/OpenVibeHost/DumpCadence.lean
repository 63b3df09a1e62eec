import OpenVibeHost.BackupOutcomes
import OpenVibeHost.IsoDates
import OpenVibeHost.TornAppends

/-! When the logical dumps of a service are made, over a history of its backups: whether one is due
is read from the service's log, whatever databases the service had when the last was made. -/
namespace OpenVibeHost.Backup
open Effects Program Dates
open Releases (linesOf_line)

/-! ### The log as it is read -/

/-- What a log of some lines holds. -/
def logText (lines : List String) : String := String.ofList (lines.flatMap String.toList)

/-- What is read of a record that was written. -/
structure ReadBack (r read : BackupRecord) : Prop where
  good : read.good = r.good
  madeAt : read.madeAt = r.madeAt
  files : read.files = r.files.map fun f => readFileEntry (BackupFile.json f)

/-- A field that is there where its value is. -/
theorem find_option {α : Type} (value : Option α) (name key : String) (json : α → Json) :
    (value.map fun v => (name, json v)).toList.reverse.find? (fun field => decide (field.1 = key)) =
      if name = key then value.map fun v => (name, json v) else none := by
  cases value with
  | none => simp
  | some v => by_cases same : name = key <;> simp [same]

theorem readFileEntry_json (f : BackupFile) : (readFileEntry (BackupFile.json f)).name = f.name ∧
    (readFileEntry (BackupFile.json f)).source = f.source ∧ (readFileEntry (BackupFile.json f)).file = f.file := by
  unfold readFileEntry BackupFile.json Json.field
  simp only [List.reverse_append, List.find?_append, find_option]
  cases file : f.file <;> simp [stringOf]

/-- A record is read as it was written. -/
theorem readRecord_written {r : BackupRecord} (dated : r.madeAt ≠ some "") :
    ∃ read, readRecord (Json.stringify (recordJson r)) = some read ∧ ReadBack r read := by
  have at' : textOf (some (Json.ofText r.madeAt)) = r.madeAt := by
    cases made : r.madeAt with
    | none => rfl
    | some text => exact if_pos fun empty => dated (by rw [made, empty])
  unfold readRecord
  rw [Json.parse_written _ (decimal_record r)]
  refine ⟨_, rfl, ⟨?_, ?_, ?_⟩⟩
  all_goals
    unfold recordJson Json.field
    simp only [List.reverse_append, List.find?_append, find_option]
  · cases r.good <;> simp
  · simpa using at'
  · simp

theorem readLog_lines (rs : List BackupRecord) :
    readLog (some (logText (rs.map logLine))) = rs.filterMap fun r => readRecord (Json.stringify (recordJson r)) := by
  have lines : linesOf (logText (rs.map logLine)) = rs.map fun r => Json.stringify (recordJson r) := by
    induction rs with
    | nil => rfl
    | cons r rest ih =>
      have some' : (Json.stringify (recordJson r)).toList ≠ [] :=
        List.ne_nil_of_length_pos (Json.length_opens (Json.opens_stringify _))
      have split : logText ((r :: rest).map logLine) =
          String.ofList ((Json.stringify (recordJson r)).toList ++ '\n' :: (rest.map logLine).flatMap String.toList) := by
        simp [logText, logLine]
      rw [split, linesOf_line (Json.newline_stringify _) some', String.ofList_toList, List.map_cons]
      exact congrArg _ ih
  rw [readLog, Option.getD_some, lines, List.filterMap_map]
  rfl

/-! ### The histories -/

/-- A record has the dump of a database. -/
def Holds (r : BackupRecord) (db : Database) : Prop :=
  ∃ f ∈ r.files, f.name = db.name ∧ f.source = db.database ∧ f.file = some (fileName db)

/-- Among the records is a good one with a dump of the database that is at most `limit` old. -/
def Fresh (records : List BackupRecord) (now limit : Nat) (db : Database) : Prop :=
  ∃ r ∈ records, r.good = true ∧ Holds r db ∧
    ∃ made : Int, r.madeAt.bind dateParse = some made ∧ (now : Int) - made ≤ limit

/-- What the log of a service holds after some events, that was empty before them. -/
def logAfter (inv : Inventory) (id : String) (events : List (Event Machine)) : String :=
  logText (appended inv id events)

/-- The log is read as it was appended to. -/
def LogKept (env : Environment Machine) (inv : Inventory) (id : String) : Prop :=
  ∀ (past : List (Event Machine)) (text : Option String),
    env.answer past (.readFile (logPath inv id) false) = .ok text → text.getD "" = logAfter inv id past

/-- The records of the log, as a backup reads them. -/
def recordsAt (inv : Inventory) (id : String) (w : World Machine Unit) : List BackupRecord :=
  readLog (some (logAfter inv id w.trace))

/-- A dump is due, or the last one that the log knows has every database of the service. -/
def Covered (inv : Inventory) (svc : Service) (logical : Bool) (w : World Machine Unit) : Prop :=
  dumpDue (recordsAt inv svc.id w) w.clock logical = true ∨ ∀ db ∈ svc.databases,
    ∃ r, (recordsAt inv svc.id w).reverse.find? holdsDump = some r ∧ Holds r db

/-- A history of successful backups of a service, whatever it declares in each: the worlds it
reaches. `home` says where the log is; other things happen between two backups. -/
inductive Nights (env : Environment Machine) (home : Inventory) (id : String) : World Machine Unit → Prop
  | start {w : World Machine Unit} (empty : appended home id w.trace = []) : Nights env home id w
  | between {w w' : World Machine Unit} {events : List (Event Machine)} (before : Nights env home id w)
      (onward : w'.trace = w.trace ++ events) (other : appended home id events = []) : Nights env home id w'
  | backup {w final : World Machine Unit} {inv : Inventory} {svc : Service} {reason : String} {logical : Bool}
      {r : BackupRecord} (before : Nights env home id w) (same : inv.stateDir = home.stateDir ∧ svc.id = id)
      (ran : Program.run (backup inv svc reason logical) env w = (.ok r, final)) : Nights env home id final

/-! ### One backup -/

section
variable {env : Environment Machine} {inv : Inventory} {svc : Service} {id : String} {α : Type}
  {start : World Machine Unit} {logical : Bool}

/-- Since `start` nothing was added to the log. -/
def Pending (inv : Inventory) (id : String) (start w : World Machine Unit) : Prop :=
  start.clock ≤ w.clock ∧ ∃ events, w.trace = start.trace ++ events ∧ appended inv id events = []

/-- The log that was read since `start` says that no dump is due. -/
def NotDue (env : Environment Machine) (inv : Inventory) (id : String) (logical : Bool) (start : World Machine Unit) :
    Prop :=
  ∃ (events : List (Event Machine)) (text : Option String) (t : Nat), appended inv id events = [] ∧
    env.answer (start.trace ++ events) (.readFile (logPath inv id) false) = .ok text ∧ start.clock ≤ t ∧
      dumpDue (readLog text) t logical = false

/-- What a successful backup adds to the log. -/
structure Logged (env : Environment Machine) (inv : Inventory) (svc : Service) (logical : Bool)
    (start final : World Machine Unit) (r : BackupRecord) : Prop where
  line : ∃ events, final.trace = start.trace ++ events ∧ appended inv svc.id events = [logLine r]
  dated : ∃ t, r.madeAt = some (isoString t) ∧ start.clock ≤ t ∧ t ≤ final.clock
  dumps : svc.databases ≠ [] →
    (r.good = true ∧ ∀ db ∈ svc.databases, Holds r db) ∨ NotDue env inv svc.id logical start

theorem appended_append (first second : List (Event Machine)) :
    appended inv id (first ++ second) = appended inv id first ++ appended inv id second := by simp [appended]

/-- Calls that do not append leave the log alone. -/
theorem meets_pending_of_emits {calls : Machine.Call → Bool} {p : Exec α} (emits : Emits calls p)
    (unlogged : ∀ event : Event Machine, calls event.call = true → appended inv id [event] = []) :
    Meets env (Pending inv id start) p (fun _ => Pending inv id start) (fun _ => Pending inv id start) := by
  rintro w ⟨later, events, split, none'⟩
  have kept : Meets env (Since start.trace fun more _ => appended inv id more = []) p
      (fun _ => Since start.trace fun more _ => appended inv id more = [])
      (fun _ => Since start.trace fun more _ => appended inv id more = []) :=
    emits.meets_events fun more event allowed now => by rw [appended_append, now, unlogged event allowed]; rfl
  have clock := (p.onward env w).1
  have ended := kept w ⟨events, split, none'⟩
  cases ran : Program.run p env w with
  | mk result next =>
    rw [ran] at clock ended
    cases result with
    | ok a =>
      obtain ⟨more, trace, now⟩ := ended
      exact ⟨later.trans clock, more, trace, now⟩
    | error e =>
      obtain ⟨more, trace, now⟩ := ended
      exact ⟨later.trans clock, more, trace, now⟩

theorem Quiet.meets_pending {p : Exec α} (quiet : Quiet p) :
    Meets env (Pending inv id start) p (fun _ => Pending inv id start) (fun _ _ => True) :=
  (meets_pending_of_emits quiet.emits fun _ step => unlogged_step step).weaken (fun _ h => h) (fun _ _ h => h)
    fun _ _ _ => trivial

/-- The log is read, or the read fails. -/
theorem meets_readLog : Meets env (Pending inv id start) (Exec.readFile (logPath inv id))
    (fun text w => Pending inv id start w ∧ ∃ events, appended inv id events = [] ∧
      env.answer (start.trace ++ events) (.readFile (logPath inv id) false) = .ok text) (fun _ _ => True) := by
  unfold Exec.readFile Exec.orReject
  refine meets_bind (M := fun answer w => Pending inv id start w ∧ ∃ events, appended inv id events = [] ∧
    env.answer (start.trace ++ events) (.readFile (logPath inv id) false) = answer) ?_ fun answer => ?_
  · intro w pending
    have asked : Quiet (ask (S := Machine) (.readFile (logPath inv id) false) fun answer => answer) := quiet_ask rfl
    exact ⟨asked.meets_pending w pending, pending.2.imp fun events is => ⟨is.2, by rw [← is.1]⟩⟩
  · cases answer with
    | ok text => exact meets_ret fun _ h => h
    | error message => exact meets_throw fun _ _ => trivial

/-- An entry of a database's dump, made or failed. -/
def DumpOf (db : Database) (f : BackupFile) : Prop :=
  f.name = db.name ∧ f.source = db.database ∧ f.dest.isSome = true ∧ (f.error = none → f.file = some (fileName db))

theorem meets_dumpOne_of (dir stage : String) (db : Database) :
    Meets env (fun _ => True) (dumpOne dir stage db) (fun f _ => DumpOf db f) (fun _ _ => True) := by
  unfold dumpOne
  refine meets_bind (M := fun _ _ => True) (fun _ _ => trivial) fun r => ?_
  split
  · exact meets_pure fun _ _ => ⟨rfl, rfl, rfl, nofun⟩
  · exact meets_pure fun _ _ => ⟨rfl, rfl, rfl, fun _ => rfl⟩

/-- A check keeps what an entry says, or adds an error. -/
theorem meets_checkCopy_of (stage : String) (f : BackupFile) :
    Meets env (fun _ => True) (checkCopy stage f) (fun f' _ => ∀ db, DumpOf db f → DumpOf db f') (fun _ _ => True) := by
  unfold checkCopy
  split
  · rename_i file named sound
    have failed (error : String) : ∀ db, DumpOf db f → DumpOf db { f with error := some error } :=
      fun _ ⟨name, source, dest, _⟩ => ⟨name, source, dest, nofun⟩
    refine meets_bind (M := fun _ _ => True) (fun _ _ => trivial) fun st => ?_
    split
    · split
      · exact meets_bind (meets_anyhow _) fun _ => meets_pure fun _ _ _ is => is
      · exact meets_pure fun _ _ => failed _
    · exact meets_pure fun _ _ => failed _
  · exact meets_pure fun _ _ _ is => is

/-- The entries have one for the dump of each database. -/
def DumpsOf (databases : List Database) (files : List BackupFile) : Prop :=
  ∀ db ∈ databases, ∃ f ∈ files, DumpOf db f

theorem DumpsOf.append {databases : List Database} {files : List BackupFile} (dumps : DumpsOf databases files)
    (more : List BackupFile) : DumpsOf databases (files ++ more) := fun db member =>
  let ⟨f, among, is⟩ := dumps db member
  ⟨f, List.mem_append_left _ among, is⟩

theorem meets_copyAll_of (dir stage : String) :
    Meets env (fun _ => True) (copyAll inv svc true dir stage) (fun files _ => DumpsOf svc.databases files)
      (fun _ _ => True) := by
  unfold copyAll
  refine meets_bind (M := fun dumps _ => DumpsOf svc.databases dumps) ?_ fun dumps => ?_
  · refine (meets_fold_upto (I := fun done files _ => DumpsOf done files) fun done db files _ => ?_).weaken
      (fun _ _ => nofun) (fun _ _ h => h) fun _ _ h => h
    refine meets_given (fun _ known => known) fun known => ?_
    refine meets_bind ((meets_dumpOne_of dir stage db).weaken (fun _ _ => trivial) (fun _ _ h => h) fun _ _ h => h)
      fun f => meets_pure fun _ is other member => ?_
    obtain before | last := List.mem_append.mp member
    · exact known.append [f] other before
    · obtain rfl := List.mem_singleton.mp last
      exact ⟨f, by simp, is⟩
  refine meets_given (fun _ known => known) fun dumped => ?_
  refine meets_bind (M := fun _ _ => True) (meets_anyhow _) fun _ => ?_
  refine meets_bind (M := fun made _ => DumpsOf svc.databases made) ?_ fun made => ?_
  · refine (meets_fold (I := fun files _ => DumpsOf svc.databases files) fun files obj _ => ?_).weaken
      (fun _ _ => dumped) (fun _ _ h => h) fun _ _ h => h
    refine meets_given (fun _ known => known) fun known => ?_
    exact meets_bind (meets_anyhow _) fun f => meets_pure fun _ _ => known.append [f]
  refine meets_given (fun _ known => known) fun archived => ?_
  refine meets_bind (M := fun files _ => DumpsOf svc.databases files) ?_ fun files => ?_
  · refine (meets_fold_upto (I := fun done files _ => ∀ db, (∃ f ∈ done, DumpOf db f) → ∃ f ∈ files, DumpOf db f)
      fun done f files _ => ?_).weaken (fun _ _ _ => nofun) (fun files _ kept db member => kept db (archived db member))
      fun _ _ h => h
    refine meets_given (fun _ known => known) fun known => ?_
    refine meets_bind ((meets_checkCopy_of stage f).weaken (fun _ _ => trivial) (fun _ _ h => h) fun _ _ h => h)
      fun f' => meets_pure fun _ kept db => ?_
    rintro ⟨g, member, is⟩
    obtain before | last := List.mem_append.mp member
    · obtain ⟨f'', among, is'⟩ := known db ⟨g, before, is⟩
      exact ⟨f'', List.mem_append_left _ among, is'⟩
    · obtain rfl := List.mem_singleton.mp last
      exact ⟨f', by simp, kept db is⟩
  · refine meets_given (fun _ known => known) fun checked => ?_
    refine meets_bind (M := fun _ _ => True) (meets_anyhow _) fun left => ?_
    refine meets_bind (M := fun _ _ => True) (meets_anyhow _) fun _ => ?_
    refine meets_bind (M := fun _ _ => True) (meets_anyhow _) fun _ => ?_
    exact meets_pure fun _ _ => checked

theorem meets_stageCopies_of (due : Bool) :
    Meets env (fun _ => True) (stageCopies inv svc due)
      (fun made _ => due = true → DumpsOf svc.databases made.2) (fun _ _ => True) := by
  unfold stageCopies
  refine meets_bind (M := fun _ _ => True) (meets_anyhow _) fun t => ?_
  refine meets_bind (M := fun _ _ => True) (meets_anyhow _) fun there => ?_
  split
  · exact meets_throw fun _ _ => trivial
  refine meets_bind (M := fun _ _ => True) (meets_anyhow _) fun _ => ?_
  refine meets_bind (M := fun _ _ => True) (meets_anyhow _) fun _ => ?_
  refine meets_bind (M := fun _ _ => True) (meets_anyhow _) fun _ => ?_
  refine meets_bind (M := fun _ _ => True) (meets_anyhow _) fun _ => ?_
  refine meets_bind (M := fun _ _ => True) (meets_anyhow _) fun _ => ?_
  refine meets_bind (M := fun _ _ => True) (meets_anyhow _) fun _ => ?_
  refine meets_bind (M := fun files _ => due = true → DumpsOf svc.databases files) ?_ fun files => meets_pure fun _ h => h
  have made : Meets env (fun _ => True) (copyAll inv svc due
        (joinPath (joinPath inv.backupDir svc.id) (stamp t)) (joinPath inv.backupStagingDir (svc.id ++ "-" ++ stamp t)))
      (fun files _ => due = true → DumpsOf svc.databases files) (fun _ _ => True) := by
    cases due with
    | true => exact (meets_copyAll_of _ _).weaken (fun _ h => h) (fun _ _ h _ => h) fun _ _ h => h
    | false => exact (meets_anyhow _).weaken (fun _ h => h) (fun _ _ _ => nofun) fun _ _ h => h
  refine meets_ensure made (fun files => ?_) fun e => meets_anyhow _
  exact meets_given (fun _ known => known) fun known =>
    (meets_anyhow _).weaken (fun _ _ => trivial) (fun _ _ _ => known) fun _ _ _ => trivial

theorem meets_appendRecord_logged (r : BackupRecord) {t : Nat} :
    Meets env (fun w => Pending inv id start w ∧ t ≤ w.clock) (appendRecord inv id r)
      (fun _ w => (∃ events, w.trace = start.trace ++ events ∧ appended inv id events = [logLine r]) ∧ t ≤ w.clock)
      (fun _ _ => True) := by
  unfold appendRecord Exec.appendFile Exec.orReject
  refine meets_bind (M := fun answer w => ∃ events clock, appended inv id events = [] ∧ t ≤ w.clock ∧
    w.trace = start.trace ++ (events ++ [⟨.appendFile (logPath inv id) (logLine r), answer, clock⟩])) ?_ fun answer => ?_
  · rintro w ⟨⟨-, events, split, none'⟩, late⟩
    exact ⟨events, _, none', Nat.le_trans late (Nat.le_add_right w.clock _),
      (congrArg (· ++ _) split).trans (List.append_assoc _ _ _)⟩
  · cases answer with
    | ok done =>
      refine meets_ret fun w ⟨events, clock, none', late, split⟩ => ⟨⟨_, split, ?_⟩, late⟩
      rw [appended_append, none']
      simp [appended]
    | error message => exact meets_throw fun _ _ => trivial

/-- The clock is read. -/
theorem meets_now_pending : Meets env (Pending inv id start) (now : Exec Nat)
    (fun t w => (Pending inv id start w ∧ t ≤ w.clock) ∧ start.clock ≤ t) (fun _ _ => True) :=
  meets_now fun _ pending => ⟨⟨pending, Nat.le_refl _⟩, pending.1⟩

theorem meets_recordCopies_logged (reason : String) (verified : Option Verified) (dir : String)
    {files : List BackupFile} (dumps : svc.databases ≠ [] → DumpsOf svc.databases files ∨ NotDue env inv svc.id logical start) :
    Meets env (Pending inv svc.id start) (recordCopies inv svc reason verified dir files)
      (fun r w => Logged env inv svc logical start w r) (fun _ _ => True) := by
  unfold recordCopies
  refine meets_bind meets_now_pending fun t => meets_given (fun _ known => known.2) fun later => ?_
  refine meets_bind ((meets_appendRecord_logged _).weaken (fun _ h => h.1) (fun _ _ h => h) fun _ _ h => h) fun _ => ?_
  split
  · exact meets_throw fun _ _ => trivial
  · rename_i sound
    have sound : ∀ f ∈ files, f.error = none := by simpa using sound
    refine meets_pure fun w ⟨line, late⟩ => ⟨line, ⟨t, rfl, later, late⟩, fun some' => ?_⟩
    refine (dumps some').imp_left fun dumped => ⟨?_, fun db member => ?_⟩
    · obtain ⟨db, member⟩ := List.exists_mem_of_ne_nil _ some'
      obtain ⟨f, among, -, -, dest, -⟩ := dumped db member
      have all : files.filter (·.error.isSome) = [] := by simpa using sound
      have copy : files.any copied = true := List.any_eq_true.mpr ⟨f, among, by simp [copied, dest, sound f among]⟩
      simp [copiesRecord, all, copy]
    · obtain ⟨f, among, name, source, -, file⟩ := dumped db member
      exact ⟨f, among, name, source, file (sound f among)⟩

theorem meets_verify_pending :
    Meets env (Pending inv id start) (verifyPostgres inv) (fun _ => Pending inv id start) (fun _ => Pending inv id start) := by
  refine meets_pending_of_emits emits_verifyPostgres fun event quiet => ?_
  obtain ⟨call, answer, clock⟩ := event
  cases call <;> first | rfl | exact nomatch quiet

/-- What a successful backup adds to the log. -/
theorem meets_backup_logged (reason : String) :
    Meets env (fun w => w = start) (backup inv svc reason logical) (fun r w => Logged env inv svc logical start w r)
      (fun _ _ => True) := by
  unfold backup
  refine (?_ : Meets env (Pending inv svc.id start) _ _ _).weaken
    (fun _ same => same ▸ ⟨Nat.le_refl _, [], (List.append_nil _).symm, rfl⟩) (fun _ _ h => h) fun _ _ h => h
  refine meets_ite (fun _ => meets_throw fun _ _ => trivial) fun _ => ?_
  refine meets_bind (M := fun _ => Pending inv svc.id start) ?_ fun verified => ?_
  · split
    · exact meets_map (meets_verify_pending.weaken (fun _ h => h) (fun _ _ h => h) fun _ _ _ => trivial)
    · exact meets_pure fun _ h => h
  refine meets_ite (fun _ => ?_) fun _ => ?_
  · exact (meets_bind (M := fun _ _ => True) (meets_anyhow _) fun _ => meets_bind (M := fun _ _ => True)
      (meets_anyhow _) fun _ => meets_throw fun _ _ => trivial)
  refine meets_bind (M := fun due w => Pending inv svc.id start w ∧
    (svc.databases ≠ [] → due = true ∨ NotDue env inv svc.id logical start)) ?_ fun due => ?_
  · split
    · refine meets_bind meets_readLog fun text => meets_given (fun _ known => known.2) fun ⟨events, none', read⟩ => ?_
      refine meets_bind (meets_now_pending.weaken (fun _ h => h.1) (fun _ _ h => h) fun _ _ h => h) fun t =>
        meets_pure fun w ⟨⟨pending, _⟩, later⟩ => ⟨pending, fun _ => ?_⟩
      cases due : dumpDue (readLog text) t logical with
      | true => exact .inl rfl
      | false => exact .inr ⟨events, text, t, none', read, later, due⟩
    · rename_i none'
      exact meets_pure fun _ pending => ⟨pending, fun some' => absurd some' none'⟩
  refine meets_given (fun _ known => known.2) fun decided => ?_
  refine meets_ite (fun verifyOnly => ?_) fun _ => ?_
  · refine meets_bind ((meets_now_pending).weaken (fun _ h => h.1) (fun _ _ h => h) fun _ _ h => h) fun t =>
      meets_given (fun _ known => known.2) fun later => ?_
    refine meets_bind ((meets_appendRecord_logged _).weaken (fun _ h => h.1) (fun _ _ h => h) fun _ _ h => h) fun _ => ?_
    refine meets_pure fun w ⟨line, late⟩ => ⟨line, ⟨t, rfl, later, late⟩, fun some' => .inr ?_⟩
    exact (decided some').resolve_left (by simp [verifyOnly.1])
  · rw [makeCopies_eq]
    refine meets_bind (M := fun made w => Pending inv svc.id start w ∧ (due = true → DumpsOf svc.databases made.2)) ?_
      fun made => meets_given (fun _ known => known.2) fun dumps => ?_
    · exact ((quiet_stageCopies inv svc due).meets_pending.and ((meets_stageCopies_of due).weaken (fun _ _ => trivial)
        (fun _ _ h => h) fun _ _ _ => trivial)).weaken (fun _ h => h.1) (fun _ _ h => h) fun _ _ _ => trivial
    · exact (meets_recordCopies_logged reason verified made.1 fun some' => (decided some').imp_left dumps).weaken
        (fun _ h => h.1) (fun _ _ h => h) fun _ _ h => h

end

/-! ### Over a history -/

section
variable {env : Environment Machine} {home inv : Inventory} {svc : Service} {id : String} {w final : World Machine Unit}

theorem logged_of_ran {reason : String} {logical : Bool} {r : BackupRecord}
    (ran : Program.run (backup inv svc reason logical) env w = (.ok r, final)) : Logged env inv svc logical w final r := by
  have ended := @meets_backup_logged env inv svc w logical reason w rfl
  rw [ran] at ended
  exact ended

theorem verify_pending {v : Verified} (ran : Program.run (verifyPostgres inv) env w = (.ok v, final)) :
    Pending inv id w final := by
  have ended := @meets_verify_pending env inv id w w ⟨Nat.le_refl _, [], (List.append_nil _).symm, rfl⟩
  rw [ran] at ended
  exact ended

theorem appended_congr (same : inv.stateDir = home.stateDir) (id : String) (events : List (Event Machine)) :
    appended inv id events = appended home id events := by
  unfold appended logPath
  rw [same]

theorem isoString_ne_empty (ms : Nat) : isoString ms ≠ "" := by
  obtain ⟨text, shape⟩ : ∃ text, isoString ms = String.ofList (text ++ ['Z']) := ⟨_, rfl⟩
  intro empty
  have length := congrArg (fun text : String => text.toList.length) (shape.symm.trans empty)
  simp at length

/-- The log of a history is the lines of its records. -/
theorem Nights.written (nights : Nights env home id w) :
    ∃ rs : List BackupRecord, appended home id w.trace = rs.map logLine ∧ ∀ r ∈ rs, r.madeAt ≠ some "" := by
  induction nights with
  | start empty => exact ⟨[], empty, fun _ among => absurd among List.not_mem_nil⟩
  | between before onward other ih =>
    obtain ⟨rs, lines, dated⟩ := ih
    exact ⟨rs, by rw [onward, appended_append, lines, other, List.append_nil], dated⟩
  | @backup w final inv svc reason logical r before same ran ih =>
    obtain ⟨rs, lines, dated⟩ := ih
    obtain ⟨⟨events, split, line⟩, ⟨t, made, -⟩, -⟩ := logged_of_ran ran
    rw [same.2, appended_congr same.1] at line
    refine ⟨rs ++ [r], by rw [split, appended_append, lines, line]; simp, fun other member => ?_⟩
    obtain known | last := List.mem_append.mp member
    · exact dated other known
    · obtain rfl := List.mem_singleton.mp last
      exact fun empty => isoString_ne_empty t (Option.some.inj (made.symm.trans empty))

theorem recordsAt_eq {rs : List BackupRecord} (same : inv.stateDir = home.stateDir) (lines : appended home id w.trace = rs.map logLine) :
    recordsAt inv id w = rs.filterMap fun r => readRecord (Json.stringify (recordJson r)) := by
  rw [recordsAt, logAfter, appended_congr same, lines, readLog_lines]

/-- What is not due later was not due before. -/
theorem dumpDue_mono {records : List BackupRecord} {logical : Bool} {t t' : Nat} (later : t ≤ t')
    (notDue : dumpDue records t' logical = false) : dumpDue records t logical = false := by
  unfold dumpDue at notDue ⊢
  rw [Bool.or_eq_false_iff] at notDue ⊢
  refine ⟨notDue.1, ?_⟩
  cases made : (lastGoodDumpAt records).bind dateParse with
  | none =>
    rw [made] at notDue
    exact nomatch notDue.2
  | some made' =>
    rw [made] at notDue
    have young : ¬ ((logicalDumpIntervalDays * dayMs : Nat) : Int) < t' - made' := of_decide_eq_false notDue.2
    exact decide_eq_false fun old => young (by omega)

/-- What a dump that is not due says of the last one. -/
theorem last_of_notDue {records : List BackupRecord} {logical : Bool} {t : Nat}
    (notDue : dumpDue records t logical = false) {r : BackupRecord} (last : records.reverse.find? holdsDump = some r) :
    ∃ made : Int, r.madeAt.bind dateParse = some made ∧ (t : Int) - made ≤ (logicalDumpIntervalDays * dayMs : Nat) := by
  unfold dumpDue lastGoodDumpAt at notDue
  rw [last, Option.bind_some, Bool.or_eq_false_iff] at notDue
  cases made : r.madeAt.bind dateParse with
  | none =>
    rw [made] at notDue
    exact nomatch notDue.2
  | some made' =>
    rw [made] at notDue
    exact ⟨made', rfl, Int.not_lt.mp (of_decide_eq_false notDue.2)⟩

/-- In a history of backups whose databases change at will, a backup that finds a dump due, or the
last dump with every database in it, leaves a dump of each that is seven days old at most, and as
much as the backup took. -/
theorem dumps_stay_fresh {reason : String} {logical : Bool} {period : Nat} {r : BackupRecord}
    (kept : LogKept env home id) (nights : Nights env home id w) (same : inv.stateDir = home.stateDir ∧ svc.id = id)
    (covered : Covered inv svc logical w) (ran : Program.run (backup inv svc reason logical) env w = (.ok r, final))
    (lasts : final.clock ≤ w.clock + period) (valid : final.clock ≤ 8640000000000000) :
    ∀ db ∈ svc.databases,
      Fresh (recordsAt inv svc.id final) final.clock (logicalDumpIntervalDays * dayMs + period) db := by
  intro db member
  obtain ⟨rs, lines, dated⟩ := nights.written
  obtain ⟨⟨events, split, line⟩, ⟨t, made, later, early⟩, dumps⟩ := logged_of_ran ran
  obtain ⟨home', rfl⟩ := same
  have after : appended home svc.id final.trace = (rs ++ [r]).map logLine := by
    rw [appended_congr home'] at line
    rw [split, appended_append, lines, line]
    simp
  have before := recordsAt_eq home' lines
  rw [recordsAt_eq home' after, List.filterMap_append, ← before]
  obtain ⟨good, holds⟩ | ⟨others, text, t', other, read, later', notDue⟩ := dumps (List.ne_nil_of_mem member)
  · have notEmpty : r.madeAt ≠ some "" := fun empty =>
      isoString_ne_empty t (Option.some.inj (made.symm.trans empty))
    obtain ⟨back, parsed, is⟩ := readRecord_written notEmpty
    refine ⟨back, List.mem_append_right _ (by simp [parsed]), is.good.trans good, ?_, t, ?_, ?_⟩
    · obtain ⟨f, among, name, source, file⟩ := holds db member
      obtain ⟨name', source', file'⟩ := readFileEntry_json f
      exact ⟨_, is.files ▸ List.mem_map_of_mem among, name'.trans name, source'.trans source, file'.trans file⟩
    · rw [is.madeAt, made, Option.bind_some]
      exact dateParse_isoString (early.trans valid)
    · omega
  · have same : readLog text = recordsAt inv svc.id w := by
      have whole := kept (w.trace ++ others) text (by rw [← read]; unfold logPath; rw [home'])
      rw [logAfter, appended_append, ← appended_congr home' svc.id others, other, List.append_nil] at whole
      rw [recordsAt, logAfter, appended_congr home', ← logAfter, readLog, whole]
      rfl
    rw [same] at notDue
    obtain ⟨last, found, holds⟩ := covered.resolve_left (by simp [dumpDue_mono later' notDue]) db member
    obtain ⟨made', parsed, young⟩ := last_of_notDue notDue found
    have good : last.good = true := by
      have dump := List.find?_some found
      simp only [holdsDump, Bool.and_eq_true] at dump
      exact dump.1
    refine ⟨last, List.mem_append_left _ (List.mem_reverse.mp (List.mem_of_find?_eq_some found)), good, holds, made',
      parsed, ?_⟩
    omega

end

/-! ### A database added between two dumps -/

/-- A service with some databases. -/
def live (databases : List Database) : Service where
  id := "live"
  repo := "/opt/live"
  owner := "live"
  runAs := "live"
  databases
  unit_service := Service.no_unit
  socket_socket := Service.no_socket
  auxiliary_apart := Service.no_auxiliary
  workers_service := Service.no_unit
  workers_apart := Service.no_worker
  auxiliary_no_worker := Service.no_auxiliary_worker
  sources_apart := Service.no_source
  sources_named := Service.no_source_named
  laid_out := Service.no_layout

def liveHost (databases : List Database) : Inventory where
  stateDir := "/var/lib/openvibe-host"
  backupDir := "/var/backups/openvibe"
  backupStagingDir := "/var/backups/openvibe.staging"
  services := [live databases]
  backup_absolute := backups_absolute

def mainDatabase : Database := { name := "main", database := "live" }

def chatDatabase : Database := { name := "chat", database := "live_chat" }

/-- A host whose log is kept, with a good physical backup, where every dump is made. -/
def logging : Environment Machine where
  takes _ _ := 0
  answer past := fun
    | .run "pgbackrest" .. => { stdout :=
        "[\x7b\"name\":\"openvibe\",\"backup\":[\x7b\"type\":\"full\",\"timestamp\":\x7b\"stop\":0\x7d\x7d]\x7d]" }
    | .psql .. => .ok [[("n", some "0")]]
    | .readFile path _ => .ok (if path = logPath (liveHost []) "live" then some (logAfter (liveHost []) "live" past) else none)
    | .stat path => if endsWith path ".dump" then some {} else none
    | other => steady other

/-- The world after a backup of the service with some databases. -/
def nightOf (databases : List Database) (w : World Machine Unit) : Except Failure BackupRecord × World Machine Unit :=
  Program.run (backup (liveHost databases) (live databases) "nightly" false) logging w

theorem logging_kept : LogKept logging (liveHost []) "live" := by
  intro past text read
  simp only [logging, if_true] at read
  exact Except.ok.inj read ▸ rfl

def verified : Except Failure Verified → Bool
  | .ok v => v.ok
  | .error _ => false

/-- The world after the first night, of one database. -/
@[irreducible] def firstNight : World Machine Unit := (nightOf [mainDatabase] ⟨(), 0, []⟩).2

/-- The databases that a record has copies of. -/
def sources : Except Failure BackupRecord → List String
  | .ok r => r.files.map (·.source)
  | .error _ => []

/-- The first night takes no time and copies no other database. -/
theorem first_night_ran : ∃ r, nightOf [mainDatabase] ⟨(), 0, []⟩ = (.ok r, firstNight) ∧ firstNight.clock = 0 ∧
    chatDatabase.database ∉ r.files.map (·.source) := by
  have run : succeeds (nightOf [mainDatabase] ⟨(), 0, []⟩).1 = true ∧ (nightOf [mainDatabase] ⟨(), 0, []⟩).2.clock = 0 ∧
      chatDatabase.database ∉ sources (nightOf [mainDatabase] ⟨(), 0, []⟩).1 := by decide +kernel
  unfold firstNight
  cases ran : nightOf [mainDatabase] ⟨(), 0, []⟩ with
  | mk result next =>
    rw [ran] at run
    obtain ⟨good, clock, others⟩ := run
    cases result with
    | ok r => exact ⟨r, rfl, clock, others⟩
    | error e => exact nomatch good

/-- The first backup makes the dump of the database. -/
theorem first_night_fresh : Fresh (recordsAt (liveHost [mainDatabase]) "live" firstNight)
    firstNight.clock (logicalDumpIntervalDays * dayMs + dayMs) mainDatabase := by
  obtain ⟨r, ran, clock, -⟩ := first_night_ran
  have due : dumpDue (recordsAt (liveHost [mainDatabase]) "live" ⟨(), 0, []⟩) 0 false = true := by decide +kernel
  have lasts : firstNight.clock ≤ 0 + dayMs := by
    rw [clock]
    exact Nat.zero_le _
  have valid : firstNight.clock ≤ 8640000000000000 := by
    rw [clock]
    exact Nat.zero_le _
  have started : Nights logging (liveHost []) "live" ⟨(), 0, []⟩ := .start rfl
  exact @dumps_stay_fresh logging (liveHost []) (liveHost [mainDatabase]) (live [mainDatabase]) "live" ⟨(), 0, []⟩
    firstNight "nightly" false dayMs r logging_kept started ⟨rfl, rfl⟩ (.inl due) ran lasts valid mainDatabase
    (List.mem_singleton_self _)

section
variable {databases : List Database} {w final : World Machine Unit} {r : BackupRecord}

theorem nights_next (nights : Nights logging (liveHost []) "live" w) (ran : nightOf databases w = (.ok r, final)) :
    Nights logging (liveHost []) "live" final := .backup nights ⟨rfl, rfl⟩ ran

/-- What a night adds to the records is read back with its copies. -/
theorem records_next (nights : Nights logging (liveHost []) "live" w) (ran : nightOf databases w = (.ok r, final)) :
    ∃ back, recordsAt (liveHost []) "live" final = recordsAt (liveHost []) "live" w ++ [back] ∧ ReadBack r back := by
  obtain ⟨⟨events, split, line⟩, ⟨t, made, -⟩, -⟩ := @logged_of_ran logging (liveHost databases) (live databases) w final
    "nightly" false r ran
  obtain ⟨back, parsed, is⟩ := readRecord_written (r := r) fun empty =>
    isoString_ne_empty t (Option.some.inj (made.symm.trans empty))
  obtain ⟨rs, lines, -⟩ := nights.written
  have added : appended (liveHost []) "live" events = [logLine r] := line
  have after : appended (liveHost []) "live" final.trace = (rs ++ [r]).map logLine := by
    rw [split, appended_append, lines, added]
    simp
  refine ⟨back, ?_, is⟩
  rw [@recordsAt_eq (liveHost []) (liveHost []) "live" final _ rfl after,
    @recordsAt_eq (liveHost []) (liveHost []) "live" w _ rfl lines, List.filterMap_append]
  simp [parsed]

end

/-- The log of the first night has its record, with the dump. -/
theorem firstNight_records : ∃ r back, recordsAt (liveHost []) "live" firstNight = [back] ∧ ReadBack r back ∧
    r.madeAt = some (isoString 0) ∧ r.good = true ∧ Holds r mainDatabase := by
  obtain ⟨r, ran, clock, -⟩ := first_night_ran
  obtain ⟨back, records, is⟩ := records_next (.start rfl) ran
  obtain ⟨-, ⟨t, made, -, early⟩, dumps⟩ := @logged_of_ran logging (liveHost [mainDatabase])
    (live [mainDatabase]) ⟨(), 0, []⟩ firstNight "nightly" false r ran
  obtain rfl : t = 0 := Nat.le_zero.mp (clock ▸ early)
  have due : ¬ NotDue logging (liveHost [mainDatabase]) "live" false ⟨(), 0, []⟩ := by
    rintro ⟨events, text, t, none', read, -, notDue⟩
    have whole := logging_kept ([] ++ events) text read
    rw [logAfter, List.nil_append, @appended_congr (liveHost [mainDatabase]) (liveHost []) rfl "live" events, none'] at whole
    rw [readLog, whole] at notDue
    exact nomatch notDue
  obtain ⟨good, holds⟩ := (dumps (by simp [live])).resolve_right due
  exact ⟨r, back, records, is, made, good, holds mainDatabase (by simp [live])⟩

/-- The next night finds the physical backup good, which takes no time here and is not logged. -/
theorem second_night_verified : ∃ v next,
    Program.run (verifyPostgres (liveHost [mainDatabase, chatDatabase])) logging firstNight = (.ok v, next) ∧
      v.ok = true ∧ next.clock = 0 := by
  have run : verified (Program.run (verifyPostgres (liveHost [mainDatabase, chatDatabase])) logging firstNight).1 = true ∧
      (Program.run (verifyPostgres (liveHost [mainDatabase, chatDatabase])) logging firstNight).2.clock = 0 := by
    decide +kernel
  cases ran : Program.run (verifyPostgres (liveHost [mainDatabase, chatDatabase])) logging firstNight with
  | mk result next =>
    rw [ran] at run
    obtain ⟨sound, clock⟩ := run
    cases result with
    | ok v => exact ⟨v, next, rfl, sound, clock⟩
    | error e => exact nomatch sound

/-- The log says of the next night that no dump is due. -/
theorem firstNight_young : dumpDue (recordsAt (liveHost []) "live" firstNight) 0 false = false := by
  obtain ⟨r, back, records, is, made, good, f, among, -, -, file⟩ := firstNight_records
  have dump : holdsDump back = true := by
    rw [holdsDump, is.good, good, Bool.true_and, is.files, List.any_map]
    refine List.any_eq_true.mpr ⟨f, among, ?_⟩
    simp only [Function.comp, (readFileEntry_json f).2.2, file]
    decide +kernel
  have last : lastGoodDumpAt [back] = some (isoString 0) := by simp [lastGoodDumpAt, dump, is.madeAt, made]
  rw [records, dumpDue, last, Option.bind_some, dateParse_isoString (by decide)]
  decide +kernel

/-- A night for which the log says that no dump is due makes none. -/
theorem night_undumped {databases : List Database} (some' : databases ≠ []) {w next : World Machine Unit} {v : Verified}
    (verified : Program.run (verifyPostgres (liveHost databases)) logging w = (.ok v, next)) (good : v.ok = true)
    (clock : next.clock = 0) (young : dumpDue (recordsAt (liveHost []) "live" w) 0 false = false) :
    ∃ r final, nightOf databases w = (.ok r, final) ∧ r.files = [] ∧ final.clock = 0 := by
  obtain ⟨-, events, split, none'⟩ := @verify_pending logging (liveHost databases) "live" w next v verified
  have read : readLog (some (logAfter (liveHost []) "live" next.trace)) = recordsAt (liveHost []) "live" w := by
    have kept : appended (liveHost []) "live" next.trace = appended (liveHost []) "live" w.trace := by
      rw [split, appended_append, @appended_congr (liveHost databases) (liveHost []) rfl "live" events, none',
        List.append_nil]
    rw [recordsAt, logAfter, logAfter, kept]
  obtain ⟨⟨⟩, t, trace⟩ := next
  obtain rfl : t = 0 := clock
  obtain ⟨⟨⟨⟩, t, trace'⟩, asked, clock⟩ : ∃ next, Program.run (Exec.readFile (logPath (liveHost databases)
      (live databases).id)) logging ⟨(), 0, trace⟩ = (.ok (some (logAfter (liveHost []) "live" trace)), next) ∧
      next.clock = 0 := ⟨_, rfl, rfl⟩
  obtain rfl : t = 0 := clock
  have verified' : Program.run (some <$> verifyPostgres (liveHost databases)) logging w = (.ok (some v), ⟨(), 0, trace⟩) :=
    Program.run_bind_ok.mpr ⟨v, _, verified, rfl⟩
  unfold nightOf backup
  rw [if_neg (by simp [live, some']), if_pos (by simpa [live] using some'), Program.bind_eq,
    Program.run_andThen_ok verified', if_neg (by simp [good]), if_pos (by simpa [live] using some')]
  simp only [bind_assoc]
  rw [Program.bind_eq, Program.run_andThen_ok asked, Program.bind_eq, Program.run_andThen_ok (Program.run_now _ _),
    Program.bind_eq, Program.pure_eq, Program.run_andThen_ok (Program.run_ret _ _ _), read, young, if_pos ⟨rfl, rfl⟩]
  exact ⟨_, _, rfl, rfl, rfl⟩

/-- A database is added after the first night, and the next, that has no dump to make, leaves it without. -/
theorem added_has_no_dump :
    LogKept logging (liveHost []) "live" ∧ Nights logging (liveHost []) "live" firstNight ∧ firstNight.clock = 0 ∧
      ∃ r final, nightOf [mainDatabase, chatDatabase] firstNight = (.ok r, final) ∧ final.clock = 0 ∧ ∀ limit,
        ¬ Fresh (recordsAt (liveHost [mainDatabase, chatDatabase]) "live" final) 0 limit chatDatabase := by
  obtain ⟨r, ran, start, others⟩ := first_night_ran
  have nights := nights_next (.start rfl) ran
  obtain ⟨v, next, verified, good, clock⟩ := second_night_verified
  obtain ⟨r', final, ran', files, clock'⟩ := night_undumped (by simp) verified good clock firstNight_young
  refine ⟨logging_kept, nights, start, r', final, ran', clock', ?_⟩
  obtain ⟨back, records, is⟩ := records_next (.start rfl) ran
  obtain ⟨back', records', is'⟩ := records_next nights ran'
  rintro limit ⟨read, member, -, ⟨f, among, -, source, -⟩, -⟩
  have among' : read ∈ recordsAt (liveHost []) "live" final := member
  rw [records', records] at among'
  obtain rfl | rfl : read = back ∨ read = back' := by simpa [recordsAt, readLog, logAfter, logText, appended, linesOf] using among'
  · rw [is.files] at among
    obtain ⟨g, member', rfl⟩ := List.mem_map.mp among
    rw [(readFileEntry_json g).2.1] at source
    exact others (List.mem_map.mpr ⟨g, member', source⟩)
  · rw [is'.files, files] at among
    cases among

end OpenVibeHost.Backup
