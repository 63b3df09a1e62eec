import OpenVibeHost.BackupSteps
import OpenVibeHost.JsonRoundTrip

/-! The WAL archiver's failed count in a run of `backup --all`: each PostgreSQL service compares the
cluster's count with the one stored, and stores what it found for the next. -/
namespace OpenVibeHost.Backup
open Effects Program

/-- The counts that the stored file may hold after an event. A write that failed may have happened, in part or
whole; what is cut short holds no count. -/
def holding (inv : Inventory) (held : Set (Option Rat)) : Event Machine → Set (Option Rat)
  | ⟨.writeFile path content _, answer, _⟩ =>
    if path = archiverPath inv then
      match (answer : Except String Unit) with
      | .ok () => {archiverCount (some content)}
      | .error _ => insert none (insert (archiverCount (some content)) held)
    else held
  | ⟨.appendFile path _, _, _⟩ | ⟨.removeFile path _, _, _⟩ => if path = archiverPath inv then Set.univ else held
  | _ => held

/-- The counts that the file may hold after some events. -/
def heldAfter (inv : Inventory) (stored : Option Rat) (events : List (Event Machine)) : Set (Option Rat) :=
  events.foldl (holding inv) {stored}

/-- The stored count is read back as the run left it, and the cluster's count stays. -/
structure Steady (env : Environment Machine) (base : List (Event Machine)) (inv : Inventory)
    (stored : Option Rat) (failed : Nat) : Prop where
  reads : ∀ more text, env.answer (base ++ more) (.readFile (archiverPath inv) false) = .ok text →
    archiverCount text ∈ heldAfter inv stored more
  counts : ∀ more rows, env.answer (base ++ more) (.psql "postgres" countSql) = .ok rows →
    countIn rows = some (failed : Rat)

/-- The failed count is not above the stored one. -/
def verdict (stored : Option Rat) (failed : Nat) : Bool :=
  match stored with
  | some count => decide ((failed : Rat) ≤ count)
  | none => true

/-- The calls that leave the stored file alone. -/
def keepsCount (inv : Inventory) : Machine.Call → Bool
  | .writeFile path .. | .appendFile path _ | .removeFile path _ => path ≠ archiverPath inv
  | _ => true

section
variable {env : Environment Machine} {base : List (Event Machine)} {inv : Inventory} {stored : Option Rat}
  {failed : Nat} {held : Set (Option Rat)} {α : Type}

theorem heldAfter_snoc (events : List (Event Machine)) (event : Event Machine) :
    heldAfter inv stored (events ++ [event]) = holding inv (heldAfter inv stored events) event := by
  simp [heldAfter]

theorem holding_kept {event : Event Machine} (keeps : keepsCount inv event.call = true) :
    holding inv held event = held := by
  obtain ⟨call, answer, clock⟩ := event
  cases call <;> simp_all [keepsCount, holding]

theorem keepsCount_step {call : Machine.Call} (step : stepCalls call = true) : keepsCount inv call = true := by
  cases call <;> first | rfl | exact nomatch step

theorem logPath_ne (id : String) : logPath inv id ≠ archiverPath inv := by
  intro same
  have chars := congrArg String.toList same
  simp [logPath, archiverPath] at chars

theorem lockFile_ne (id : String) : Locks.lockFile inv id ≠ archiverPath inv := by
  intro same
  have chars := congrArg String.toList same
  simp [Locks.lockFile, archiverPath] at chars

theorem heldAfter_sees (more : List (Event Machine)) (event : Event Machine)
    (step : stepCalls event.call = true) (now : heldAfter inv stored more = held) :
    heldAfter inv stored (more ++ [event]) = held := by
  rw [heldAfter_snoc, holding_kept (keepsCount_step step)]
  exact now

/-- A call whose answer is known from what was done before. -/
theorem meets_since_known {σ ε : Type} {K : List (Event Machine) → Prop} {call : Machine.Call}
    {read : Machine.Answer call → α} {L : α → List (Event Machine) → Prop} {err : ε → World Machine σ → Prop}
    (done : ∀ more clock, K more →
      L (read (env.answer (base ++ more) call)) (more ++ [⟨call, env.answer (base ++ more) call, clock⟩])) :
    Meets env (Since base fun more _ => K more) (ask call read : Program Machine σ ε α)
      (fun a => Since base fun more _ => L a more) err := by
  rintro w ⟨more, trace, now⟩
  refine ⟨more ++ [⟨call, env.answer w.trace call, _⟩],
    (congrArg (· ++ _) trace).trans (List.append_assoc _ _ _), ?_⟩
  rw [trace]
  exact done more _ now

/-! ### One verification -/

/-- What a run of the archiver's check stores is read back as the count it was. -/
theorem archiverCount_written (count : Nat) (at' : String) :
    archiverCount (some (Json.stringify (.obj [("failedCount", .num count), ("at", .str at')]) ++ "\n")) =
      some (count : Rat) := by
  have whole : Json.Decimal (.obj [("failedCount", .num count), ("at", .str at')]) := by
    simp [Json.Decimal, Json.DecimalFields]
  rw [archiverCount, Option.bind_some, Json.parse_stringify _ whole]
  rfl

theorem meets_walFailedCount (steady : Steady env base inv stored failed) :
    Meets env (Since base fun more _ => heldAfter inv stored more = held) walFailedCount
      (fun n => Since base fun more _ => n = (failed : Rat) ∧ heldAfter inv stored more = held)
      (fun _ => Since base fun more _ => heldAfter inv stored more = held) := by
  unfold walFailedCount Exec.psql Exec.orReject
  refine meets_bind (M := fun rows => Since base fun more _ => countIn rows = some (failed : Rat) ∧
    heldAfter inv stored more = held) ?_ fun rows => ?_
  · refine meets_bind (M := fun answer => Since base fun more _ =>
      (∀ rows, answer = .ok rows → countIn rows = some (failed : Rat)) ∧ heldAfter inv stored more = held) ?_
      fun answer => ?_
    · exact meets_since_known fun more clock now =>
        ⟨fun rows => steady.counts more rows, heldAfter_sees more _ rfl now⟩
    · cases answer with
      | ok rows => exact meets_ret fun _ since => since.mono fun _ _ now => ⟨now.1 rows rfl, now.2⟩
      | error message => exact meets_throw fun _ since => since.mono fun _ _ now => now.2
  · cases found : countIn rows with
    | none =>
      exact meets_throw fun _ since => since.mono fun _ _ now => now.2
    | some n =>
      refine meets_pure fun _ since => since.mono fun _ _ now => ⟨?_, now.2⟩
      simpa using now.1

theorem meets_readArchiver (steady : Steady env base inv stored failed) :
    Meets env (Since base fun more _ => heldAfter inv stored more = held) (readArchiver inv)
      (fun previous => Since base fun more _ => previous ∈ held ∧ heldAfter inv stored more = held)
      (fun _ => Since base fun more _ => heldAfter inv stored more = held) := by
  unfold readArchiver Exec.readFile Exec.orReject
  refine meets_bind (M := fun text => Since base fun more _ => archiverCount text ∈ held ∧
    heldAfter inv stored more = held) ?_ fun text => meets_pure fun _ => id
  refine meets_bind (M := fun answer => Since base fun more _ =>
    (∀ text, answer = .ok text → archiverCount text ∈ held) ∧ heldAfter inv stored more = held) ?_
    fun answer => ?_
  · exact meets_since_known fun more clock now =>
      ⟨fun text read => now ▸ steady.reads more text read, heldAfter_sees more _ rfl now⟩
  · cases answer with
    | ok text => exact meets_ret fun _ since => since.mono fun _ _ now => ⟨now.1 text rfl, now.2⟩
    | error message => exact meets_throw fun _ since => since.mono fun _ _ now => now.2

/-- After a verification, the file holds what it held, the cluster's count, or nothing. -/
def Left (inv : Inventory) (stored : Option Rat) (failed : Nat) (held : Set (Option Rat))
    (more : List (Event Machine)) : Prop :=
  ∀ count ∈ heldAfter inv stored more, count ∈ held ∨ count = some (failed : Rat) ∨ count = none

theorem left_same {more : List (Event Machine)} (now : heldAfter inv stored more = held) :
    Left inv stored failed held more := fun _ member => .inl (now ▸ member)

theorem meets_writeArchiver :
    Meets env (Since base fun more _ => heldAfter inv stored more = held) (writeArchiver inv failed)
      (fun _ => Since base fun more _ => Left inv stored failed held more)
      (fun _ => Since base fun more _ => Left inv stored failed held more) := by
  unfold writeArchiver
  refine meets_bind (M := fun _ => Since base fun more _ => heldAfter inv stored more = held) ?_ fun _ => ?_
  · have quiet : Quiet (Exec.mkdir inv.stateDir) := quiet_orReject rfl
    exact (quiet.meets heldAfter_sees).weaken (fun _ => id) (fun _ _ => id)
      fun _ _ since => since.mono fun _ _ now => left_same now.1
  · refine meets_bind (M := fun _ => Since base fun more _ => heldAfter inv stored more = held)
      (meets_now fun _ => id) fun t => ?_
    unfold Exec.writeFile Exec.orReject
    refine meets_since_ask_then fun answer clock => ?_
    cases answer with
    | ok done =>
      refine meets_ret fun _ since => since.mono fun more _ ⟨before, split, now⟩ count member => ?_
      rw [split, heldAfter_snoc] at member
      simp only [holding, if_true, Set.mem_singleton_iff] at member
      exact .inr (.inl (member.trans (archiverCount_written failed _)))
    | error message =>
      refine meets_throw fun _ since => since.mono fun more _ ⟨before, split, now⟩ count member => ?_
      rw [split, heldAfter_snoc, now] at member
      simp only [holding, if_true, Set.mem_insert_iff] at member
      rcases member with isNone | written | before
      · exact .inr (.inr isNone)
      · exact .inr (.inl (written.trans (archiverCount_written failed _)))
      · exact .inl before

/-- A verification finds the verdict on a count that may be stored, or it finds none. -/
theorem meets_verifyPostgres (steady : Steady env base inv stored failed)
    {err : Failure → World Machine Unit → Prop} :
    Meets env (Since base fun more _ => heldAfter inv stored more = held) (verifyPostgres inv)
      (fun v => Since base fun more _ => Left inv stored failed held more ∧
        ∀ found, v.walOk = some found → ∃ count ∈ held, found = verdict count failed) err := by
  unfold verifyPostgres
  refine meets_attempt (T := fun _ => Since base fun more _ => Left inv stored failed held more) ?_ fun e => ?_
  · refine meets_bind (M := fun _ => Since base fun more _ => heldAfter inv stored more = held)
      ((quiet_verifyPgBackRest.meets heldAfter_sees).weaken (fun _ => id) (fun _ _ => id)
        fun _ _ since => since.mono fun _ _ now => left_same now.1) fun newest => ?_
    refine meets_bind ((meets_walFailedCount steady).weaken (fun _ => id) (fun _ _ => id)
      fun _ _ since => since.mono fun _ _ now => left_same now) fun n => ?_
    refine meets_given (fun w ⟨_, _, now⟩ => now.1) fun isCount => ?_
    subst isCount
    refine meets_bind (M := fun previous => Since base fun more _ => previous ∈ held ∧
      heldAfter inv stored more = held) ((meets_readArchiver steady).weaken
        (fun _ since => since.mono fun _ _ now => now.2) (fun _ _ => id)
        fun _ _ since => since.mono fun _ _ now => left_same now) fun previous => ?_
    refine meets_given (fun w ⟨_, _, now⟩ => now.1) fun read => ?_
    refine meets_bind (M := fun _ => Since base fun more _ => Left inv stored failed held more)
      (meets_writeArchiver.weaken (fun _ since => since.mono fun _ _ now => now.2) (fun _ _ => id)
        fun _ _ => id) fun _ => ?_
    cases previous with
    | none =>
      refine meets_pure fun _ since => since.mono fun _ _ now => ⟨now, ?_⟩
      rintro found same
      exact ⟨none, read, (Option.some.inj same).symm⟩
    | some last =>
      dsimp only
      split
      · rename_i rose
        refine meets_pure fun _ since => since.mono fun _ _ now => ⟨now, ?_⟩
        rintro found same
        simp only [Option.some.injEq] at same
        exact ⟨some last, read, by simp [← same, verdict, Rat.not_le.mpr rose]⟩
      · rename_i stayed
        refine meets_pure fun _ since => since.mono fun _ _ now => ⟨now, ?_⟩
        rintro found same
        simp only [Option.some.injEq] at same
        exact ⟨some last, read, by simp [← same, verdict, Rat.not_lt.mp stayed]⟩
  · exact meets_pure fun _ since => since.mono fun _ _ now => ⟨now, fun _ none => nomatch none⟩

/-! ### One service -/

/-- The verification that an error carries. -/
def verifiedOf : Failure → Option Verified
  | .backup _ r => r.verified
  | _ => none

/-- What a service did with the stored count, and the verification of its record. -/
structure Checked (inv : Inventory) (stored : Option Rat) (failed : Nat) (held : Set (Option Rat)) (svc : Service)
    (verified : Option Verified) (more : List (Event Machine)) : Prop where
  left : Left inv stored failed held more
  found : ∀ v, verified = some v → ∀ found, v.walOk = some found → ∃ count ∈ held, found = verdict count failed
  unasked : svc.databases = [] → heldAfter inv stored more = held ∧ verified = none

theorem Checked.sees {svc : Service} {verified : Option Verified} {more : List (Event Machine)}
    {event : Event Machine} (checked : Checked inv stored failed held svc verified more)
    (keeps : keepsCount inv event.call = true) : Checked inv stored failed held svc verified (more ++ [event]) := by
  have same : heldAfter inv stored (more ++ [event]) = heldAfter inv stored more := by
    rw [heldAfter_snoc, holding_kept keeps]
  refine ⟨fun count member => checked.left count (same ▸ member), checked.found, fun nothing => ?_⟩
  exact same ▸ checked.unasked nothing

theorem meets_appendRecord {K : List (Event Machine) → Prop} (id : String) (record : BackupRecord)
    (sees : ∀ more event, keepsCount inv event.call = true → K more → K (more ++ [event])) :
    Meets env (Since base fun more _ => K more) (appendRecord inv id record) (fun _ => Since base fun more _ => K more)
      (fun e => Since base fun more _ => K more ∧ ∃ message, e = .plain message) := by
  unfold appendRecord Exec.appendFile Exec.orReject
  refine meets_since_ask_then fun answer clock => ?_
  cases answer with
  | ok done => exact meets_ret fun _ since => since.mono fun _ _ ⟨_, split, now⟩ => split ▸ sees _ _ (by simp [keepsCount, logPath_ne]) now
  | error message =>
    exact meets_throw fun _ since => since.mono fun _ _ ⟨_, split, now⟩ => ⟨split ▸ sees _ _ (by simp [keepsCount, logPath_ne]) now, _, rfl⟩

theorem meets_makeCopies_verified {K : List (Event Machine) → Prop} (svc : Service) (reason : String) (due : Bool)
    (verified : Option Verified) (sees : ∀ more event, keepsCount inv event.call = true → K more → K (more ++ [event])) :
    Meets env (Since base fun more _ => K more) (makeCopies inv svc reason due verified)
      (fun r => Since base fun more _ => K more ∧ r.verified = verified)
      (fun e => Since base fun more _ => K more ∧ (verifiedOf e = verified ∨ verifiedOf e = none)) := by
  rw [makeCopies_eq]
  refine meets_bind (M := fun _ => Since base fun more _ => K more)
    (((quiet_stageCopies inv svc due).meets fun more event step => sees more event (keepsCount_step step)).weaken
      (fun _ => id) (fun _ _ => id) fun e _ since => since.mono fun _ _ ⟨now, message, same⟩ => ⟨now, .inr ?_⟩)
    fun made => ?_
  · subst same
    rfl
  · unfold recordCopies
    refine meets_bind (M := fun _ => Since base fun more _ => K more) (meets_now fun _ => id) fun t => ?_
    refine meets_bind (M := fun _ => Since base fun more _ => K more)
      ((meets_appendRecord svc.id _ sees).weaken (fun _ => id) (fun _ _ => id)
        fun e _ since => since.mono fun _ _ ⟨now, message, same⟩ => ⟨now, .inr ?_⟩) fun _ => ?_
    · subst same
      rfl
    · split
      · exact meets_throw fun _ since => since.mono fun _ _ now => ⟨now, .inl rfl⟩
      · exact meets_pure fun _ since => since.mono fun _ _ now => ⟨now, rfl⟩

/-- An error that carries no verification says less. -/
theorem Checked.unsaid {svc : Service} {verified : Option Verified} {more : List (Event Machine)}
    (checked : Checked inv stored failed held svc verified more) :
    Checked inv stored failed held svc none more :=
  ⟨checked.left, fun _ none => (nomatch none), fun nothing => ⟨(checked.unasked nothing).1, rfl⟩⟩

theorem Checked.carried {svc : Service} {verified : Option Verified} {e : Failure}
    {more : List (Event Machine)} (checked : Checked inv stored failed held svc verified more)
    (carries : verifiedOf e = verified ∨ verifiedOf e = none) :
    Checked inv stored failed held svc (verifiedOf e) more := by
  rcases carries with same | same
  · exact same ▸ checked
  · exact same ▸ checked.unsaid

theorem meets_backup (steady : Steady env base inv stored failed) (svc : Service) (reason : String) (logical : Bool)
    :
    Meets env (Since base fun more _ => heldAfter inv stored more = held) (backup inv svc reason logical)
      (fun r => Since base fun more _ => Checked inv stored failed held svc r.verified more)
      (fun e => Since base fun more _ => Checked inv stored failed held svc (verifiedOf e) more) := by
  unfold backup
  refine meets_ite (fun _ => meets_throw fun _ since => since.mono fun _ _ now =>
    ⟨left_same now, fun _ none => (nomatch none), fun _ => ⟨now, rfl⟩⟩) fun _ => ?_
  refine meets_bind (M := fun verified => Since base fun more _ => Checked inv stored failed held svc verified more)
    ?_ fun verified => ?_
  · split
    · rename_i asked
      refine meets_map ((meets_verifyPostgres steady).weaken (fun _ => id) (fun v _ since => since.mono
        fun _ _ now => ⟨now.1, ?_, fun nothing => absurd nothing asked⟩) fun _ _ => id)
      rintro v' same
      obtain rfl := Option.some.inj same
      exact now.2
    · refine meets_pure fun _ since => since.mono fun _ _ now =>
        ⟨left_same now, fun _ none => (nomatch none), fun _ => ⟨now, rfl⟩⟩
  have sees : ∀ more event, keepsCount inv event.call = true → Checked inv stored failed held svc verified more →
      Checked inv stored failed held svc verified (more ++ [event]) := fun _ _ keeps now => now.sees keeps
  refine meets_ite (fun _ => ?_) fun _ => ?_
  · refine meets_bind (M := fun _ => Since base fun more _ => Checked inv stored failed held svc verified more)
      (meets_now fun _ => id) fun t => ?_
    refine meets_bind (M := fun _ => Since base fun more _ => Checked inv stored failed held svc verified more)
      ((meets_appendRecord svc.id _ sees).weaken (fun _ => id) (fun _ _ => id) fun e _ since => since.mono
        fun _ _ ⟨now, message, same⟩ => ?_) fun _ => meets_throw fun _ => id
    exact same ▸ now.unsaid
  · refine meets_bind (M := fun _ => Since base fun more _ => Checked inv stored failed held svc verified more)
      ?_ fun due => ?_
    · split
      · have quiet : Quiet (do
            let records := readLog (← Exec.readFile (logPath inv svc.id))
            return dumpDue records (← now) logical : Exec Bool) :=
          quiet_bind (quiet_orReject rfl) fun _ => quiet_bind quiet_now fun _ => quiet_pure _
        exact (quiet.meets fun more event step => sees more event (keepsCount_step step)).weaken (fun _ => id)
          (fun _ _ => id) fun e _ since => since.mono fun _ _ ⟨now, message, same⟩ => same ▸ now.unsaid
      · exact meets_pure fun _ => id
    · refine meets_ite (fun _ => ?_) fun _ => ?_
      · refine meets_bind (M := fun _ => Since base fun more _ => Checked inv stored failed held svc verified more)
          (meets_now fun _ => id) fun t => ?_
        refine meets_bind (M := fun _ => Since base fun more _ => Checked inv stored failed held svc verified more)
          ((meets_appendRecord svc.id _ sees).weaken (fun _ => id) (fun _ _ => id) fun e _ since => since.mono
            fun _ _ ⟨now, message, same⟩ => same ▸ now.unsaid) fun _ => meets_pure fun _ => id
      · exact (meets_makeCopies_verified svc reason due verified sees).weaken (fun _ => id)
          (fun r _ since => since.mono fun _ _ now => now.2 ▸ now.1)
          fun e _ since => since.mono fun _ _ now => now.1.carried now.2

/-- A turn of the loop: the service's entry carries the verification of its backup. -/
theorem meets_runService (steady : Steady env base inv stored failed) (options : AllOptions) (run : String)
    (svc : Service) {err : Failure → World Machine Unit → Prop} :
    Meets env (Since base fun more _ => heldAfter inv stored more = held) (runService inv options run svc)
      (fun entry => Since base fun more _ => Checked inv stored failed held svc entry.verified more) err := by
  unfold runService
  refine meets_bind (M := fun entry => Since base fun more _ =>
    Checked inv stored failed held svc entry.verified more) ?_ fun entry => ?_
  · refine meets_attempt (T := fun e => Since base fun more _ =>
      Checked inv stored failed held svc (verifiedOf e) more) ?_ fun e => ?_
    · exact meets_bind (meets_backup steady svc _ _) fun r => meets_pure fun _ => id
    · refine meets_pure fun _ since => since.mono fun _ _ now => ?_
      cases e <;> exact now
  · refine meets_ite (fun _ => ?_) fun _ => meets_pure fun _ => id
    have sees : ∀ more event, stepCalls event.call = true →
        Checked inv stored failed held svc entry.verified more →
        Checked inv stored failed held svc entry.verified (more ++ [event]) :=
      fun _ _ step now => now.sees (keepsCount_step step)
    refine meets_attempt (T := fun _ => Since base fun more _ =>
      Checked inv stored failed held svc entry.verified more) ?_ fun e => meets_pure fun _ => id
    exact meets_bind (((quiet_prune inv svc.id options.daily options.weekly).meets sees).weaken (fun _ => id)
      (fun _ _ => id) fun _ _ since => since.mono fun _ _ now => now.1) fun pruned => meets_pure fun _ => id

/-! ### A run over all services -/

/-- Every WAL verdict among the entries is this one. -/
def AllFind (found : Bool) (entries : List ServiceEntry) : Prop :=
  ∀ entry ∈ entries, ∀ v, entry.verified = some v → ∀ found', v.walOk = some found' → found' = found

theorem AllFind.nil {found : Bool} : AllFind found [] := fun _ among => absurd among List.not_mem_nil

theorem AllFind.snoc {found : Bool} {entries : List ServiceEntry} {entry : ServiceEntry}
    (all : AllFind found entries)
    (last : ∀ v, entry.verified = some v → ∀ found', v.walOk = some found' → found' = found) :
    AllFind found (entries ++ [entry]) := by
  intro each member
  rcases List.mem_append.mp member with before | same
  · exact all each before
  · exact List.mem_singleton.mp same ▸ last

/-- A count that is not below the cluster's stays so, whatever the services store. -/
theorem meets_unrisen (steady : Steady env base inv stored failed) (options : AllOptions) (run : String)
    (services : List Service) {err : Failure → World Machine Unit → Prop} (unrisen : verdict stored failed = true) :
    Meets env (Since base fun more _ => heldAfter inv stored more = {stored})
      (fold services [] fun entries svc => do return entries ++ [← runService inv options run svc])
      (fun entries => Since base fun _ _ => AllFind true entries) err := by
  refine (meets_fold (I := fun entries => Since base fun more _ =>
    (∀ count ∈ heldAfter inv stored more, verdict count failed = true) ∧ AllFind true entries)
    fun entries svc _ => ?_).weaken (fun w since => since.mono fun more _ now => ⟨fun count member => ?_, AllFind.nil⟩)
    (fun entries _ since => since.mono fun _ _ now => now.2) fun _ _ => id
  · rintro w ⟨before, trace, unrisen, all⟩
    have turn : Meets env (Since base fun more _ => heldAfter inv stored more = heldAfter inv stored before)
        (runService inv options run svc) (fun entry => Since base fun more _ =>
          Checked inv stored failed (heldAfter inv stored before) svc entry.verified more) err :=
      meets_runService steady options run svc
    refine (?_ : Meets env (Since base fun more _ => heldAfter inv stored more = heldAfter inv stored before) _ _ _)
      w ⟨before, trace, rfl⟩
    refine meets_bind turn fun entry => meets_pure fun _ since => since.mono fun more _ now => ⟨?_, ?_⟩
    · intro count member
      rcases now.left count member with same | rfl | rfl
      · exact unrisen count same
      · simp [verdict]
      · rfl
    · refine all.snoc fun v carried found is => ?_
      obtain ⟨count, member, same⟩ := now.found v carried found is
      exact same.trans (unrisen count member)
  · rw [now] at member
    exact Set.mem_singleton_iff.mp member ▸ unrisen

/-- The services that have databases. -/
def postgres (services : List Service) : List Service := services.filter (·.databases ≠ [])

/-- Until the one service with databases, the stored count is the first. -/
theorem meets_one_postgres (steady : Steady env base inv stored failed) (options : AllOptions) (run : String)
    (services : List Service) {err : Failure → World Machine Unit → Prop} (one : (postgres services).length ≤ 1) :
    Meets env (Since base fun more _ => heldAfter inv stored more = {stored})
      (fold services [] fun entries svc => do return entries ++ [← runService inv options run svc])
      (fun entries => Since base fun _ _ => AllFind (verdict stored failed) entries) err := by
  refine (meets_fold_split (I := fun done entries => Since base fun more _ =>
    (postgres done = [] → heldAfter inv stored more = {stored}) ∧ AllFind (verdict stored failed) entries)
    fun done svc rest entries whole => ?_).weaken (fun w since => since.mono fun more _ now => ⟨fun _ => now, AllFind.nil⟩)
    (fun entries _ since => since.mono fun _ _ now => now.2) fun _ _ => id
  rintro w ⟨before, trace, first, all⟩
  have turn : Meets env (Since base fun more _ => heldAfter inv stored more = heldAfter inv stored before)
      (runService inv options run svc) (fun entry => Since base fun more _ =>
        Checked inv stored failed (heldAfter inv stored before) svc entry.verified more) err :=
    meets_runService steady options run svc
  refine (?_ : Meets env (Since base fun more _ => heldAfter inv stored more = heldAfter inv stored before) _ _ _)
    w ⟨before, trace, rfl⟩
  refine meets_bind turn fun entry => meets_pure fun _ since => since.mono fun more _ now => ⟨fun none => ?_, ?_⟩
  · obtain ⟨none, unasked⟩ : postgres done = [] ∧ svc.databases = [] := by
      simpa [postgres] using none
    exact (now.unasked unasked).1.trans (first none)
  · refine all.snoc fun v carried found is => ?_
    have asked : svc.databases ≠ [] := fun unasked => by simp [(now.unasked unasked).2] at carried
    have none : postgres done = [] := by
      have short : (postgres done).length + 1 + (postgres rest).length ≤ 1 := by
        have counted : (postgres services).length = (postgres done).length + 1 + (postgres rest).length := by
          simp [whole, postgres, asked]
          omega
        omega
      exact List.length_eq_zero_iff.mp (by omega)
    obtain ⟨count, member, same⟩ := now.found v carried found is
    rw [first none] at member
    exact same.trans (congrArg (verdict · failed) (Set.mem_singleton_iff.mp member))

/-- Taking the lock leaves the stored count alone. -/
theorem meets_acquire_held (id : String) (pid : Nat) :
    Meets env (Since base fun more _ => heldAfter inv stored more = held) (Locks.acquire inv id pid)
      (fun _ => Since base fun more _ => heldAfter inv stored more = held) (fun _ _ => True) := by
  have emits : Emits (keepsCount inv) (Locks.acquire inv id pid) := by
    unfold Locks.acquire
    refine emits_bind emits_now fun t => emits_bind (emits_rejecting rfl) fun made => ?_
    split
    · exact emits_pure _
    · refine emits_bind (emits_attempt (emits_bind (emits_rejecting rfl) fun _ => emits_pure _) fun _ => emits_pure _)
        fun holder => emits_bind ?_ fun alive => ?_
      · split
        · exact emits_ask rfl
        · exact emits_pure _
      · split
        · exact emits_throw _
        · refine emits_bind (emits_rejecting (decide_eq_true (lockFile_ne id))) fun _ => ?_
          refine emits_bind (emits_rejecting rfl) fun again => ?_
          split
          · exact emits_pure _
          · exact emits_throw _
  have kept : Meets env (Since base fun more _ => heldAfter inv stored more = held) (Locks.acquire inv id pid)
      (fun _ => Since base fun more _ => heldAfter inv stored more = held)
      (fun _ => Since base fun more _ => heldAfter inv stored more = held) :=
    emits.meets_events fun more event keeps now => by rwa [heldAfter_snoc, holding_kept keeps]
  exact kept.weaken (fun _ held => held) (fun _ _ held => held) fun _ _ _ => trivial

/-- What the loop over the services brings about is in the summary. -/
theorem meets_backupAll {options : AllOptions} {pid : Nat} {of : List ServiceEntry → Prop}
    (loop : ∀ run, Meets env (Since base fun more _ => heldAfter inv stored more = {stored})
      (fold (covered inv) [] fun entries svc => do return entries ++ [← runService inv options run svc])
      (fun entries => Since base fun _ _ => of entries) (fun _ _ => True)) :
    Meets env (Since base fun more _ => more = []) (backupAll inv options pid) (fun summary _ => of summary.services)
      (fun _ _ => True) := by
  unfold backupAll
  refine meets_bind (M := fun _ => Since base fun more _ => heldAfter inv stored more = {stored})
    ((meets_acquire_held "_backup-all" pid).weaken (fun w since => since.mono fun more _ now => ?_)
      (fun _ _ kept => kept) fun _ _ => id) fun _ => ?_
  · exact now ▸ rfl
  refine meets_bind (M := fun _ => Since base fun more _ => heldAfter inv stored more = {stored})
    (meets_now fun _ => id) fun started => ?_
  refine meets_bind (loop _) fun services => meets_given (fun w ⟨_, _, now⟩ => now) fun done => ?_
  refine meets_bind (M := fun summary _ => summary.services = services) ?_ fun summary => ?_
  · split
    · exact meets_bind (meets_anyhow _) fun outcome => meets_pure fun _ _ => rfl
    · exact meets_pure fun _ _ => rfl
  refine meets_given (fun _ same => same) fun same => ?_
  subst same
  refine meets_bind (meets_anyhow _) fun finished => meets_bind (meets_anyhow _) fun _ => ?_
  refine meets_bind (meets_anyhow _) fun _ => meets_bind (meets_anyhow _) fun _ => ?_
  exact meets_bind (meets_anyhow _) fun _ => meets_pure fun _ _ => done

end

/-- The WAL verdicts of a run, in the order of its services. -/
def verdicts : Except Failure Summary → List Bool
  | .ok summary => summary.services.filterMap fun entry => entry.verified.bind (·.walOk)
  | .error _ => []

/-- Where the cluster's failed count is not above the stored one, or at most one service has databases, every
verdict of a run is the one on the count that was stored before it. -/
theorem verdicts_agree (env : Environment Machine) (w : World Machine Unit) (inv : Inventory) (options : AllOptions)
    (pid : Nat) (stored : Option Rat) (failed : Nat) (steady : Steady env w.trace inv stored failed)
    (fits : (∀ count, stored = some count → (failed : Rat) ≤ count) ∨ (postgres inv.services).length ≤ 1) :
    ∀ found ∈ verdicts (Program.run (backupAll inv options pid) env w).1, found = verdict stored failed := by
  have all : Meets env (Since w.trace fun more _ => more = []) (backupAll inv options pid)
      (fun summary _ => AllFind (verdict stored failed) summary.services) (fun _ _ => True) := by
    rcases fits with unrisen | one
    · have unrisen : verdict stored failed = true := by
        cases stored with
        | none => rfl
        | some count => simpa [verdict] using unrisen count rfl
      exact meets_backupAll fun run => unrisen ▸ meets_unrisen steady options run _ unrisen
    · refine meets_backupAll fun run => meets_one_postgres steady options run _ (Nat.le_trans ?_ one)
      exact (List.filter_sublist.filter _).length_le
  have ended := all w ⟨[], (List.append_nil _).symm, rfl⟩
  cases ran : Program.run (backupAll inv options pid) env w with
  | mk result next =>
    rw [ran] at ended
    cases result with
    | error e => exact nofun
    | ok summary =>
      intro found member
      obtain ⟨entry, among, carried⟩ := List.mem_filterMap.mp member
      obtain ⟨v, verified, is⟩ := Option.bind_eq_some_iff.mp carried
      exact ended entry among v verified found is

/-! ### A host where it rose -/

/-- A service with one database. -/
def databaseOf (id : String) : Service where
  id
  repo := "/opt/" ++ id
  owner := id
  runAs := id
  databases := [{ name := "main", database := id }]
  unit_service := Service.no_unit
  socket_socket := Service.no_socket
  auxiliary_apart := Service.no_auxiliary
  workers_service := Service.no_unit
  workers_apart := Service.no_worker
  auxiliary_no_worker := Service.no_auxiliary_worker
  sources_apart := Service.no_source
  sources_named := Service.no_source_named
  laid_out := Service.no_layout

def cluster (ids : List String) : Inventory where
  stateDir := "/var/lib/openvibe-host"
  backupDir := "/var/backups/openvibe"
  backupStagingDir := "/var/backups/openvibe.staging"
  services := ids.map databaseOf
  backup_absolute := backups_absolute

/-- What the last run left: three failures. -/
def threeFailures : String := "\x7b\"failedCount\":3\x7d\n"

/-- What the archiver's file holds after some events. -/
def noted (inv : Inventory) (trace : List (Event Machine)) : String :=
  trace.foldl
    (fun text event => match event.call with
      | .writeFile path content _ => if path = archiverPath inv then content else text
      | _ => text)
    threeFailures

/-- A cluster with a good backup, whose archiver has failed four times. -/
def risen (inv : Inventory) : Environment Machine where
  takes _ _ := 0
  answer trace := fun
    | .run "pgbackrest" .. => { stdout :=
        "[\x7b\"name\":\"openvibe\",\"backup\":[\x7b\"type\":\"full\",\"timestamp\":\x7b\"stop\":0\x7d\x7d]\x7d]" }
    | .psql .. => .ok [[("n", some "4")]]
    | .readFile path _ => .ok (if path = archiverPath inv then some (noted inv trace) else none)
    | .stat path => if endsWith path ".dump" then some {} else none
    | other => OpenVibeHost.steady other

theorem threeFailures_read : archiverCount (some threeFailures) = some 3 := by decide +kernel

theorem noted_held (inv : Inventory) (more : List (Event Machine)) :
    archiverCount (some (noted inv more)) ∈ heldAfter inv (some 3) more := by
  induction more using List.reverseRecOn with
  | nil => exact Set.mem_singleton_iff.mpr threeFailures_read
  | append_singleton more event ih =>
    obtain ⟨call, answer, clock⟩ := event
    rw [heldAfter_snoc, noted, List.foldl_append]
    cases call <;> simp only [List.foldl_cons, List.foldl_nil, holding] <;> try exact ih
    case writeFile path content privileged =>
      cases (answer : Except String Unit) with
      | ok done => split <;> first | rfl | exact ih
      | error message =>
        split
        · exact .inr (.inl rfl)
        · exact ih
    all_goals
      split
      · trivial
      · exact ih

theorem risen_steady (ids : List String) : Steady (risen (cluster ids)) [] (cluster ids) (some 3) 4 where
  reads more text read := by
    simp only [List.nil_append, risen, if_true] at read
    exact Except.ok.inj read ▸ noted_held _ more
  counts more rows found := by
    simp only [List.nil_append, risen] at found
    exact Except.ok.inj found ▸ rfl

/-- With one service its record has the failed check; with two the second sees no rise. -/
theorem risen_verdicts :
    verdicts (Program.run (backupAll (cluster ["live"]) {} 7) (risen (cluster ["live"])) ⟨(), 0, []⟩).1 = [false] ∧
      verdicts (Program.run (backupAll (cluster ["live", "shop"]) {} 7) (risen (cluster ["live", "shop"]))
        ⟨(), 0, []⟩).1 = [false, true] := by decide +kernel

/-- One service: its record has the failed check. -/
theorem one_postgres_fails :
    verdicts (Program.run (backupAll (cluster ["live"]) {} 7) (risen (cluster ["live"])) ⟨(), 0, []⟩).1 = [false] ∧
      ∀ found ∈ verdicts (Program.run (backupAll (cluster ["live"]) {} 7) (risen (cluster ["live"])) ⟨(), 0, []⟩).1,
        found = verdict (some 3) 4 :=
  ⟨risen_verdicts.1, verdicts_agree _ _ _ _ _ _ _ (risen_steady ["live"]) (.inr (by decide))⟩

/-- Two services: the first stores the count it fails on, and the second sees no rise. -/
theorem second_sees_no_rise : Steady (risen (cluster ["live", "shop"])) [] (cluster ["live", "shop"]) (some 3) 4 ∧
    verdicts (Program.run (backupAll (cluster ["live", "shop"]) {} 7) (risen (cluster ["live", "shop"]))
      ⟨(), 0, []⟩).1 = [false, true] :=
  ⟨risen_steady ["live", "shop"], risen_verdicts.2⟩

end OpenVibeHost.Backup
