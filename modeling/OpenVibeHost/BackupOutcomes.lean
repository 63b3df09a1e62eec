import OpenVibeHost.BackupSteps
import OpenVibeHost.JsonRoundTrip
import OpenVibeHost.Declarations

/-! What a backup leaves: its line in the log, the files in its directory, and its entry in the
summary of `backup --all`. -/
namespace OpenVibeHost.Backup
open Effects Program Declared

/-! ### The files that are there -/

/-- The path itself, or a path under it. -/
def Within (path file : String) : Prop := file = path ∨ (path.toList ++ ['/']) <+: file.toList

/-- The plain files known to be there after an event: `rm -rf --` and `mv -T --` take their paths after two
options, and no other command of a backup removes a file. -/
def presence (present : Set String) : Event Machine → Set String
  | ⟨.stat path, answer, _⟩ =>
    match (answer : Option Stat) with
    | some st => if st.isFile && !st.isSymlink then insert path present else present
    | none => {file ∈ present | ¬ Within path file}
  | ⟨.run cmd args _, answer, _⟩ =>
    if cmd = "rm" then {file ∈ present | ∀ path ∈ args.drop 2, ¬ Within path file}
    else if cmd = "mv" then
      match args.drop 2 with
      | [old, new] =>
        {file ∈ present | ¬ Within old file ∧ ¬ Within new file} ∪
          {file | (answer : RunResult).code = 0 ∧ ∃ rest, old ++ "/" ++ rest ∈ present ∧ file = new ++ "/" ++ rest}
      | _ => ∅
    else present
  | _ => present

def presentAfter (events : List (Event Machine)) : Set String := events.foldl presence ∅

/-- What is relied on: a listing gives names, and `mv -T` moves no directory into itself, nor onto one that it
is in. -/
structure Sound (env : Environment Machine) : Prop where
  listed : ∀ past path (entries : List Entry), env.answer past (.readdir path) = some entries →
    ∀ e ∈ entries, Segment e.name
  moved : ∀ past old new options (r : RunResult), env.answer past (.run "mv" ["-T", "--", old, new] options) = r →
    r.code = 0 → ¬ Within old new ∧ ¬ Within new old

/-! ### The log -/

def logLine (r : BackupRecord) : String := Json.stringify (recordJson r) ++ "\n"

/-- What some events append to the log. -/
def appended (inv : Inventory) (id : String) (events : List (Event Machine)) : List String :=
  events.filterMap fun
    | ⟨.appendFile path text, answer, _⟩ =>
      match (answer : Except String Unit) with
      | .ok () => if path = logPath inv id then some text else none
      | .error _ => none
    | _ => none

/-- A line that says `ok: true`. -/
def goodLine (line : String) : Bool :=
  match (Json.parse line).bind (·.field "ok") with
  | some (.bool ok) => ok
  | _ => false

/-- The calls that look at a source: a dump, or the measuring of an object directory that is there. -/
def attempts : Machine.Call → Bool
  | .run cmd _ _ => cmd = "pg_dump" || cmd = "du"
  | _ => false

def Attempted (events : List (Event Machine)) : Prop := ∃ event ∈ events, attempts event.call = true

/-- The staging directory was gone through. -/
def Sorted (events : List (Event Machine)) : Prop := ∃ event ∈ events, ∃ path, event.call = .readdir path

/-- No dump was due, and no object directory there. -/
def Barren (events : List (Event Machine)) : Prop := Sorted events ∧ ¬ Attempted events

/-- What a backup leaves. -/
structure Outcome (inv : Inventory) (id : String) (events : List (Event Machine))
    (result : Except Failure BackupRecord) : Prop where
  /-- It returns exactly when it leaves a good record. -/
  answers : ¬ Barren events → ((∃ r, result = .ok r) ↔ ∃ line ∈ appended inv id events, goodLine line = true)
  /-- A good record names files that are in its directory. -/
  names : ∀ line ∈ appended inv id events, ∃ r, line = logLine r ∧ (goodLine line = true →
    ∀ f ∈ r.files, ∀ dest, f.dest = some dest → ∃ dir file, r.dir = some dir ∧ f.file = some file ∧
      dest = joinPath dir file ∧ dest ∈ presentAfter events)

/-- What `normalise` has checked of the names of a service's databases and object directories. -/
structure NamedSources (svc : Service) : Prop where
  databases : ∀ db ∈ svc.databases, fileNameRe db.name = true
  objects : ∀ obj ∈ svc.objects, fileNameRe obj.name = true

/-! ### Small lemmas -/

theorem decimal_file (f : BackupFile) : Json.Decimal (BackupFile.json f) := by
  unfold BackupFile.json
  repeat' apply Json.decimal_fields_append
  · exact ⟨trivial, trivial, trivial⟩
  iterate 5 exact Json.decimal_option _ _ fun _ => trivial
  · cases f.sourceBytes <;> simp [Json.DecimalFields, Json.Decimal]
  · cases f.bytes <;> simp [Json.DecimalFields, Json.Decimal]

theorem decimal_verified (v : Verified) : Json.Decimal (Verified.json v) := by
  unfold Verified.json
  repeat' apply Json.decimal_fields_append
  all_goals first
    | exact ⟨trivial, trivial⟩
    | exact Json.decimal_option _ _ fun _ => trivial

theorem decimal_record (r : BackupRecord) : Json.Decimal (recordJson r) := by
  unfold recordJson
  refine Json.decimal_fields_append (Json.decimal_fields_append (Json.decimal_fields_append ?_ ?_) ?_) ?_
  · exact ⟨trivial, Json.decimal_text _, trivial, Json.decimal_text _, trivial, trivial⟩
  · exact Json.decimal_option _ _ fun _ => trivial
  · refine ⟨Json.decimal_item_of_mem fun item member => ?_, trivial⟩
    obtain ⟨f, -, rfl⟩ := List.mem_map.mp member
    exact decimal_file f
  · exact Json.decimal_option _ _ decimal_verified

/-- A line says of its record what the record says. -/
@[simp] theorem goodLine_logLine (r : BackupRecord) : goodLine (logLine r) = r.good := by
  rw [goodLine, logLine, Json.parse_stringify _ (decimal_record r)]
  cases dir : r.dir <;> cases verified : r.verified <;> simp [recordJson, Json.field, dir, verified]

section
variable {env : Environment Machine} {base : List (Event Machine)} {inv : Inventory} {svc : Service} {id : String}
  {α : Type}

theorem appended_snoc (events : List (Event Machine)) (event : Event Machine) :
    appended inv id (events ++ [event]) = appended inv id events ++ appended inv id [event] := by
  simp [appended]

theorem presentAfter_snoc (events : List (Event Machine)) (event : Event Machine) :
    presentAfter (events ++ [event]) = presence (presentAfter events) event := by
  simp [presentAfter]

theorem attempted_snoc {events : List (Event Machine)} {event : Event Machine} :
    Attempted (events ++ [event]) ↔ Attempted events ∨ attempts event.call = true := by
  simp only [Attempted, List.mem_append, List.mem_singleton]
  constructor
  · rintro ⟨e, member | rfl, attempt⟩
    · exact .inl ⟨e, member, attempt⟩
    · exact .inr attempt
  · rintro (⟨e, member, attempt⟩ | attempt)
    · exact ⟨e, .inl member, attempt⟩
    · exact ⟨event, .inr rfl, attempt⟩

theorem sorted_snoc {events : List (Event Machine)} (event : Event Machine) (sorted : Sorted events) :
    Sorted (events ++ [event]) :=
  let ⟨e, member, listing⟩ := sorted
  ⟨e, List.mem_append_left _ member, listing⟩

/-- Nothing but an appending adds to the log. -/
theorem unlogged_step {event : Event Machine} (step : stepCalls event.call = true) :
    appended inv id [event] = [] := by
  obtain ⟨call, answer, clock⟩ := event
  cases call <;> first | rfl | exact nomatch step

/-- The calls that neither look at a source nor at a copy, and remove nothing. -/
def tame : Machine.Call → Bool
  | .run cmd _ _ => cmd ≠ "pg_dump" && cmd ≠ "du" && cmd ≠ "rm" && cmd ≠ "mv"
  | .readFile .. | .readdir _ | .mkdir .. | .psql .. | .statfs _ => true
  | _ => false

theorem tame_attempts {call : Machine.Call} (calm : tame call = true) : attempts call = false := by
  cases call <;> simp_all [tame, attempts]

theorem tame_presence {event : Event Machine} (calm : tame event.call = true) (present : Set String) :
    presence present event = present := by
  obtain ⟨call, answer, clock⟩ := event
  cases call <;> simp_all [tame, presence]

theorem emits_lockDown {calls : Machine.Call → Bool} (path mode : String)
    (each : ∀ call, tame call = true → calls call = true) : Emits calls (lockDown path mode) := by
  unfold lockDown
  refine emits_bind (emits_ask (each _ rfl)) fun owner => ?_
  split
  · exact emits_throw _
  · refine emits_bind (emits_ask (each _ rfl)) fun r => ?_
    split
    · exact emits_throw _
    · exact emits_pure _

/-! ### The entries -/

/-- An entry that has a file is to be that file in the directory; one that has none has an error, or no
destination. -/
structure Planned (dir : String) (f : BackupFile) : Prop where
  file : ∀ file, f.file = some file → f.dest = some (joinPath dir file) ∧ Segment file
  dest : f.dest.isSome = true → f.error = none → f.file.isSome = true

theorem segment_of_name {name : String} (plain : fileNameRe name = true) {ending : String}
    (rest : '/' ∉ ending.toList) (long : 2 ≤ ending.length) : Segment (name ++ ending) := by
  have noSlash : '/' ∉ name.toList := by
    intro member
    simp only [fileNameRe, Bool.and_eq_true, List.all_eq_true] at plain
    have := plain.2 '/' member
    simp at this
  have length : 2 ≤ (name ++ ending).length := by
    rw [String.length_append]
    omega
  refine ⟨by simp [noSlash, rest], fun empty => ?_, fun dot => ?_⟩
  · rw [empty] at length
    exact absurd length (by decide)
  · rw [dot] at length
    exact absurd length (by decide)

theorem meets_dumpOne_planned (named : NamedSources svc) (dir stage : String) {db : Database}
    (member : db ∈ svc.databases) {pre : World Machine Unit → Prop} {err : Failure → World Machine Unit → Prop} :
    Meets env pre (dumpOne dir stage db) (fun f _ => Planned dir f ∧ f.dest.isSome = true) err := by
  have segment : Segment (fileName db) :=
    segment_of_name (named.databases db member) (by decide) (by decide)
  unfold dumpOne
  refine meets_bind (M := fun _ _ => True) (fun _ _ => trivial) fun r => ?_
  split
  · exact meets_pure fun _ _ => ⟨⟨fun _ none => (nomatch none), fun _ wrong => (nomatch wrong)⟩, rfl⟩
  · refine meets_pure fun _ _ => ⟨⟨fun file same => ?_, fun _ _ => rfl⟩, rfl⟩
    obtain rfl := Option.some.inj same
    exact ⟨rfl, segment⟩

theorem meets_archiveOne_planned (named : NamedSources svc) (dir stage : String) {obj : ObjectDirectory}
    (member : obj ∈ svc.objects) {pre : World Machine Unit → Prop} :
    Meets env pre (archiveOne inv dir stage obj) (fun f _ => Planned dir f) (fun _ _ => True) := by
  have segment : Segment (obj.name ++ ".tar.gz") :=
    segment_of_name (named.objects obj member) (by decide) (by decide)
  unfold archiveOne
  refine meets_bind (M := fun _ _ => True) (fun _ _ => trivial) fun st => ?_
  split
  · exact meets_pure fun _ _ => ⟨fun _ none => (nomatch none), fun none => (nomatch none)⟩
  · refine meets_bind (M := fun _ _ => True) (fun _ _ => trivial) fun du => ?_
    refine meets_bind (M := fun _ _ => True) (meets_anyhow _) fun short => ?_
    split
    · exact meets_pure fun _ _ => ⟨fun _ none => (nomatch none), fun _ wrong => (nomatch wrong)⟩
    · refine meets_bind (M := fun _ _ => True) (fun _ _ => trivial) fun _ => ?_
      refine meets_bind (M := fun _ _ => True) (fun _ _ => trivial) fun r => ?_
      split
      · exact meets_pure fun _ _ => ⟨fun _ none => (nomatch none), fun _ wrong => (nomatch wrong)⟩
      · refine meets_pure fun _ _ => ⟨fun file same => ?_, fun _ _ => rfl⟩
        obtain rfl := Option.some.inj same
        exact ⟨rfl, segment⟩

theorem meets_both {pre : World Machine Unit → Prop} {ok ok' : α → World Machine Unit → Prop} {p : Exec α}
    (meets : Meets env pre p ok (fun _ _ => True)) (meets' : Meets env pre p ok' (fun _ _ => True)) :
    Meets env pre p (fun a w => ok a w ∧ ok' a w) (fun _ _ => True) :=
  (meets.and meets').weaken (fun _ h => h) (fun _ _ h => h) fun _ _ _ => trivial

/-- What a program returns, whatever it does. -/
theorem meets_since_value {p : Exec α} (holds : α → Prop)
    (value : Meets env (fun _ => True) p (fun a _ => holds a) (fun _ _ => True)) :
    Meets env (Since base fun _ _ => True) p (fun a => Since base fun _ _ => holds a) (fun _ _ => True) := by
  refine ((meets_onward p).and (value.weaken (fun _ _ => trivial) (fun _ _ h => h) fun _ _ h => h)).weaken
    (fun _ h => h) (fun a w ⟨since, is⟩ => since.mono fun _ _ _ => is) fun _ _ _ => trivial

/-- An entry has a destination, or nothing was attempted for it. -/
theorem meets_archiveOne_attempted (dir stage : String) (obj : ObjectDirectory) {before : Prop} :
    Meets env (Since base fun more _ => Attempted more → before) (archiveOne inv dir stage obj)
      (fun f => Since base fun more _ => Attempted more → before ∨ f.dest.isSome = true) (fun _ _ => True) := by
  unfold archiveOne
  refine meets_since_ask_then fun st clock => ?_
  cases st with
  | none =>
    refine meets_pure fun _ since => since.mono fun more _ ⟨earlier, split, now⟩ attempted => .inl (now ?_)
    rw [split, attempted_snoc] at attempted
    exact attempted.resolve_right (by simp [attempts])
  | some st =>
    refine (meets_since_value (fun f => f.dest.isSome = true) ?_).weaken
      (fun _ since => since.mono fun _ _ _ => trivial) (fun f _ since => since.mono fun _ _ is _ => .inr is)
      fun _ _ h => h
    refine meets_bind (M := fun _ _ => True) (fun _ _ => trivial) fun du => ?_
    refine meets_bind (M := fun _ _ => True) (meets_anyhow _) fun short => ?_
    split
    · exact meets_pure fun _ _ => rfl
    · refine meets_bind (M := fun _ _ => True) (fun _ _ => trivial) fun _ => ?_
      refine meets_bind (M := fun _ _ => True) (fun _ _ => trivial) fun r => ?_
      split
      · exact meets_pure fun _ _ => rfl
      · exact meets_pure fun _ _ => rfl

/-! ### The copies -/

theorem meets_tame {p : Exec α} {K : List (Event Machine) → Prop} (emits : Emits tame p)
    (sees : ∀ more event, tame event.call = true → K more → K (more ++ [event])) :
    Meets env (Since base fun more _ => K more) p (fun _ => Since base fun more _ => K more) (fun _ _ => True) := by
  have kept : Meets env (Since base fun more _ => K more) p (fun _ => Since base fun more _ => K more)
    (fun _ => Since base fun more _ => K more) := emits.meets_events sees
  exact kept.weaken (fun _ h => h) (fun _ _ h => h) fun _ _ _ => trivial

theorem attempted_tame {more : List (Event Machine)} {event : Event Machine} {before : Prop}
    (calm : tame event.call = true) (now : Attempted more → before) (attempted : Attempted (more ++ [event])) : before := by
  refine now ((attempted_snoc.mp attempted).resolve_right ?_)
  simp [tame_attempts calm]

/-- An entry that was attempted has a destination. -/
def Destined (files : List BackupFile) (more : List (Event Machine)) : Prop :=
  Attempted more → ∃ f ∈ files, f.dest.isSome = true

theorem meets_dumps (named : NamedSources svc) (dir stage : String) (due : Bool) :
    Meets env (Since base fun more _ => ¬ Attempted more)
      (fold (if due then svc.databases else []) [] fun files db => do return files ++ [← dumpOne dir stage db])
      (fun dumps => Since base fun more _ => (∀ f ∈ dumps, Planned dir f) ∧ Destined dumps more)
      (fun _ _ => True) := by
  refine (meets_fold (I := fun dumps => Since base fun more _ => (∀ f ∈ dumps, Planned dir f) ∧ Destined dumps more)
    fun dumps db member => ?_).weaken (fun _ since => since.mono fun _ _ none => ⟨nofun, fun some => (none some).elim⟩)
    (fun _ _ h => h) fun _ _ h => h
  have member : db ∈ svc.databases := by
    cases due with
    | false => simp at member
    | true => simpa using member
  refine meets_given (fun w ⟨_, _, now⟩ => now.1) fun planned => ?_
  refine meets_bind ((meets_since_value _ (meets_dumpOne_planned named dir stage member)).weaken
    (fun _ since => since.mono fun _ _ _ => trivial) (fun _ _ h => h) fun _ _ h => h) fun f => ?_
  refine meets_pure fun _ since => since.mono fun more _ is => ⟨fun f' member => ?_, fun _ => ⟨f, by simp, is.2⟩⟩
  rcases List.mem_append.mp member with before | last
  · exact planned f' before
  · exact List.mem_singleton.mp last ▸ is.1

theorem meets_archives (named : NamedSources svc) (dir stage : String) (dumps : List BackupFile) :
    Meets env (Since base fun more _ => (∀ f ∈ dumps, Planned dir f) ∧ Destined dumps more)
      (fold svc.objects dumps fun files obj => do return files ++ [← archiveOne inv dir stage obj])
      (fun made => Since base fun more _ => (∀ f ∈ made, Planned dir f) ∧ Destined made more)
      (fun _ _ => True) := by
  refine meets_fold (I := fun made => Since base fun more _ => (∀ f ∈ made, Planned dir f) ∧ Destined made more)
    fun made obj member => ?_
  refine meets_given (fun w ⟨_, _, now⟩ => now.1) fun planned => ?_
  have entry : Meets env (Since base fun _ _ => True) (archiveOne inv dir stage obj)
      (fun f => Since base fun _ _ => Planned dir f) (fun _ _ => True) :=
    meets_since_value _ (meets_archiveOne_planned named dir stage member)
  have tried : Meets env (Since base fun more _ => Destined made more) (archiveOne inv dir stage obj)
      (fun f => Since base fun more _ => Attempted more → (∃ g ∈ made, g.dest.isSome = true) ∨ f.dest.isSome = true)
      (fun _ _ => True) := meets_archiveOne_attempted dir stage obj
  refine meets_bind (meets_both (entry.weaken (fun _ since => since.onward) (fun _ _ h => h) fun _ _ h => h)
    (tried.weaken (fun _ since => since.mono fun _ _ now => now.2) (fun _ _ h => h) fun _ _ h => h)) fun f => ?_
  refine meets_pure fun _ ⟨is, since⟩ => (is.and since).mono fun more _ now => ⟨fun f' member => ?_, fun attempted => ?_⟩
  · rcases List.mem_append.mp member with before | last
    · exact planned f' before
    · exact List.mem_singleton.mp last ▸ now.1
  · rcases now.2 attempted with ⟨f', member, is⟩ | is
    · exact ⟨f', List.mem_append_left _ member, is⟩
    · exact ⟨f, by simp, is⟩

theorem meets_checkCopy_entry (stage : String) (f : BackupFile) :
    Meets env (Since base fun _ _ => True) (checkCopy stage f)
      (fun f' => Since base fun _ _ => f'.dest = f.dest ∧ f'.file = f.file ∧ (f'.error = none → f.error = none))
      (fun _ _ => True) := by
  refine meets_since_value _ ?_
  unfold checkCopy
  split
  · rename_i sound
    refine meets_bind (M := fun _ _ => True) (fun _ _ => trivial) fun st => ?_
    split
    · split
      · exact meets_bind (meets_anyhow _) fun _ => meets_pure fun _ _ => ⟨rfl, rfl, fun is => is⟩
      · exact meets_pure fun _ _ => ⟨rfl, rfl, fun _ => sound⟩
    · exact meets_pure fun _ _ => ⟨rfl, rfl, fun _ => sound⟩
  · exact meets_pure fun _ _ => ⟨rfl, rfl, fun is => is⟩

/-- A copy without an error is there, as are the ones before it. -/
theorem meets_checkCopy_present (stage : String) (f : BackupFile) {there : Set String} :
    Meets env (Since base fun more _ => there ⊆ presentAfter more) (checkCopy stage f)
      (fun f' => Since base fun more _ => f'.error = none → there ⊆ presentAfter more ∧
        ∀ file, f.file = some file → joinPath stage file ∈ presentAfter more) (fun _ _ => True) := by
  unfold checkCopy
  split
  · rename_i file named sound
    refine meets_since_ask_then fun st clock => ?_
    cases st with
    | none => exact meets_pure fun _ since => since.mono fun _ _ _ wrong => nomatch wrong
    | some st =>
      dsimp only
      split
      · rename_i plain
        refine meets_bind (M := fun _ => Since base fun more _ => there ⊆ presentAfter more ∧
          joinPath stage file ∈ presentAfter more) ?_ fun _ => ?_
        · refine (meets_tame (emits_lockDown _ _ fun _ calm => calm) fun more event calm now => ?_).weaken
            (fun _ since => since.mono fun more _ ⟨before, split, now⟩ => ?_) (fun _ _ h => h) fun _ _ h => h
          · rwa [presentAfter_snoc, tame_presence calm]
          · have isPlain : (st.isFile && !st.isSymlink) = true := by
              simp only [Bool.and_eq_true] at plain ⊢
              exact plain.1
            rw [split, presentAfter_snoc]
            simp only [presence, isPlain, if_true]
            exact ⟨fun _ member => .inr (now member), .inl rfl⟩
        · refine meets_pure fun _ since => since.mono fun _ _ now _ => ⟨now.1, fun file' same => ?_⟩
          obtain rfl := Option.some.inj (named.symm.trans same)
          exact now.2
      · exact meets_pure fun _ since => since.mono fun _ _ _ wrong => nomatch wrong
  · rename_i unchecked
    refine meets_pure fun _ since => since.mono fun _ _ now sound => ⟨now, fun file named => ?_⟩
    exact (unchecked file named sound).elim

theorem meets_checkCopy_attempted (stage : String) (f : BackupFile) {before : Prop} :
    Meets env (Since base fun more _ => Attempted more → before) (checkCopy stage f)
      (fun _ => Since base fun more _ => Attempted more → before) (fun _ _ => True) := by
  have emits : Emits (fun call => !attempts call) (checkCopy stage f) := by
    unfold checkCopy
    split
    · refine emits_bind (emits_ask rfl) fun st => ?_
      split
      · split
        · exact emits_bind (emits_lockDown _ _ fun _ calm => by simp [tame_attempts calm]) fun _ => emits_pure _
        · exact emits_pure _
      · exact emits_pure _
    · exact emits_pure _
  have kept : Meets env (Since base fun more _ => Attempted more → before) (checkCopy stage f)
      (fun _ => Since base fun more _ => Attempted more → before)
      (fun _ => Since base fun more _ => Attempted more → before) := by
    refine emits.meets_events fun more event other now attempted => now ?_
    refine (attempted_snoc.mp attempted).resolve_right ?_
    simpa using other
  exact kept.weaken (fun _ h => h) (fun _ _ h => h) fun _ _ _ => trivial

/-- The copies of some entries, in a directory, where none of them failed. -/
def copiesIn (dir : String) (files : List BackupFile) : Set String :=
  {path | (∀ f ∈ files, f.error = none) ∧ ∃ f ∈ files, ∃ file, f.file = some file ∧ path = joinPath dir file}

/-- What the check of the copies leaves of the entries it is given. -/
structure Checking (dir stage : String) (attempted : Prop) (done files : List BackupFile) (more : List (Event Machine)) :
    Prop where
  planned : ∀ f ∈ files, Planned dir f
  dests : files.map (·.dest) = done.map (·.dest)
  attempted : Attempted more → attempted
  present : copiesIn stage files ⊆ presentAfter more

theorem meets_checks (stage : String) {dir : String} {made : List BackupFile} (planned : ∀ f ∈ made, Planned dir f)
    {attempted : Prop} :
    Meets env (Since base fun more _ => Attempted more → attempted)
      (fold made [] fun files f => do return files ++ [← checkCopy stage f])
      (fun files => Since base fun more _ => Checking dir stage attempted made files more) (fun _ _ => True) := by
  refine (meets_fold_upto (I := fun done files => Since base fun more _ => Checking dir stage attempted done files more)
    fun done f files isMade => ?_).weaken (fun _ since => since.mono fun _ _ now => ⟨nofun, rfl, now, ?_⟩)
    (fun _ _ h => h) fun _ _ h => h
  · rintro w ⟨more, trace, now⟩
    have there : Since base (fun more' (_ : Unit) => presentAfter more ⊆ presentAfter more') w :=
      ⟨more, trace, subset_rfl⟩
    have tried : Since base (fun more' (_ : Unit) => Attempted more' → attempted) w := ⟨more, trace, now.attempted⟩
    refine (?_ : Meets env (fun w => Since base (fun more' _ => presentAfter more ⊆ presentAfter more') w ∧
      Since base (fun more' _ => Attempted more' → attempted) w) _ _ _) w ⟨there, tried⟩
    refine meets_bind (meets_both
      ((meets_checkCopy_present stage f).weaken (fun _ h => h.1) (fun _ _ h => h) fun _ _ h => h)
      (meets_both ((meets_checkCopy_attempted stage f).weaken (fun _ h => h.2) (fun _ _ h => h) fun _ _ h => h)
        ((meets_checkCopy_entry stage f).weaken (fun _ h => h.1.onward) (fun _ _ h => h) fun _ _ h => h)))
      fun f' => ?_
    refine meets_pure fun _ ⟨present, tried, entry⟩ => (present.and (tried.and entry)).mono
      fun more' _ ⟨present, tried, dest, file, sound⟩ => ⟨fun g member => ?_, ?_, tried, fun path copy => ?_⟩
    · rcases List.mem_append.mp member with before | last
      · exact now.planned g before
      · obtain rfl := List.mem_singleton.mp last
        refine ⟨fun name named => ?_, fun some none => ?_⟩
        · exact dest ▸ (planned f isMade).file name (file ▸ named)
        · exact file ▸ (planned f isMade).dest (dest ▸ some) (sound none)
    · simp [now.dests, dest]
    · obtain ⟨sound', g, member, name, named, rfl⟩ := copy
      have checked := present (sound' f' (by simp))
      rcases List.mem_append.mp member with before | last
      · have sound : ∀ g ∈ files, g.error = none := fun g before => sound' g (List.mem_append_left _ before)
        exact checked.1 (now.present ⟨sound, g, before, name, named, rfl⟩)
      · obtain rfl := List.mem_singleton.mp last
        exact checked.2 name (file ▸ named)
  · rintro - ⟨-, f, none, -⟩
    exact nomatch none

/-! ### The directory of the copies -/

theorem joinPath_eq {dir name : String} (joinable : Joinable dir) (segment : Segment name) :
    joinPath dir name = dir ++ "/" ++ name := by
  rw [joinPath, if_neg, if_neg]
  · exact fun same => same.elim joinable.2 joinable.1
  · exact fun same => same.elim segment.named.2 segment.named.1

/-- A name in a directory is in no other name of it. -/
theorem within_joinPath {dir name file : String} (joinable : Joinable dir) (named : Segment name) (segment : Segment file)
    (within : Within (joinPath dir name) (joinPath dir file)) : name = file := by
  rcases within with same | inside
  · have chars := congrArg String.toList same
    rw [toList_joinPath joinable named, toList_joinPath joinable segment] at chars
    have rest := List.append_cancel_left chars
    exact String.toList_injective (List.cons.inj rest).2.symm
  · rw [toList_joinPath joinable named, toList_joinPath joinable segment, List.append_assoc,
      List.prefix_append_right_inj, List.cons_append, List.cons_prefix_cons] at inside
    exact absurd (inside.2.subset (by simp)) segment.plain

/-- What is in a directory is in another only where the one directory is in the other. -/
theorem within_apart {stage dir file : String} (joinable : Joinable dir) (segment : Segment file)
    (apart : ¬ Within stage dir ∧ ¬ Within dir stage) : ¬ Within stage (joinPath dir file) := by
  have under : dir.toList ++ ['/'] <+: (joinPath dir file).toList := by
    rw [toList_joinPath joinable segment]
    exact ⟨file.toList, by simp⟩
  rintro (same | inside)
  · exact apart.2 (.inr (same ▸ under))
  · rcases List.prefix_or_prefix_of_prefix inside under with first | first
    · rcases List.prefix_concat_iff.mp first with same | first
      · exact apart.1 (.inl (String.toList_injective (List.append_cancel_right same)).symm)
      · exact apart.1 (.inr first)
    · rcases List.prefix_concat_iff.mp first with same | first
      · exact apart.1 (.inl (String.toList_injective (List.append_cancel_right same)))
      · exact apart.2 (.inr first)

theorem joinable_joinPath {dir rest : String} (dashed : '-' ∈ rest.toList) : Joinable (joinPath dir rest) := by
  have notEmpty (text : String) (member : '-' ∈ text.toList) : text ≠ "" ∧ text ≠ "." := by
    refine ⟨fun same => ?_, fun same => ?_⟩ <;> rw [same] at member <;> exact absurd member (by decide)
  refine notEmpty _ ?_
  unfold joinPath
  split
  · rename_i none
    exact absurd none (by simp [notEmpty rest dashed])
  · split
    · exact dashed
    · simp [dashed]

/-- What the copies of a run come to. -/
structure Staged (dir : String) (files : List BackupFile) (more : List (Event Machine)) : Prop where
  planned : ∀ f ∈ files, Planned dir f
  sorted : Sorted more
  destined : Destined files more
  present : copiesIn dir files ⊆ presentAfter more

theorem wanted_of_copy {dir path : String} {files : List BackupFile} (copy : path ∈ copiesIn dir files) :
    ∃ name ∈ (files.filter (·.error = none)).filterMap (·.file), path = joinPath dir name := by
  obtain ⟨sound, f, member, name, named, rfl⟩ := copy
  refine ⟨name, List.mem_filterMap.mpr ⟨f, List.mem_filter.mpr ⟨member, ?_⟩, named⟩, rfl⟩
  simp [sound f member]

theorem meets_sortStage {stage dir : String} {files : List BackupFile} (joinable : Joinable stage)
    (planned : ∀ f ∈ files, Planned dir f) {entries : List Entry} (named : ∀ e ∈ entries, Segment e.name)
    {attempted : Prop} {err : Failure → World Machine Unit → Prop} :
    Meets env (Since base fun more _ => Sorted more ∧ (Attempted more → attempted) ∧
        copiesIn stage files ⊆ presentAfter more)
      (forEach entries fun e =>
        if e.name ∈ (files.filter (·.error = none)).filterMap (·.file) then pure ()
        else do
          let _ ← Exec.run "rm" ["-rf", "--", joinPath stage e.name] { privileged := true })
      (fun _ => Since base fun more _ => Sorted more ∧ (Attempted more → attempted) ∧
        copiesIn stage files ⊆ presentAfter more) err := by
  refine meets_forEach fun e member => ?_
  split
  · exact meets_pure fun _ h => h
  · rename_i unwanted
    refine meets_since_ask_then fun r clock => meets_pure fun _ since => since.mono fun more _ ⟨before, split, now⟩ => ?_
    rw [split]
    refine ⟨sorted_snoc _ now.1, fun tried => now.2.1 ((attempted_snoc.mp tried).resolve_right (by simp [attempts])), ?_⟩
    intro path copy
    rw [presentAfter_snoc]
    refine ⟨now.2.2 copy, fun removed member' => ?_⟩
    obtain rfl : removed = joinPath stage e.name := by simpa using member'
    obtain ⟨name, wanted, rfl⟩ := wanted_of_copy copy
    intro within
    obtain ⟨f, among, is⟩ := List.mem_filterMap.mp wanted
    have segment := ((planned f (List.mem_of_mem_filter among)).file name is).2
    exact unwanted (within_joinPath joinable (named e member) segment within ▸ wanted)

/-- The copies of a run are in their directory, which is not in the staging directory. -/
theorem meets_copyAll (sound : Sound env) (named : NamedSources svc) (due : Bool) {dir stage : String}
    (inDir : Joinable dir) (inStage : Joinable stage) :
    Meets env (Since base fun more _ => ¬ Attempted more) (copyAll inv svc due dir stage)
      (fun files => Since base fun more _ => Staged dir files more ∧
        ∀ path ∈ copiesIn dir files, ¬ Within stage path) (fun _ _ => True) := by
  unfold copyAll
  refine meets_bind (meets_dumps named dir stage due) fun dumps => ?_
  refine meets_bind (M := fun _ => Since base fun more _ => (∀ f ∈ dumps, Planned dir f) ∧ Destined dumps more)
    (meets_tame (emits_lockDown _ _ fun _ calm => calm) fun _ _ calm now => ⟨now.1, attempted_tame calm now.2⟩) fun _ => ?_
  refine meets_bind (meets_archives named dir stage dumps) fun made => ?_
  refine meets_given (fun w ⟨_, _, now⟩ => now.1) fun planned => ?_
  refine meets_bind ((meets_checks stage planned).weaken (fun _ since => since.mono fun _ _ now => now.2)
    (fun _ _ h => h) fun _ _ h => h) fun files => ?_
  refine meets_given (fun w ⟨_, _, now⟩ => And.intro now.planned now.dests) fun ⟨planned, dests⟩ => ?_
  have destined : (∃ f ∈ made, f.dest.isSome = true) → ∃ f ∈ files, f.dest.isSome = true := by
    rintro ⟨f, member, some⟩
    have among : f.dest ∈ files.map (·.dest) := dests ▸ List.mem_map_of_mem member
    obtain ⟨g, member, same⟩ := List.mem_map.mp among
    exact ⟨g, member, same ▸ some⟩
  refine meets_since_answer_then fun past clock => ?_
  refine meets_bind (M := fun _ => Since base fun more _ => Sorted more ∧ Destined files more ∧
    copiesIn stage files ⊆ presentAfter more) ?_ fun _ => ?_
  · refine (meets_sortStage inStage planned ?_).weaken (fun _ since => since.mono fun more _ ⟨before, split, now⟩ => ?_)
      (fun _ _ h => h) fun _ _ h => h
    · cases found : env.answer past (.readdir stage) with
      | none => exact nofun
      | some entries => exact sound.listed past stage entries found
    · rw [split]
      refine ⟨⟨_, List.mem_append_right _ (List.mem_singleton_self _), _, rfl⟩, ?_, ?_⟩
      · exact fun tried => destined (now.attempted ((attempted_snoc.mp tried).resolve_right (by simp [attempts])))
      · rw [presentAfter_snoc]
        exact now.present
  · have placed : Meets env (Since base fun more _ => Sorted more ∧ Destined files more ∧
        copiesIn dir files ⊆ presentAfter more ∧ ∀ path ∈ copiesIn dir files, ¬ Within stage path)
        (pure files : Exec (List BackupFile)) (fun files => Since base fun more _ => Staged dir files more ∧
          ∀ path ∈ copiesIn dir files, ¬ Within stage path) (fun _ _ => True) :=
      meets_pure fun _ since => since.mono fun _ _ now => ⟨⟨planned, now.1, now.2.1, now.2.2.1⟩, now.2.2.2⟩
    refine meets_bind (meets_whenever (fun some => ?_) fun none w since => since.mono fun more _ now =>
      ⟨now.1, now.2.1, fun path copy => ?_, fun path copy => ?_⟩) fun _ => placed
    · refine meets_since_answer_then fun past clock => ?_
      split
      · exact meets_throw fun _ _ => trivial
      · rename_i moved
        have apart := sound.moved past stage dir _ _ rfl (by simpa using moved)
        refine (meets_tame (emits_lockDown _ _ fun _ calm => calm) fun more event calm now =>
          ⟨sorted_snoc _ now.1, attempted_tame calm now.2.1, ?_, now.2.2.2⟩).weaken
          (fun _ since => since.mono fun more _ ⟨before, split, now⟩ => ?_) (fun _ _ h => h) fun _ _ h => h
        · rw [presentAfter_snoc, tame_presence calm]
          exact now.2.2.1
        · rw [split]
          refine ⟨sorted_snoc _ now.1, fun tried => now.2.1 ((attempted_snoc.mp tried).resolve_right
            (by simp [attempts])), fun path copy => ?_, fun path copy => ?_⟩
          · obtain ⟨sound, f, member, name, is, rfl⟩ := copy
            have segment := ((planned f member).file name is).2
            have staged : joinPath stage name ∈ presentAfter before := now.2.2 ⟨sound, f, member, name, is, rfl⟩
            rw [joinPath_eq inStage segment] at staged
            rw [presentAfter_snoc, joinPath_eq inDir segment]
            exact .inr ⟨by simpa using moved, name, staged, rfl⟩
          · obtain ⟨-, f, member, name, is, rfl⟩ := copy
            exact within_apart inDir ((planned f member).file name is).2 apart
    all_goals
      obtain ⟨name, wanted, -⟩ := wanted_of_copy copy
      exact absurd (List.ne_nil_of_mem wanted) none

/-- Clearing the staging directory leaves what is not in it. -/
theorem meets_clearStage {dir stage : String} {files : List BackupFile}
    (apart : ∀ path ∈ copiesIn dir files, ¬ Within stage path) {err : Failure → World Machine Unit → Prop} :
    Meets env (Since base fun more _ => Staged dir files more) (clearStage stage)
      (fun _ => Since base fun more _ => Staged dir files more) err := by
  unfold clearStage
  refine meets_since_ask_then fun st clock => ?_
  have kept {more : List (Event Machine)} {event : Event Machine} (now : Staged dir files more)
      (other : attempts event.call = false)
      (present : ∀ path ∈ presentAfter more, ¬ Within stage path → path ∈ presence (presentAfter more) event) :
      Staged dir files (more ++ [event]) := by
    refine ⟨now.planned, sorted_snoc _ now.sorted, fun tried => now.destined ((attempted_snoc.mp tried).resolve_right
      (by simp [other])), fun path copy => ?_⟩
    rw [presentAfter_snoc]
    exact present path (now.present copy) (apart path copy)
  cases st with
  | none =>
    refine meets_pure fun _ since => since.mono fun more _ ⟨before, split, now⟩ => split ▸ kept now rfl ?_
    exact fun path there outside => ⟨there, outside⟩
  | some st =>
    refine meets_since_ask_then fun r clock' => meets_pure fun _ since => since.mono
      fun more _ ⟨middle, split, before, split', now⟩ => ?_
    rw [split]
    refine kept ?_ (by simp [attempts]) fun path there outside => ⟨there, by simpa using outside⟩
    rw [split']
    refine kept now rfl fun path there _ => ?_
    simp only [presence]
    split
    · exact .inr there
    · exact there

theorem dash_stamp (ms : Nat) : '-' ∈ (Dates.stamp ms).toList := by simp [Dates.stamp]

theorem attempts_tame {call : Machine.Call} (calm : tame call = true) : (!attempts call) = true := by
  simp [tame_attempts calm]

theorem meets_unattempted {p : Exec α} (emits : Emits (fun call => !attempts call) p) :
    Meets env (Since base fun more _ => ¬ Attempted more) p (fun _ => Since base fun more _ => ¬ Attempted more)
      (fun _ _ => True) := by
  have kept : Meets env (Since base fun more _ => ¬ Attempted more) p
      (fun _ => Since base fun more _ => ¬ Attempted more) (fun _ => Since base fun more _ => ¬ Attempted more) :=
    emits.meets_events fun more event other now tried =>
      now ((attempted_snoc.mp tried).resolve_right (by simpa using other))
  exact kept.weaken (fun _ h => h) (fun _ _ h => h) fun _ _ _ => trivial

theorem emits_privateDir (path : String) : Emits (fun call => !attempts call) (privateDir path) :=
  emits_bind (emits_rejecting rfl) fun _ => emits_lockDown _ _ fun _ calm => attempts_tame calm

theorem emits_clearStage (stage : String) : Emits (fun call => !attempts call) (clearStage stage) := by
  unfold clearStage
  refine emits_bind (emits_ask rfl) fun st => ?_
  cases st with
  | none => exact emits_pure _
  | some st => exact emits_bind (emits_ask rfl) fun _ => emits_pure _

theorem meets_stageCopies (sound : Sound env) (named : NamedSources svc) (due : Bool) :
    Meets env (Since base fun more _ => ¬ Attempted more) (stageCopies inv svc due)
      (fun made => Since base fun more _ => Staged made.1 made.2 more) (fun _ _ => True) := by
  unfold stageCopies
  refine meets_bind (M := fun _ => Since base fun more _ => ¬ Attempted more) (meets_now fun _ h => h) fun t => ?_
  refine meets_bind (meets_unattempted (emits_ask rfl)) fun there => ?_
  split
  · exact meets_throw fun _ _ => trivial
  refine meets_bind (meets_unattempted (emits_privateDir _)) fun _ => ?_
  refine meets_bind (meets_unattempted (emits_privateDir _)) fun _ => ?_
  refine meets_bind (meets_unattempted (emits_rejecting rfl)) fun _ => ?_
  refine meets_bind (meets_unattempted (emits_lockDown _ _ fun _ calm => attempts_tame calm)) fun _ => ?_
  refine meets_bind (meets_unattempted (emits_clearStage _)) fun _ => ?_
  refine meets_bind (meets_unattempted (emits_rejecting rfl)) fun _ => ?_
  have inDir : Joinable (joinPath (joinPath inv.backupDir svc.id) (Dates.stamp t)) := joinable_joinPath (dash_stamp t)
  have inStage : Joinable (joinPath inv.backupStagingDir (svc.id ++ "-" ++ Dates.stamp t)) :=
    joinable_joinPath (by simp)
  generalize joinPath (joinPath inv.backupDir svc.id) (Dates.stamp t) = dir at inDir ⊢
  generalize joinPath inv.backupStagingDir (svc.id ++ "-" ++ Dates.stamp t) = stage at inStage ⊢
  refine meets_bind (M := fun files => Since base fun more _ => Staged dir files more) ?_
    fun files => meets_pure fun _ h => h
  refine meets_ensure (meets_copyAll sound named due inDir inStage) (fun files => ?_)
    fun e => (meets_anyhow _).weaken (fun _ h => h) (fun _ _ _ => trivial) fun _ _ _ => trivial
  refine meets_given (fun w ⟨_, _, now⟩ => now.2) fun apart => ?_
  exact (meets_clearStage apart).weaken (fun _ since => since.mono fun _ _ now => now.1) (fun _ _ h => h)
    fun _ _ h => h

/-! ### One backup -/

theorem outcome_unlogged {events : List (Event Machine)} {e : Failure} (none : appended inv id events = []) :
    Outcome inv id events (.error e) where
  answers _ := by simp [none]
  names line member := by simp [none] at member

theorem outcome_logged {events : List (Event Machine)} {r : BackupRecord} {result : Except Failure BackupRecord}
    (one : appended inv id events = [logLine r])
    (answers : ¬ Barren events → ((∃ r, result = .ok r) ↔ r.good = true))
    (names : r.good = true → ∀ f ∈ r.files, ∀ dest, f.dest = some dest → ∃ dir file, r.dir = some dir ∧
      f.file = some file ∧ dest = joinPath dir file ∧ dest ∈ presentAfter events) : Outcome inv id events result where
  answers productive := by simpa [one] using answers productive
  names line member := by
    obtain rfl : line = logLine r := by simpa [one] using member
    exact ⟨r, rfl, fun good => names (by simpa using good)⟩

/-- Before the record, nothing of the backup is in the log. -/
theorem meets_unlogged {p : Exec α} (quiet : Quiet p) {ok : α → World Machine Unit → Prop}
    (finds : Meets env (Since base fun more _ => ¬ Attempted more) p ok (fun _ _ => True)) :
    Meets env (Since base fun more _ => appended inv id more = [] ∧ ¬ Attempted more) p
      (fun a w => ok a w ∧ Since base (fun more _ => appended inv id more = []) w)
      (fun e => Since base fun more _ => Outcome inv id more (.error e)) := by
  have kept : Meets env (Since base fun more _ => appended inv id more = []) p
      (fun _ => Since base fun more _ => appended inv id more = [])
      (fun e => Since base fun more _ => appended inv id more = [] ∧ ∃ message, e = .plain message) := by
    refine quiet.meets fun more event step now => ?_
    rw [appended_snoc, now, unlogged_step step]
    rfl
  refine ((finds.weaken (fun _ since => since.mono fun _ _ now => now.2) (fun _ _ h => h) fun _ _ h => h).and
    (kept.weaken (fun _ since => since.mono fun _ _ now => now.1) (fun _ _ h => h) fun _ _ h => h)).weaken (fun _ h => h)
    (fun _ _ h => h) fun e _ ⟨_, since⟩ => since.mono fun _ _ now => outcome_unlogged now.1

/-- The record is the one line of the backup, or the backup ends without one. -/
theorem meets_appendRecord_line (r : BackupRecord) {K : List (Event Machine) → Prop}
    (sees : ∀ more event, (∃ path text, event.call = .appendFile path text) → K more → K (more ++ [event])) :
    Meets env (Since base fun more _ => appended inv id more = [] ∧ K more) (appendRecord inv id r)
      (fun _ => Since base fun more _ => appended inv id more = [logLine r] ∧ K more)
      (fun e => Since base fun more _ => Outcome inv id more (.error e)) := by
  unfold appendRecord Exec.appendFile Exec.orReject
  refine meets_since_ask_then fun answer clock => ?_
  cases answer with
  | ok done =>
    refine meets_ret fun _ since => since.mono fun more _ ⟨before, split, now⟩ => ?_
    rw [split]
    refine ⟨?_, sees _ _ ⟨_, _, rfl⟩ now.2⟩
    rw [appended_snoc, now.1]
    simp [appended, logLine]
  | error message =>
    refine meets_throw fun _ since => since.mono fun more _ ⟨before, split, now⟩ => ?_
    rw [split]
    refine outcome_unlogged ?_
    rw [appended_snoc, now.1]
    simp [appended]

theorem staged_append {dir : String} {files : List BackupFile} {more : List (Event Machine)} {event : Event Machine}
    (appending : ∃ path text, event.call = .appendFile path text) (now : Staged dir files more) :
    Staged dir files (more ++ [event]) := by
  obtain ⟨call, answer, clock⟩ := event
  obtain ⟨path, text, rfl⟩ := appending
  refine ⟨now.planned, sorted_snoc _ now.sorted, fun tried => now.destined ((attempted_snoc.mp tried).resolve_right
    (by simp [attempts])), ?_⟩
  rw [presentAfter_snoc]
  exact now.present

theorem meets_recordCopies (reason : String) (verified : Option Verified) (dir : String) (files : List BackupFile) :
    Meets env (Since base fun more _ => appended inv svc.id more = [] ∧ Staged dir files more)
      (recordCopies inv svc reason verified dir files)
      (fun r => Since base fun more _ => Outcome inv svc.id more (.ok r))
      (fun e => Since base fun more _ => Outcome inv svc.id more (.error e)) := by
  unfold recordCopies
  refine meets_bind (M := fun _ => Since base fun more _ => appended inv svc.id more = [] ∧ Staged dir files more)
    (meets_now fun _ h => h) fun t => ?_
  refine meets_bind (meets_appendRecord_line _ fun _ _ => staged_append) fun _ => ?_
  have good : (copiesRecord svc reason verified dir files t).good = true ↔
      files.filter (·.error.isSome) = [] ∧ files.any copied = true := by
    simp [copiesRecord]
  have names {more : List (Event Machine)} (now : Staged dir files more)
      (isGood : (copiesRecord svc reason verified dir files t).good = true) :
      ∀ f ∈ files, ∀ dest, f.dest = some dest → ∃ dir' file, some dir = some dir' ∧ f.file = some file ∧
        dest = joinPath dir' file ∧ dest ∈ presentAfter more := by
    intro f member dest isDest
    have sound : ∀ g ∈ files, g.error = none := by simpa using (good.mp isGood).1
    obtain ⟨file, named⟩ := Option.isSome_iff_exists.mp
      ((now.planned f member).dest (by simp [isDest]) (sound f member))
    have same : dest = joinPath dir file :=
      Option.some.inj (isDest.symm.trans ((now.planned f member).file file named).1)
    exact ⟨dir, file, rfl, named, same, now.present ⟨sound, f, member, file, named, same⟩⟩
  split
  · rename_i failed
    refine meets_throw fun _ since => since.mono ?_
    rintro more - ⟨one, now⟩
    refine outcome_logged one (fun _ => ?_) (names now)
    simp only [reduceCtorEq, exists_false, false_iff, good, not_and]
    exact fun none => absurd none failed
  · rename_i sound
    refine meets_pure fun _ since => since.mono ?_
    rintro more - ⟨one, now⟩
    refine outcome_logged one (fun productive => ?_) (names now)
    have sound : files.filter (·.error.isSome) = [] := not_not.mp sound
    have tried : Attempted more := by
      by_contra none
      exact productive ⟨now.sorted, none⟩
    obtain ⟨f, member, some⟩ := now.destined tried
    have noError : f.error = none := by simpa using List.filter_eq_nil_iff.mp sound f member
    refine ⟨fun _ => good.mpr ⟨sound, List.any_eq_true.mpr ⟨f, member, ?_⟩⟩, fun _ => ⟨_, rfl⟩⟩
    simp [copied, some, noError]

/-- The calls that add nothing to a log and look at no source. -/
def silent : Machine.Call → Bool
  | .run cmd _ _ => cmd ≠ "pg_dump" && cmd ≠ "du"
  | .appendFile .. => false
  | _ => true

theorem meets_silent {p : Exec α} (emits : Emits silent p) :
    Meets env (Since base fun more _ => appended inv id more = [] ∧ ¬ Attempted more) p
      (fun _ => Since base fun more _ => appended inv id more = [] ∧ ¬ Attempted more)
      (fun e => Since base fun more _ => Outcome inv id more (.error e)) := by
  have kept : Meets env (Since base fun more _ => appended inv id more = [] ∧ ¬ Attempted more) p
      (fun _ => Since base fun more _ => appended inv id more = [] ∧ ¬ Attempted more)
      (fun _ => Since base fun more _ => appended inv id more = [] ∧ ¬ Attempted more) := by
    refine emits.meets_events fun more event quiet now => ⟨?_, fun tried => now.2 ?_⟩
    · rw [appended_snoc, now.1]
      obtain ⟨call, answer, clock⟩ := event
      cases call <;> first | rfl | exact nomatch quiet
    · refine (attempted_snoc.mp tried).resolve_right ?_
      obtain ⟨call, answer, clock⟩ := event
      cases call <;> simp_all [attempts, silent]
  exact kept.weaken (fun _ h => h) (fun _ _ h => h) fun _ _ since => since.mono fun _ _ now => outcome_unlogged now.1

theorem emits_verifyPgBackRest : Emits silent verifyPgBackRest := by
  unfold verifyPgBackRest
  refine emits_bind emits_now fun t => emits_bind (emits_ask rfl) fun r => ?_
  split
  · exact emits_throw _
  · split
    · exact emits_throw _
    · dsimp only
      split
      · exact emits_throw _
      · split
        · exact emits_throw _
        · split
          · exact emits_throw _
          · split
            · exact emits_throw _
            · exact emits_pure _

theorem emits_verifyPostgres : Emits silent (verifyPostgres inv) := by
  unfold verifyPostgres walFailedCount readArchiver writeArchiver
  refine emits_attempt (emits_bind emits_verifyPgBackRest fun newest => ?_) fun e => emits_pure _
  refine emits_bind (emits_bind (emits_rejecting rfl) fun rows => ?_) fun count => ?_
  · split
    · exact emits_pure _
    · exact emits_throw _
  · refine emits_bind (emits_bind (emits_rejecting rfl) fun text => emits_pure _) fun previous => ?_
    refine emits_bind (emits_bind (emits_rejecting rfl) fun _ => emits_bind emits_now fun t => emits_rejecting rfl)
      fun _ => ?_
    dsimp only
    split
    · split
      · exact emits_pure _
      · exact emits_pure _
    · exact emits_pure _

theorem meets_backup_outcome (sound : Sound env) (named : NamedSources svc) (reason : String) (logical : Bool) :
    Meets env (Since base fun more _ => more = []) (backup inv svc reason logical)
      (fun r => Since base fun more _ => Outcome inv svc.id more (.ok r))
      (fun e => Since base fun more _ => Outcome inv svc.id more (.error e)) := by
  unfold backup
  refine (?_ : Meets env (Since base fun more _ => appended inv svc.id more = [] ∧ ¬ Attempted more) _ _ _).weaken
    (fun _ since => since.mono fun _ _ now => now ▸ ⟨rfl, fun ⟨_, member, _⟩ => nomatch member⟩) (fun _ _ h => h)
    fun _ _ h => h
  refine meets_ite (fun _ => meets_throw fun _ since => since.mono fun _ _ now => outcome_unlogged now.1) fun _ => ?_
  refine meets_bind (M := fun _ => Since base fun more _ => appended inv svc.id more = [] ∧ ¬ Attempted more)
    ?_ fun verified => ?_
  · split
    · exact meets_map (meets_silent emits_verifyPostgres)
    · exact meets_pure fun _ h => h
  have appending : ∀ (more : List (Event Machine)) (event : Event Machine),
      (∃ path text, event.call = .appendFile path text) → True → True := fun _ _ _ _ => trivial
  have line (r : BackupRecord) : Meets env
      (Since base fun more _ => appended inv svc.id more = [] ∧ ¬ Attempted more) (appendRecord inv svc.id r)
      (fun _ => Since base fun more _ => appended inv svc.id more = [logLine r] ∧ True)
      (fun e => Since base fun more _ => Outcome inv svc.id more (.error e)) :=
    (meets_appendRecord_line r appending).weaken (fun _ since => since.mono fun _ _ now => ⟨now.1, trivial⟩)
      (fun _ _ h => h) fun _ _ h => h
  refine meets_ite (fun _ => ?_) fun _ => ?_
  · refine meets_bind (meets_silent emits_now) fun t => meets_bind (line _) fun _ => ?_
    refine meets_throw fun _ since => since.mono fun _ _ now => outcome_logged now.1 (fun _ => by simp) ?_
    exact fun wrong => nomatch wrong
  · refine meets_bind (M := fun _ => Since base fun more _ => appended inv svc.id more = [] ∧ ¬ Attempted more)
      ?_ fun due => ?_
    · split
      · exact meets_bind (meets_silent (emits_rejecting rfl)) fun text => meets_bind (meets_silent emits_now)
          fun t => meets_pure fun _ h => h
      · exact meets_pure fun _ h => h
    · refine meets_ite (fun _ => ?_) fun _ => ?_
      · refine meets_bind (meets_silent emits_now) fun t => meets_bind (line _) fun _ => ?_
        refine meets_pure fun _ since => since.mono fun _ _ now => outcome_logged now.1 (fun _ => by simp) ?_
        exact fun _ _ none => nomatch none
      · rw [makeCopies_eq]
        refine meets_bind (meets_unlogged (quiet_stageCopies inv svc due) (meets_stageCopies sound named due)) fun made => ?_
        exact (meets_recordCopies reason verified made.1 made.2).weaken (fun _ ⟨staged, unlogged⟩ => unlogged.and staged)
          (fun _ _ h => h) fun _ _ h => h

/-! ### All services -/

/-- The prune after a backup throws. -/
def PruneThrows (env : Environment Machine) (inv : Inventory) (options : AllOptions) (svc : Service)
    (w : World Machine Unit) : Prop :=
  options.prune = true ∧ ∃ e, (Program.run (prune inv svc.id options.daily options.weekly) env w).1 = .error e

/-- The world after a service's prune, where there is one. -/
def afterPrune (env : Environment Machine) (inv : Inventory) (options : AllOptions) (svc : Service)
    (w : World Machine Unit) : World Machine Unit :=
  if options.prune then (Program.run (prune inv svc.id options.daily options.weekly) env w).2 else w

/-- The turns of a run over some services: what the backup of each leaves, and its status in the summary. That is
failed exactly when the backup threw, or the prune after it. -/
inductive Turns (env : Environment Machine) (inv : Inventory) (options : AllOptions) (run : String) :
    World Machine Unit → List Service → List ServiceEntry → Prop
  | nil (w) : Turns env inv options run w [] []
  | cons {w backedUp : World Machine Unit} {svc : Service} {entry : ServiceEntry} {services : List Service}
      {entries : List ServiceEntry} {result : Except Failure BackupRecord} {events : List (Event Machine)}
      (ran : Program.run (backup inv svc ("scheduled " ++ run) options.logical) env w = (result, backedUp))
      (trace : backedUp.trace = w.trace ++ events) (outcome : Outcome inv svc.id events result)
      (status : entry.status = .failed ↔ (¬ ∃ r, result = .ok r) ∨ PruneThrows env inv options svc backedUp)
      (rest : Turns env inv options run (afterPrune env inv options svc backedUp) services entries) :
      Turns env inv options run w (svc :: services) (entry :: entries)

theorem backup_outcome (sound : Sound env) (named : NamedSources svc) (reason : String) (logical : Bool)
    (w : World Machine Unit) :
    ∃ events, (Program.run (backup inv svc reason logical) env w).2.trace = w.trace ++ events ∧
      Outcome inv svc.id events (Program.run (backup inv svc reason logical) env w).1 := by
  have ended : Ends _ _ (Program.run (backup inv svc reason logical) env w) :=
    meets_backup_outcome sound named reason logical w ⟨[], (List.append_nil _).symm, rfl⟩
  cases ran : Program.run (backup inv svc reason logical) env w with
  | mk result next =>
    rw [ran] at ended
    cases result with
    | ok r => exact ended
    | error e => exact ended

theorem returned_status (r : BackupRecord) : (returned svc r).status ≠ .failed := by
  unfold returned
  split <;> simp

theorem threw_status (e : Failure) : (threw svc e).status = .failed := by cases e <;> rfl

/-- What is made of a result, where an error is an answer as well. -/
def answered {β : Type} (f : α → β) (g : Failure → β) : Except Failure α → β
  | .ok a => f a
  | .error e => g e

theorem run_answered {β : Type} (p : Exec α) (f : α → β) (g : Failure → β) (w : World Machine Unit) :
    Program.run (attempt (p >>= fun a => pure (f a)) fun e => pure (g e)) env w =
      (.ok (answered f g (Program.run p env w).1), (Program.run p env w).2) := by
  cases ran : Program.run p env w with
  | mk result next => cases result <;> simp [attempt, bind_eq, pure_eq, andThen, ran, answered]

/-- A turn of the loop never throws. -/
theorem runService_run (options : AllOptions) (run : String) (w : World Machine Unit) :
    ∃ entry : ServiceEntry, Program.run (runService inv options run svc) env w =
        (.ok entry, afterPrune env inv options svc
          (Program.run (backup inv svc ("scheduled " ++ run) options.logical) env w).2) ∧
      (entry.status = .failed ↔
        (¬ ∃ r, (Program.run (backup inv svc ("scheduled " ++ run) options.logical) env w).1 = .ok r) ∨
          PruneThrows env inv options svc (Program.run (backup inv svc ("scheduled " ++ run) options.logical) env w).2) := by
  have first : Program.run (attempt (do return returned svc (← backup inv svc ("scheduled " ++ run) options.logical))
      fun e => pure (threw svc e)) env w = _ := run_answered _ _ _ w
  cases ran : Program.run (backup inv svc ("scheduled " ++ run) options.logical) env w with
  | mk result backedUp =>
    rw [ran] at first
    have status : (answered (returned svc) (threw svc) result).status = .failed ↔ ¬ ∃ r, result = .ok r := by
      cases result with
      | ok r => simp [answered, returned_status]
      | error e => simp [answered, threw_status]
    unfold runService
    rw [bind_eq, run_andThen_ok first]
    unfold afterPrune PruneThrows
    cases options.prune with
    | false => exact ⟨_, rfl, by simpa using status⟩
    | true =>
      refine ⟨_, run_answered _ _ _ backedUp, ?_⟩
      cases (Program.run (prune inv svc.id options.daily options.weekly) env backedUp).1 with
      | ok pruned => simpa [answered] using status
      | error e => simp [answered, unpruned]

theorem run_turns (sound : Sound env) (options : AllOptions) (run : String) {services : List Service}
    (named : ∀ svc ∈ services, NamedSources svc) (entries : List ServiceEntry) (w : World Machine Unit) :
    ∃ (more : List ServiceEntry) (final : World Machine Unit),
      Program.run (fold services entries fun entries svc => do return entries ++ [← runService inv options run svc])
        env w = (.ok (entries ++ more), final) ∧ Turns env inv options run w services more := by
  induction services generalizing entries w with
  | nil => exact ⟨[], w, by rw [List.append_nil]; rfl, .nil w⟩
  | cons svc services ih =>
    obtain ⟨entry, ran, status⟩ := @runService_run env inv svc options run w
    obtain ⟨events, trace, outcome⟩ := @backup_outcome env inv svc sound (named svc List.mem_cons_self)
      ("scheduled " ++ run) options.logical w
    obtain ⟨more, final, rest, turns⟩ := ih (fun later member => named later (List.mem_cons_of_mem _ member))
      (entries ++ [entry]) (afterPrune env inv options svc
        (Program.run (backup inv svc ("scheduled " ++ run) options.logical) env w).2)
    refine ⟨entry :: more, final, ?_, .cons rfl trace outcome status turns⟩
    have turn : Program.run (do return entries ++ [← runService inv options run svc]) env w =
        (.ok (entries ++ [entry]), _) := (run_andThen_ok ran).trans rfl
    rw [fold, run_andThen_ok turn, rest]
    simp

theorem meets_backupAll_turns (sound : Sound env) (named : ∀ svc ∈ inv.services, NamedSources svc)
    (options : AllOptions) (pid : Nat) (w : World Machine Unit) :
    Meets env (fun w' => w' = w) (backupAll inv options pid)
      (fun summary _ => ∃ start : World Machine Unit, w.trace <+: start.trace ∧
        Turns env inv options summary.run start (covered inv) summary.services) (fun _ _ => True) := by
  have named : ∀ svc ∈ covered inv, NamedSources svc := fun svc member => named svc (List.mem_of_mem_filter member)
  unfold backupAll
  refine meets_bind (M := fun _ v => w.trace <+: v.trace) ?_ fun _ => ?_
  · rintro v same
    have onward := ((Locks.acquire inv "_backup-all" pid).onward env v).2
    cases ran : Program.run (Locks.acquire inv "_backup-all" pid) env v with
    | mk result next =>
      rw [ran, same] at onward
      cases result with
      | ok done => exact onward
      | error e => trivial
  refine meets_bind (M := fun _ v => w.trace <+: v.trace) (meets_now fun _ h => h) fun started => ?_
  refine meets_bind (M := fun services _ => ∃ start : World Machine Unit, w.trace <+: start.trace ∧
    Turns env inv options (Dates.stamp started) start (covered inv) services) ?_ fun services => ?_
  · intro v onward
    obtain ⟨entries, final, ran, turns⟩ := run_turns sound options (Dates.stamp started) named [] v
    rw [ran]
    exact ⟨v, onward, turns⟩
  refine meets_given (fun _ h => h) fun turns => ?_
  refine meets_bind (M := fun summary _ => summary.services = services ∧ summary.run = Dates.stamp started) ?_
    fun summary => ?_
  · split
    · exact meets_bind (meets_anyhow _) fun outcome => meets_pure fun _ _ => ⟨rfl, rfl⟩
    · exact meets_pure fun _ _ => ⟨rfl, rfl⟩
  refine meets_given (fun _ same => same) fun ⟨same, same'⟩ => ?_
  refine meets_bind (meets_anyhow _) fun finished => meets_bind (meets_anyhow _) fun _ => ?_
  refine meets_bind (meets_anyhow _) fun _ => meets_bind (meets_anyhow _) fun _ => ?_
  exact meets_bind (meets_anyhow _) fun _ => meets_pure fun _ _ => same ▸ same' ▸ turns

end

/-- A backup returns exactly when it leaves a good record, unless it found no source to copy; a good record names
files that are in its directory; and `backup --all` says failed exactly where a backup threw, or the prune after
it. -/
theorem records_tell (env : Environment Machine) (sound : Sound env) (inv : Inventory)
    (named : ∀ svc ∈ inv.services, NamedSources svc) :
    (∀ svc ∈ inv.services, ∀ (reason : String) (logical : Bool) (w : World Machine Unit), ∃ events,
      (Program.run (backup inv svc reason logical) env w).2.trace = w.trace ++ events ∧
        Outcome inv svc.id events (Program.run (backup inv svc reason logical) env w).1) ∧
    ∀ (options : AllOptions) (pid : Nat) (w w' : World Machine Unit) (summary : Summary),
      Program.run (backupAll inv options pid) env w = (.ok summary, w') →
        ∃ start : World Machine Unit, w.trace <+: start.trace ∧
          Turns env inv options summary.run start (covered inv) summary.services := by
  refine ⟨fun svc member reason logical w => backup_outcome sound (named svc member) reason logical w, ?_⟩
  intro options pid w w' summary ran
  have ended := meets_backupAll_turns sound named options pid w w rfl
  rw [ran] at ended
  exact ended

/-! ### A host with one object directory -/

/-- A service with an object directory. -/
def gallery : Service where
  id := "gallery"
  repo := "/opt/gallery"
  owner := "gallery"
  runAs := "gallery"
  objects := [{ name := "media", path := "/var/lib/gallery/media" }]
  unit_service := Service.no_unit
  socket_socket := Service.no_socket
  auxiliary_apart := Service.no_auxiliary
  workers_service := Service.no_unit
  workers_apart := Service.no_worker
  auxiliary_no_worker := Service.no_auxiliary_worker
  sources_apart := Service.no_source
  sources_named := Service.no_source_named
  laid_out := Service.no_layout

def galleryHost : Inventory where
  stateDir := "/var/lib/openvibe-host"
  backupDir := "/var/backups/openvibe"
  backupStagingDir := "/var/backups/openvibe.staging"
  services := [gallery]
  backup_absolute := backups_absolute

instance (path file : String) : Decidable (Within path file) := inferInstanceAs (Decidable (_ ∨ _))

/-- Every command succeeds but a move into what is moved, or onto what it is in; there are these files. -/
def hosting (there : String → Bool) : Environment Machine := hostOf fun
  | .run "mv" ["-T", "--", old, new] _ => if Within old new ∨ Within new old then { code := 1 } else {}
  | .stat path => if there path then some {} else none
  | .statfs _ => .ok (2 ^ 40)
  | other => steady other

/-- The directory and the copy made of it. -/
def mediaThere (path : String) : Bool := path = "/var/lib/gallery/media" || endsWith path "media.tar.gz"

theorem hosting_sound (there : String → Bool) : Sound (hosting there) where
  listed past path entries listed := nomatch listed
  moved past old new options r answered succeeded := by
    subst answered
    by_contra nested
    rw [← not_or, not_not] at nested
    simp [hosting, hostOf, nested] at succeeded

theorem gallery_named : ∀ svc ∈ galleryHost.services, NamedSources svc := by
  intro svc member
  obtain rfl := List.mem_singleton.mp member
  exact ⟨by decide, by decide⟩

/-- What a run adds to the log of a service. -/
def logged (inv : Inventory) (id : String) {α : Type} (ran : Except Failure α × World Machine Unit) : List Bool :=
  (appended inv id ran.2.trace).map goodLine

theorem logged_of_records {id : String} {α : Type} {ran : Except Failure α × World Machine Unit}
    (records : List BackupRecord) (lines : appended inv id ran.2.trace = records.map logLine) :
    logged inv id ran = records.map (·.good) := by
  rw [logged, lines, List.map_map]
  exact List.map_congr_left fun r _ => by simp

/-- The record of a copy of the directory. -/
def mediaRecord (reason : String) : BackupRecord where
  service := "gallery"
  madeAt := some "1970-01-01T00:00:00.000Z"
  reason
  good := true
  dir := some "/var/backups/openvibe/gallery/19700101-000000"
  files := [{
    name := "media"
    source := "/var/lib/gallery/media"
    dest := some "/var/backups/openvibe/gallery/19700101-000000/media.tar.gz"
    file := some "media.tar.gz"
    kind := some "objects"
    sourceBytes := some 0
    bytes := some 0 }]

/-- The record where there is no directory. -/
def missingRecord : BackupRecord where
  service := "gallery"
  madeAt := some "1970-01-01T00:00:00.000Z"
  reason := "manual"
  good := false
  dir := some "/var/backups/openvibe/gallery/19700101-000000"
  files := [{ name := "media", source := "/var/lib/gallery/media", skipped := some "not found" }]

/-- The directory is copied, and the record is good. -/
theorem media_copied :
    logged galleryHost "gallery" (Program.run (backup galleryHost gallery "manual" false) (hosting mediaThere)
      ⟨(), 0, []⟩) = [true] ∧
    ∃ events, (Program.run (backup galleryHost gallery "manual" false) (hosting mediaThere) ⟨(), 0, []⟩).2.trace =
        [] ++ events ∧
      Outcome galleryHost gallery.id events
        (Program.run (backup galleryHost gallery "manual" false) (hosting mediaThere) ⟨(), 0, []⟩).1 :=
  ⟨logged_of_records [mediaRecord "manual"] (by decide +kernel),
    (records_tell (hosting mediaThere) (hosting_sound _) galleryHost gallery_named).1 gallery
      (by simp [galleryHost]) "manual" false ⟨(), 0, []⟩⟩

/-- A log that cannot be read when the prune reads it. -/
def unreadable : Environment Machine where
  takes _ _ := 0
  answer past
    | .readFile _ _ => .error "EIO"
    | other => (hosting mediaThere).answer past other

def succeeds {α : Type} : Except Failure α → Bool
  | .ok _ => true
  | .error _ => false

def statuses : Except Failure Summary → List Status
  | .ok summary => summary.services.map (·.status)
  | .error _ => []

/-- A prune that fails is a failed service with a good record; and where there was nothing to copy, the backup
returns with a record that is not good. -/
theorem failed_with_good_record :
    statuses (Program.run (backupAll galleryHost {} 7) unreadable ⟨(), 0, []⟩).1 = [.failed] ∧
      logged galleryHost "gallery" (Program.run (backupAll galleryHost {} 7) unreadable ⟨(), 0, []⟩) = [true] ∧
      succeeds (Program.run (backup galleryHost gallery "manual" false) (hosting fun _ => false) ⟨(), 0, []⟩).1 =
        true ∧
      logged galleryHost "gallery" (Program.run (backup galleryHost gallery "manual" false)
        (hosting fun _ => false) ⟨(), 0, []⟩) = [false] := by
  refine ⟨by decide +kernel, ?_, by decide +kernel, ?_⟩
  · exact logged_of_records [mediaRecord "scheduled 19700101-000000"] (by decide +kernel)
  · exact logged_of_records [missingRecord] (by decide +kernel)

end OpenVibeHost.Backup
