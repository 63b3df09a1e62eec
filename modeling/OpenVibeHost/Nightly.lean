import OpenVibeHost.Backup
import OpenVibeHost.Transition

/-! The backups of one service over any number of nights of `ovhost backup --all`
on which every command succeeds: which nights dump the databases, which
directories the pruning leaves, and which one a restore drill would choose. -/
namespace OpenVibeHost.Nightly
open Backup Dates Retention Transition

/-- What the nights leave: the names under `<backupDir>/<service>` and the backup log. -/
structure Store where
  dirs : List String := []
  log : List BackupRecord := []

/-- One night: what the clock reads when the cadence is decided, when the directory
is named and when the record is written, and the object directories that are there. -/
structure Night where
  checked : Nat
  stamped : Nat
  recorded : Nat
  found : List String

section
variable (inv : Inventory) (svc : Service)

/-- `<backupDir>/<service>`. -/
def base : String := joinPath inv.backupDir svc.id

/-- The entry of a database whose dump succeeded. -/
def dumped (dir : String) (db : Database) : BackupFile where
  name := db.name
  source := db.database
  dest := some (joinPath dir (fileName db))
  file := some (fileName db)

/-- The entry of an object directory: skipped where it is not found. -/
def archived (dir : String) (night : Night) (obj : ObjectDirectory) : BackupFile :=
  if obj.path ∈ night.found then
    { name := obj.name
      source := obj.path
      dest := some (joinPath dir (obj.name ++ ".tar.gz"))
      file := some (obj.name ++ ".tar.gz")
      kind := some "objects" }
  else { name := obj.name, source := obj.path, skipped := some "not found" }

/-- The `files` of a night: the dumps where they are due, then the archives. -/
def copies (due : Bool) (dir : String) (night : Night) : List BackupFile :=
  (if due then svc.databases else []).map (dumped dir) ++ svc.objects.map (archived dir night)

/-- `f.file && !f.error`: what the move into place takes along. -/
def wanted (f : BackupFile) : Bool := f.file.isSome && f.error.isNone

/-- `backup`; where it throws, the store stays as it is. -/
def backup (night : Night) (store : Store) : Store :=
  if svc.databases = [] ∧ svc.objects = [] then store
  else
    let due := svc.databases ≠ [] && dumpDue store.log night.checked false
    if due = false ∧ svc.objects = [] then
      { store with log := store.log ++
          [{ service := svc.id, madeAt := some (isoString night.recorded), good := true }] }
    else
      let st := stamp night.stamped
      let dir := joinPath (base inv svc) st
      if st ∈ store.dirs then store
      else
        let files := copies svc due dir night
        { dirs := if files.any wanted then st :: store.dirs else store.dirs
          log := store.log ++
            [{ service := svc.id
               madeAt := some (isoString night.recorded)
               good := files.any copied
               dir := some dir
               files }] }

/-- The name of a record's directory, where it lies under `<backupDir>/<service>`. -/
def nameOf (r : BackupRecord) : Option String :=
  r.dir.bind fun dir => if dirName dir = base inv svc then some (baseName dir) else none

/-- The names recorded as good. -/
def goodNames (log : List BackupRecord) : List String :=
  (log.filter (·.good)).filterMap (nameOf inv svc)

/-- `prune`. -/
def prune (daily weekly : Nat) (store : Store) : Store :=
  let recorded (d : String) := d ∈ store.log.filterMap (nameOf inv svc)
  let recordedGood (d : String) := d ∈ goodNames inv svc store.log
  let dirs := store.dirs.filter fun d => (parseStamp d).isSome
  let good := dirs.filter fun d => recordedGood d
  if good = [] then store
  else
    let keepSet := keep good daily weekly
    let remove := dirs.filter fun d =>
      recorded d ∧ if recordedGood d then d ∉ keepSet else ∃ newer ∈ good, d < newer
    { store with dirs := store.dirs.filter fun d => d ∉ remove }

/-- A night of `backup --all`, as far as it concerns the service. -/
def step (daily weekly : Nat) (store : Store) (night : Night) : Store :=
  prune inv svc daily weekly (backup inv svc night store)

/-- What `resolveBackup` chooses of the log: the newest good record with a directory
and a dump of every database. -/
def chosen (log : List BackupRecord) : Option BackupRecord :=
  let records := log.filter fun r => r.dir.isSome && r.good
  let usable := if svc.databases = [] then records
    else records.filter fun r =>
      svc.databases.all fun db => r.files.any fun f => f.file = some (fileName db)
  usable.getLast?

/-- The directory that a restore drill would choose is there. -/
def Restorable (store : Store) : Prop :=
  ∀ r ∈ chosen svc store.log, ∃ name ∈ store.dirs, nameOf inv svc r = some name

/-- The policy keeps a stamp among the good ones; the years after 9999 have no
stamps that `prune` knows. -/
def Survives (daily weekly : Nat) (stamps : List String) (st : String) : Prop :=
  parseStamp st = none ∨ Retained daily weekly (valid stamps) st

/-- By the dates of all the runs so far, the policy still keeps the newest dump. -/
def DumpRetained (daily weekly : Nat) (store : Store) : Prop :=
  ∀ r ∈ chosen svc store.log, ∀ name, nameOf inv svc r = some name →
    Survives daily weekly (goodNames inv svc store.log) name

end

/-! ### Names -/

private theorem digit_ne_slash (n : Nat) : digit n ≠ '/' := by
  have all : ∀ k < 10, Char.ofNat ('0'.toNat + k) ≠ '/' := by decide
  exact all _ (Nat.mod_lt _ (by decide))

private theorem slash_notMem_pad (width n : Nat) : '/' ∉ pad width n := by
  induction width generalizing n with
  | zero => simp [pad]
  | succ width ih => simpa [pad] using ⟨ih (n / 10), (digit_ne_slash n).symm⟩

theorem segment_stamp (ms : Nat) : Segment (stamp ms) := by
  have dash : '-' ∈ (stamp ms).toList := by simp [stamp]
  have year : '/' ∉ yearText (fieldsOf ms).year := by
    unfold yearText
    split
    · exact slash_notMem_pad _ _
    · simpa using slash_notMem_pad 6 _
  refine ⟨?_, ?_, ?_⟩
  · simp [stamp, year, slash_notMem_pad]
  · intro empty
    rw [empty] at dash
    exact absurd dash (by decide)
  · intro dot
    rw [dot] at dash
    exact absurd dash (by decide)

private theorem joinable_of_slash {text : String} (slash : '/' ∈ text.toList) : Joinable text := by
  constructor <;> intro same <;> rw [same] at slash <;> exact absurd slash (by decide)

section
variable {inv : Inventory} {svc : Service} {daily weekly : Nat} {store : Store}

theorem joinable_base : Joinable (base inv svc) := by
  have slash : '/' ∈ inv.backupDir.toList := by
    have absolute := inv.backup_absolute
    rw [beginsWith, List.isPrefixOf_iff_prefix] at absolute
    exact absolute.subset (by decide)
  have joinable := joinable_of_slash slash
  unfold base joinPath
  split
  · exact joinable
  split
  · rename_i none
    exact (none.elim joinable.2 joinable.1).elim
  · exact joinable_of_slash (by simp)

/-- Every directory of the log was named by a stamp. -/
def Stamped (inv : Inventory) (svc : Service) (log : List BackupRecord) : Prop :=
  ∀ r ∈ log, ∀ dir, r.dir = some dir → ∃ ms, dir = joinPath (base inv svc) (stamp ms)

theorem nameOf_stamped {r : BackupRecord} {ms : Nat}
    (dir : r.dir = some (joinPath (base inv svc) (stamp ms))) :
    nameOf inv svc r = some (stamp ms) := by
  simp [nameOf, dir, dirName_joinPath joinable_base (segment_stamp ms),
    baseName_joinPath joinable_base (segment_stamp ms)]

theorem goodNames_append (first second : List BackupRecord) :
    goodNames inv svc (first ++ second) = goodNames inv svc first ++ goodNames inv svc second := by
  simp [goodNames]

/-! ### One night -/

private theorem wanted_dumped (dir : String) (db : Database) :
    wanted (dumped dir db) = copied (dumped dir db) := rfl

private theorem wanted_archived (dir : String) (night : Night) (obj : ObjectDirectory) :
    wanted (archived dir night obj) = copied (archived dir night obj) := by
  unfold archived
  split <;> rfl

/-- What moves into place is what counts as copied. -/
theorem any_wanted_copies (due : Bool) (dir : String) (night : Night) :
    (copies svc due dir night).any wanted = (copies svc due dir night).any copied := by
  simp only [copies, List.any_append, List.any_map, Function.comp_def, wanted_dumped,
    wanted_archived]

/-- A night adds to the log, and to the disk the directories it records as good. -/
theorem backup_adds (night : Night) (store : Store) :
    ∃ new, (backup inv svc night store).log = store.log ++ new ∧ Stamped inv svc new ∧
      ∀ d, d ∈ (backup inv svc night store).dirs ↔ d ∈ goodNames inv svc new ∨ d ∈ store.dirs := by
  have nothing : ∃ new, store.log = store.log ++ new ∧ Stamped inv svc new ∧
      ∀ d, d ∈ store.dirs ↔ d ∈ goodNames inv svc new ∨ d ∈ store.dirs :=
    ⟨[], by simp, by simp [Stamped], by simp [goodNames]⟩
  unfold backup
  split
  · exact nothing
  simp only []
  split
  · exact ⟨_, rfl, by simp [Stamped], by simp [goodNames, nameOf]⟩
  split
  · exact nothing
  refine ⟨_, rfl, ?_, fun d => ?_⟩
  · intro r member dir same
    obtain rfl := List.mem_singleton.mp member
    exact ⟨night.stamped, (Option.some.inj same).symm⟩
  · rw [any_wanted_copies]
    generalize copies svc _ _ night = files
    have named (r : BackupRecord)
        (dir : r.dir = some (joinPath (base inv svc) (stamp night.stamped))) :
        nameOf inv svc r = some (stamp night.stamped) := nameOf_stamped dir
    cases files.any copied with
    | true => simp [goodNames, named, eq_comm]
    | false => simp [goodNames]

/-! ### The policy over the nights -/

/-- The store before a prune: every directory is recorded as good, and none that the
policy keeps is missing. -/
structure Recorded (inv : Inventory) (svc : Service) (daily weekly : Nat) (store : Store) :
    Prop where
  stamped : Stamped inv svc store.log
  good : ∀ d ∈ store.dirs, d ∈ goodNames inv svc store.log
  held : ∀ d ∈ goodNames inv svc store.log,
    Survives daily weekly (goodNames inv svc store.log) d → d ∈ store.dirs

/-- The store after a prune: the good directories that the policy keeps, out of all
the nights so far. -/
structure Pruned (inv : Inventory) (svc : Service) (daily weekly : Nat) (store : Store) :
    Prop where
  stamped : Stamped inv svc store.log
  exact : ∀ d, d ∈ store.dirs ↔ d ∈ goodNames inv svc store.log ∧
    Survives daily weekly (goodNames inv svc store.log) d

theorem mem_valid {stamps : List String} {st : String} :
    st ∈ valid stamps ↔ st ∈ stamps ∧ (parseStamp st).isSome := by
  simp [valid]

theorem Survives.of_subset {part whole : List String} {st : String}
    (survives : Survives daily weekly whole st) (inside : ∀ s ∈ part, s ∈ whole)
    (member : st ∈ part) : Survives daily weekly part st := by
  rcases survives with unknown | retained
  · exact .inl unknown
  · have narrower : valid part ⊆ valid whole := fun s there =>
      mem_valid.mpr ⟨inside s (mem_valid.mp there).1, (mem_valid.mp there).2⟩
    have known : (parseStamp st).isSome := retained.elim
      (fun day => (mem_valid.mp day.1).2) (fun week => (mem_valid.mp week.1).2)
    have here := mem_valid.mpr ⟨member, known⟩
    exact .inr (retained.imp (·.of_subset narrower here) (·.of_subset narrower here))

theorem recorded_backup (night : Night) (pruned : Pruned inv svc daily weekly store) :
    Recorded inv svc daily weekly (backup inv svc night store) := by
  obtain ⟨new, log, stamped, dirs⟩ := @backup_adds inv svc night store
  have names := @goodNames_append inv svc store.log new
  refine ⟨?_, fun d => ?_, fun d => ?_⟩
  · rw [log]
    intro r member
    exact (List.mem_append.mp member).elim (pruned.stamped r) (stamped r)
  · rw [dirs, log, names, List.mem_append]
    exact Or.rec .inr fun there => .inl ((pruned.exact d).mp there).1
  · rw [dirs, log, names, List.mem_append]
    rintro (old | fresh) survives
    · exact .inr ((pruned.exact d).mpr
        ⟨old, survives.of_subset (fun s there => List.mem_append_left _ there) old⟩)
    · exact .inl fresh

@[simp] theorem prune_log (store : Store) :
    (prune inv svc daily weekly store).log = store.log := by
  unfold prune
  simp only []
  split <;> rfl

/-- Where every directory is recorded as good, the prune goes by the policy alone. -/
theorem mem_prune (good : ∀ d ∈ store.dirs, d ∈ goodNames inv svc store.log) (d : String) :
    d ∈ (prune inv svc daily weekly store).dirs ↔
      d ∈ store.dirs ∧ Survives daily weekly store.dirs d := by
  have recorded : ∀ d ∈ goodNames inv svc store.log, d ∈ store.log.filterMap (nameOf inv svc) := by
    intro d there
    obtain ⟨r, member, named⟩ := List.mem_filterMap.mp there
    exact List.mem_filterMap.mpr ⟨r, (List.mem_filter.mp member).1, named⟩
  have whole : (store.dirs.filter fun d => (parseStamp d).isSome).filter
      (fun d => decide (d ∈ goodNames inv svc store.log)) =
        store.dirs.filter fun d => (parseStamp d).isSome :=
    List.filter_eq_self.mpr fun d member => decide_eq_true (good d (List.mem_filter.mp member).1)
  have policy : d ∈ keep (store.dirs.filter fun d => (parseStamp d).isSome) daily weekly ↔
      Retained daily weekly (valid store.dirs) d := by
    rw [mem_keep]
    simp only [valid, List.filter_filter, Bool.and_self]
  unfold prune
  simp only [whole]
  split
  · rename_i empty
    have unknown (member : d ∈ store.dirs) : parseStamp d = none := by
      by_contra known
      have stays : d ∈ store.dirs.filter fun d => (parseStamp d).isSome :=
        List.mem_filter.mpr ⟨member, Option.isSome_iff_ne_none.mpr known⟩
      exact absurd (empty ▸ stays) List.not_mem_nil
    exact ⟨fun member => ⟨member, .inl (unknown member)⟩, And.left⟩
  · simp only [List.mem_filter, decide_eq_true_eq]
    refine and_congr_right fun member => ?_
    have kept := good d member
    simp only [member, true_and, recorded d kept, kept, if_true, policy, Survives,
      Option.isSome_iff_ne_none, not_and_or, not_not, ne_eq]

/-- Pruning the directories of the disk leaves what the policy keeps of all the nights. -/
theorem pruned_prune (recorded : Recorded inv svc daily weekly store) :
    Pruned inv svc daily weekly (prune inv svc daily weekly store) := by
  refine ⟨by simpa using recorded.stamped, fun d => ?_⟩
  rw [mem_prune recorded.good, prune_log]
  have part : valid store.dirs ⊆ valid (goodNames inv svc store.log) := fun s there =>
    mem_valid.mpr ⟨recorded.good s (mem_valid.mp there).1, (mem_valid.mp there).2⟩
  have holds : ∀ s, Retained daily weekly (valid (goodNames inv svc store.log)) s →
      s ∈ valid store.dirs := by
    intro s retained
    have there := mem_valid.mp (retained.elim (·.1) (·.1))
    exact mem_valid.mpr ⟨recorded.held s there.1 (.inr retained), there.2⟩
  constructor
  · rintro ⟨member, unknown | retained⟩
    · exact ⟨recorded.good d member, .inl unknown⟩
    · have same := retained_thinned_union_iff (t := ∅) part holds
        (Finset.mem_union_left _ (retained.elim (·.1) (·.1)))
      rw [Finset.union_empty, Finset.union_empty] at same
      exact ⟨recorded.good d member, .inr (same.mp retained)⟩
  · rintro ⟨there, survives⟩
    exact ⟨recorded.held d there survives,
      survives.of_subset recorded.good (recorded.held d there survives)⟩

theorem pruned_step (store : Store) (night : Night) (pruned : Pruned inv svc daily weekly store) :
    Pruned inv svc daily weekly (step inv svc daily weekly store night) :=
  pruned_prune (recorded_backup night pruned)

theorem pruned_empty : Pruned inv svc daily weekly {} :=
  ⟨by simp [Stamped], by simp [goodNames]⟩

/-! ### What a drill can restore -/

theorem chosen_recorded {log : List BackupRecord} {r : BackupRecord}
    (chosen : r ∈ Nightly.chosen svc log) : r ∈ log ∧ r.good = true ∧ r.dir.isSome = true := by
  have usable := List.mem_of_getLast? chosen
  have good : r ∈ log.filter fun r => r.dir.isSome && r.good := by
    split at usable
    · exact usable
    · exact (List.mem_filter.mp usable).1
  obtain ⟨member, both⟩ := List.mem_filter.mp good
  obtain ⟨dir, ok⟩ := Bool.and_eq_true_iff.mp both
  exact ⟨member, ok, dir⟩

theorem restorable_iff_dumpRetained (pruned : Pruned inv svc daily weekly store) :
    Restorable inv svc store ↔ DumpRetained inv svc daily weekly store := by
  refine forall₂_congr fun r chosen => ?_
  obtain ⟨member, good, dir⟩ := chosen_recorded chosen
  obtain ⟨dir, same⟩ := Option.isSome_iff_exists.mp dir
  obtain ⟨ms, rfl⟩ := pruned.stamped r member dir same
  have named := nameOf_stamped same
  have listed : stamp ms ∈ goodNames inv svc store.log :=
    List.mem_filterMap.mpr ⟨r, List.mem_filter.mpr ⟨member, good⟩, named⟩
  simp [named, pruned.exact, listed]

/-- After every night the directory a drill would choose is there, exactly as long as
the dates of the nights keep the newest dump by themselves. -/
theorem restorable_iff_dump_retained (nights : List Night) :
    Always (step inv svc daily weekly) (Restorable inv svc) {} nights ↔
      Always (step inv svc daily weekly) (DumpRetained inv svc daily weekly) {} nights :=
  always_congr (fun _ pruned => restorable_iff_dumpRetained pruned) nights
    (always_of_preserved pruned_step nights pruned_empty)

end

/-! ### The week after the first dump -/

/-- The night made its copies and recorded them as good. -/
def Succeeds (inv : Inventory) (svc : Service) (store : Store) (night : Night) : Prop :=
  ∃ r ∈ (backup inv svc night store).log.drop store.log.length, r.good = true ∧ r.dir.isSome = true

def host : Inventory where
  stateDir := "/var/lib/openvibe-host"
  backupDir := "/var/backups/openvibe"
  backupStagingDir := "/var/backups/openvibe.staging"
  services := []
  backup_absolute := backups_absolute

def live : Service where
  id := "live"
  repo := "/opt/live"
  owner := "live"
  runAs := "live"
  databases := [{ name := "main", database := "live" }]
  objects := [{ name := "media", path := "/var/lib/live/media" }]
  unit_service := Service.no_unit
  socket_socket := Service.no_socket
  auxiliary_apart := Service.no_auxiliary
  workers_service := Service.no_unit
  workers_apart := Service.no_worker
  auxiliary_no_worker := Service.no_auxiliary_worker
  sources_apart := Service.no_source
  sources_named := Service.no_source_named
  laid_out := Service.no_layout

/-- Every night at 03:30 from Monday 2026-09-07, ten seconds to the name of the
directory and twenty more to the record. -/
def nightly (n : Nat) : Night where
  checked := 1788751800000 + n * dayMs
  stamped := 1788751810000 + n * dayMs
  recorded := 1788751830000 + n * dayMs
  found := ["/var/lib/live/media"]

instance (store : Store) (night : Night) : Decidable (Succeeds host live store night) :=
  inferInstanceAs (Decidable (∃ r ∈ _, _))

instance (store : Store) : Decidable (Restorable host live store) :=
  inferInstanceAs (Decidable (∀ r ∈ _, _))

/-- Seven more days fill the seven daily places, and the Sunday holds the place of its
week: the second Monday prunes the only dump, thirty seconds before it is a week old. -/
theorem only_dump_is_pruned :
    ((List.range 8).map nightly).IsChain (fun before night =>
        before.recorded ≤ night.checked ∧ night.checked ≤ before.checked + dayMs) ∧
      Along (step host live 7 4) (Succeeds host live) {} ((List.range 8).map nightly) ∧
      ¬ Always (step host live 7 4) (Restorable host live) {} ((List.range 8).map nightly) := by
  decide +kernel

end OpenVibeHost.Nightly
