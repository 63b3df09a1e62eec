import OpenVibeHost.BackupOutcomes
import OpenVibeHost.OffsiteCopies

/-! The names of what a backup of one service makes: its dumps, its archives, and the objects they
are uploaded as. -/
namespace OpenVibeHost.Backup
open Effects Program Declared
open Offsite (Key runPrefix)

/-- The file that an object directory is archived as. -/
def archiveName (obj : ObjectDirectory) : String := obj.name ++ ".tar.gz"

/-- The files of a backup that dumps every database, in its order. -/
def artifactNames (databases : List Database) (objects : List ObjectDirectory) : List String :=
  databases.map fileName ++ objects.map archiveName

/-- The object that a file is uploaded as. -/
def objectKey (cfg : Offsite.Config) (host run service name : String) : Key :=
  runPrefix cfg host run ++ [service, name ++ ".ovbk"]

/-- The files have different names, and so have the objects made from them. -/
structure NamesApart (cfg : Offsite.Config) (host run service : String) (names : List String) : Prop where
  files : names.Nodup
  keys : (names.map (objectKey cfg host run service)).Nodup

/-- Two names are spelled alike only where they are one value: a number or a list may be spelled
as a text is. -/
def SpelledApart (objects : List Json) : Prop :=
  objects.Pairwise fun a b => (nameOf a).shown = (nameOf b).shown → Json.same (nameOf b) (nameOf a) = true

section
variable {cfg : Offsite.Config} {host run service where' : String} {names : List String}
  {databases : List Database} {objects : List ObjectDirectory} {rawDatabases rawObjects : Option Json}

theorem append_injective (ending : String) : Function.Injective (· ++ ending) := by
  intro name other same
  have texts := congrArg String.toList same
  simp only [String.toList_append, List.append_left_inj] at texts
  exact String.toList_injective texts

theorem objectKey_injective : Function.Injective (objectKey cfg host run service) := by
  intro name other same
  obtain ⟨-, same⟩ := List.append_inj' same rfl
  simp only [List.cons.injEq, true_and, and_true] at same
  exact append_injective _ same

theorem namesApart_iff : NamesApart cfg host run service names ↔ names.Nodup :=
  ⟨NamesApart.files, fun apart => ⟨apart, (List.nodup_map_iff objectKey_injective).mpr apart⟩⟩

/-- No dump has the name of an archive. -/
theorem fileName_ne_archiveName (db : Database) (obj : ObjectDirectory) : fileName db ≠ archiveName obj := by
  intro same
  have last := congrArg (fun name => name.toList.getLast?) same
  simp [fileName, archiveName] at last

theorem artifactNames_nodup_iff : (artifactNames databases objects).Nodup ↔
    (databases.map (·.name)).Nodup ∧ (objects.map (·.name)).Nodup := by
  have dumps : databases.map fileName = (databases.map (·.name)).map (· ++ ".dump") := by
    rw [List.map_map]
    rfl
  have archives : objects.map archiveName = (objects.map (·.name)).map (· ++ ".tar.gz") := by
    rw [List.map_map]
    rfl
  have disjoint : (databases.map fileName).Disjoint (objects.map archiveName) := by
    intro name dump archive
    obtain ⟨db, -, rfl⟩ := List.mem_map.mp dump
    obtain ⟨obj, -, same⟩ := List.mem_map.mp archive
    exact fileName_ne_archiveName db obj same.symm
  rw [artifactNames, List.nodup_append']
  simp only [disjoint, and_true]
  rw [dumps, archives, List.nodup_map_iff (append_injective _), List.nodup_map_iff (append_injective _)]

/-- Names that are texts are spelled apart. -/
theorem spelledApart_of_texts {items : List Json} (texts : ∀ o ∈ items, ∃ text, nameOf o = .str text) :
    SpelledApart items := by
  refine List.pairwise_of_forall_mem_list fun a one b other same => ?_
  obtain ⟨text, first⟩ := texts a one
  obtain ⟨text', second⟩ := texts b other
  rw [first, second] at same ⊢
  exact beq_iff_eq.mpr (show text = text' from same).symm

/-- The names of the object directories that are accepted differ where they are spelled apart. -/
theorem objects_nodup_iff (accepted : normaliseObjects rawObjects where' = .ok objects) :
    (objects.map (·.name)).Nodup ↔ SpelledApart (entries rawObjects) := by
  obtain ⟨names, -, apart⟩ := normaliseObjects_ok accepted
  rw [names, List.Nodup, List.pairwise_map, SpelledApart]
  constructor
  · exact fun distinct => distinct.imp fun differ same => (differ same).elim
  · refine fun spelled => (spelled.and apart).imp ?_
    rintro a b ⟨one, other⟩ same
    exact absurd (one same) (by simp [other])

end

/-! ### The files and the objects of a run -/

/-- Where the files of a record were to go. -/
def dests (files : List BackupFile) : List String := files.filterMap (·.dest)

section
variable {env : Environment Machine} {inv : Inventory} {svc : Service} {α : Type}

theorem meets_dumpOne_dest (dir stage : String) (db : Database) :
    Meets env (fun _ => True) (dumpOne dir stage db)
      (fun f _ => f.dest = none ∨ f.dest = some (joinPath dir (fileName db))) (fun _ _ => True) := by
  unfold dumpOne
  refine meets_bind (M := fun _ _ => True) (fun _ _ => trivial) fun r => ?_
  split
  · exact meets_pure fun _ _ => .inr rfl
  · exact meets_pure fun _ _ => .inr rfl

theorem meets_archiveOne_dest (dir stage : String) (obj : ObjectDirectory) :
    Meets env (fun _ => True) (archiveOne inv dir stage obj)
      (fun f _ => f.dest = none ∨ f.dest = some (joinPath dir (archiveName obj))) (fun _ _ => True) := by
  unfold archiveOne
  refine meets_bind (M := fun _ _ => True) (fun _ _ => trivial) fun st => ?_
  split
  · exact meets_pure fun _ _ => .inl rfl
  · refine meets_bind (M := fun _ _ => True) (fun _ _ => trivial) fun du => ?_
    refine meets_bind (M := fun _ _ => True) (meets_anyhow _) fun short => ?_
    split
    · exact meets_pure fun _ _ => .inr rfl
    · refine meets_bind (M := fun _ _ => True) (fun _ _ => trivial) fun _ => ?_
      refine meets_bind (M := fun _ _ => True) (fun _ _ => trivial) fun r => ?_
      split
      · exact meets_pure fun _ _ => .inr rfl
      · exact meets_pure fun _ _ => .inr rfl

theorem meets_checkCopy_dest (stage : String) (f : BackupFile) :
    Meets env (fun _ => True) (checkCopy stage f) (fun f' _ => f'.dest = f.dest) (fun _ _ => True) := by
  unfold checkCopy
  split
  · refine meets_bind (M := fun _ _ => True) (fun _ _ => trivial) fun st => ?_
    split
    · split
      · exact meets_bind (meets_anyhow _) fun _ => meets_pure fun _ _ => rfl
      · exact meets_pure fun _ _ => rfl
    · exact meets_pure fun _ _ => rfl
  · exact meets_pure fun _ _ => rfl

/-- A loop that makes an entry for each item adds at most the destination of each, in their order. -/
theorem meets_made {items : List α} {make : α → Exec BackupFile} {dest : α → String} {begun : List BackupFile}
    (each : ∀ item, Meets env (fun _ => True) (make item)
      (fun f _ => f.dest = none ∨ f.dest = some (dest item)) (fun _ _ => True)) :
    Meets env (fun _ => True) (fold items begun fun files item => do return files ++ [← make item])
      (fun files _ => (dests files).Sublist (dests begun ++ items.map dest)) (fun _ _ => True) := by
  refine (meets_fold_upto (I := fun done files _ => (dests files).Sublist (dests begun ++ done.map dest))
    fun done item files _ => ?_).weaken (fun _ _ => by simp) (fun _ _ h => h) fun _ _ h => h
  refine meets_given (fun _ known => known) fun known => ?_
  refine meets_bind ((each item).weaken (fun _ _ => trivial) (fun _ _ h => h) fun _ _ h => h) fun f => ?_
  refine meets_pure fun _ made => ?_
  have added : (dests [f]).Sublist [dest item] := by
    obtain none' | some' := made
    · simp [dests, none']
    · simp [dests, some']
  simpa [dests, List.filterMap_append] using known.append added

/-- A run writes each of the service's files once at most. -/
theorem meets_copyAll_dests (due : Bool) (dir stage : String) :
    Meets env (fun _ => True) (copyAll inv svc due dir stage)
      (fun files _ => (dests files).Sublist ((artifactNames svc.databases svc.objects).map (joinPath dir)))
      (fun _ _ => True) := by
  unfold copyAll
  refine meets_bind (meets_made fun db => meets_dumpOne_dest dir stage db) fun dumps => ?_
  refine meets_given (fun _ known => known) fun dumped => ?_
  refine meets_bind (M := fun _ _ => True) (meets_anyhow _) fun _ => ?_
  refine meets_bind (meets_made fun obj => meets_archiveOne_dest dir stage obj) fun made => ?_
  refine meets_given (fun _ known => known) fun archived => ?_
  have planned : (dests made).Sublist ((artifactNames svc.databases svc.objects).map (joinPath dir)) := by
    refine archived.trans ?_
    rw [artifactNames, List.map_append, List.map_map, List.map_map]
    refine List.Sublist.append (dumped.trans ?_) (List.Sublist.refl _)
    cases due with
    | false => simp [dests]
    | true => exact List.Sublist.refl _
  refine meets_bind (M := fun files _ => dests files = dests made) ?_ fun files => ?_
  · refine (meets_fold_upto (I := fun done files _ => dests files = dests done) fun done f files _ => ?_).weaken
      (fun _ _ => rfl) (fun _ _ h => h) fun _ _ h => h
    refine meets_given (fun _ known => known) fun known => ?_
    refine meets_bind ((meets_checkCopy_dest stage f).weaken (fun _ _ => trivial) (fun _ _ h => h) fun _ _ h => h)
      fun f' => meets_pure fun _ same => ?_
    simp only [dests] at known same ⊢
    rw [List.filterMap_append, List.filterMap_append, known, List.filterMap_cons, List.filterMap_cons, same]
  · refine meets_given (fun _ known => known) fun known => ?_
    refine meets_bind (M := fun _ _ => True) (meets_anyhow _) fun left => ?_
    refine meets_bind (M := fun _ _ => True) (meets_anyhow _) fun _ => ?_
    refine meets_bind (M := fun _ _ => True) (meets_anyhow _) fun _ => ?_
    exact meets_pure fun _ _ => known ▸ planned

end

section
variable {call : Offsite.Push} {service : String}

/-- The uploads of a service's files are the objects of at most those that have a destination. -/
theorem uploaded_sublist (files : List Offsite.File) (done : Offsite.Progress) :
    ∃ more, (files.foldl (Offsite.pushFile call service) done).uploaded = done.uploaded ++ more ∧
      more.Sublist ((files.filterMap (·.dest)).map fun dest =>
        objectKey call.cfg call.host call.summary.run service (baseName dest)) := by
  induction files generalizing done with
  | nil => exact ⟨[], by simp, List.Sublist.refl _⟩
  | cons f rest ih =>
    obtain ⟨more, uploaded, among⟩ := ih (Offsite.pushFile call service done f)
    have turn : ∃ one, (Offsite.pushFile call service done f).uploaded = done.uploaded ++ one ∧
        one.Sublist (([f].filterMap (·.dest)).map fun dest =>
          objectKey call.cfg call.host call.summary.run service (baseName dest)) := by
      unfold Offsite.pushFile
      split
      · rename_i dest there sound
        dsimp only
        split
        · split
          · exact ⟨_, rfl, by simp [there, objectKey]⟩
          · exact ⟨[], by simp, by simp⟩
        · exact ⟨[], by simp, by simp⟩
      · exact ⟨[], by simp, by simp⟩
    obtain ⟨one, first, within⟩ := turn
    refine ⟨one ++ more, by rw [List.foldl_cons, uploaded, first, List.append_assoc], ?_⟩
    rw [← List.singleton_append, List.filterMap_append, List.map_append]
    exact within.append among

end

/-- The copies of a run go to different files, and are uploaded as different objects. -/
def CopiesApart (service : String) (files : List BackupFile) : Prop :=
  (dests files).Nodup ∧ ∀ (call : Offsite.Push) (bucket : Offsite.Bucket) (entries : List Offsite.File),
    entries.filterMap (·.dest) = dests files →
      (entries.foldl (Offsite.pushFile call service) { bucket }).uploaded.Nodup

/-- Where the names are apart, so are the copies of every run. -/
theorem copies_apart {databases : List Database} {objects : List ObjectDirectory} {files : List BackupFile}
    {service dir : String} (joinable : Joinable dir)
    (plain : (∀ db ∈ databases, fileNameRe db.name = true) ∧ ∀ obj ∈ objects, fileNameRe obj.name = true)
    (apart : (artifactNames databases objects).Nodup)
    (among : (dests files).Sublist ((artifactNames databases objects).map (joinPath dir))) :
    CopiesApart service files := by
  have named : ∀ name ∈ artifactNames databases objects, baseName (joinPath dir name) = name := by
    intro name member
    refine baseName_joinPath joinable ?_
    obtain dump | archive := List.mem_append.mp member
    · obtain ⟨db, declared, rfl⟩ := List.mem_map.mp dump
      exact segment_of_name (plain.1 db declared) (by decide) (by decide)
    · obtain ⟨obj, declared, rfl⟩ := List.mem_map.mp archive
      exact segment_of_name (plain.2 obj declared) (by decide) (by decide)
  have bases : ((artifactNames databases objects).map (joinPath dir)).map baseName =
      artifactNames databases objects := by
    rw [List.map_map]
    exact (List.map_congr_left named).trans (List.map_id _)
  have based : ((dests files).map baseName).Nodup := by
    refine List.Nodup.sublist ?_ apart
    exact bases ▸ among.map baseName
  refine ⟨based.of_map, fun call bucket entries same => ?_⟩
  obtain ⟨more, uploaded, within⟩ := @uploaded_sublist call service entries { bucket }
  rw [uploaded]
  refine List.Nodup.sublist within ?_
  have keys := based.map (@objectKey_injective call.cfg call.host call.summary.run service)
  rwa [List.map_map, ← same] at keys

/-- The names that a backup of an accepted service uses are pairwise distinct exactly where those
of its databases are: those of its object directories are checked, as values. -/
theorem names_apart_iff (cfg : Offsite.Config) (host run service : String) {where' : String}
    {rawDatabases rawObjects : Option Json} {databases : List Database} {objects : List ObjectDirectory}
    (dumped : normaliseDatabases where' rawDatabases = .ok databases)
    (archived : normaliseObjects rawObjects where' = .ok objects) :
    (NamesApart cfg host run service (artifactNames databases objects) ↔
      ((entries rawDatabases).map databaseName).Nodup ∧ SpelledApart (entries rawObjects)) ∧
    (NamesApart cfg host run service (artifactNames databases objects) →
      ∀ (env : Environment Machine) (inv : Inventory) (svc : Service) (due : Bool) (dir stage : String)
        (w final : World Machine Unit) (files : List BackupFile), svc.databases = databases → svc.objects = objects →
          Joinable dir → Program.run (copyAll inv svc due dir stage) env w = (Except.ok files, final) →
            CopiesApart service files) := by
  refine ⟨?_, ?_⟩
  · rw [namesApart_iff, artifactNames_nodup_iff, (normaliseDatabases_ok dumped).1, objects_nodup_iff archived]
  · rintro apart env inv svc due dir stage w final files rfl rfl joinable ran
    have among := @meets_copyAll_dests env inv svc due dir stage w trivial
    rw [ran] at among
    refine copies_apart joinable ⟨(normaliseDatabases_ok dumped).2, fun obj member => ?_⟩ apart.files among
    exact ((normaliseObjects_ok archived).2.1 obj member).1

/-- A database entry with a name of its own. -/
def entryOf (name database : String) : Json :=
  .obj [("name", .str name), ("engine", .str "postgresql"), ("database", .str database)]

def mediaEntry : Json := .obj [("name", .str "media"), ("path", .str "/srv/media")]

/-- A service with two databases of their own names and an object directory. -/
theorem two_databases_apart_iff : (NamesApart Offsite.thirtyDays "host1" "20260926-033000" "live"
      (artifactNames [⟨"live", "ov_live", none⟩, ⟨"chat", "ov_chat", none⟩] [⟨"media", "/srv/media", true⟩]) ↔
    ((entries (some (.arr [entryOf "live" "ov_live", entryOf "chat" "ov_chat"]))).map databaseName).Nodup ∧
      SpelledApart (entries (some (.arr [mediaEntry])))) :=
  (names_apart_iff Offsite.thirtyDays "host1" "20260926-033000" "live"
    (show normaliseDatabases "services.live" _ = _ from rfl) (show normaliseObjects _ "services.live" = _ from rfl)).1

/-- Two databases of one name are accepted, and are dumped to one file. -/
theorem one_name_two_databases : ∃ (where' : String) (raw : Option Json) (databases : List Database),
    normaliseDatabases where' raw = .ok databases ∧ normaliseObjects none where' = .ok [] ∧
      ∀ cfg host run service, ¬ NamesApart cfg host run service (artifactNames databases []) :=
  ⟨"services.live", some (.arr [entryOf "main" "ov_live", entryOf "main" "ov_chat"]), _, rfl, rfl,
    fun _ _ _ _ apart => absurd apart.files (by decide)⟩

end OpenVibeHost.Backup
