import OpenVibeHost.Archive

/-! What a sequence of archive pushes leaves in the bucket, and when every file of every push comes
back. -/
namespace OpenVibeHost.Archive
open BackupCrypto Retention

/-! ### Keys -/

theorem cut_at_slash {a b x y : List Char} (plain : '/' ∉ a) (plain' : '/' ∉ b)
    (same : a ++ '/' :: x = b ++ '/' :: y) : a = b ∧ x = y := by
  induction a generalizing b with
  | nil =>
    cases b with
    | nil => simpa using same
    | cons c b =>
      simp only [List.nil_append, List.cons_append, List.cons.injEq] at same
      simp [← same.1] at plain'
  | cons c a ih =>
    cases b with
    | nil =>
      simp only [List.nil_append, List.cons_append, List.cons.injEq] at same
      simp [same.1] at plain
    | cons d b =>
      simp only [List.cons_append, List.cons.injEq] at same
      obtain ⟨rfl, rest⟩ := ih (fun mem => plain (List.mem_cons_of_mem _ mem))
        (fun mem => plain' (List.mem_cons_of_mem _ mem)) same.2
      exact ⟨by rw [same.1], rest⟩

theorem digit_ne_slash (n : Nat) : Dates.digit n ≠ '/' := by
  have every : ∀ k < 10, Char.ofNat ('0'.toNat + k) ≠ '/' := by decide
  exact every _ (Nat.mod_lt _ (by decide))

theorem pad_plain (width n : Nat) : '/' ∉ Dates.pad width n := by
  induction width generalizing n with
  | zero => simp [Dates.pad]
  | succ width ih => simp [Dates.pad, ih, (digit_ne_slash n).symm]

theorem stamp_plain (ms : Nat) : '/' ∉ (Dates.stamp ms).toList := by
  have year : ∀ y, '/' ∉ Dates.yearText y := by
    intro y
    unfold Dates.yearText
    split <;> simp [pad_plain]
  simp [Dates.stamp, pad_plain, year]

variable {site : Site}

/-- What follows the prefix of the archives. -/
theorem below_base {s s' : String} {x y : String} (plain : '/' ∉ s.toList) (plain' : '/' ∉ s'.toList)
    (same : archiveBase site s ++ x = archiveBase site s' ++ y) : s = s' ∧ x = y := by
  have chars := congrArg String.toList same
  simp only [archiveBase, String.toList_append, List.append_assoc] at chars
  obtain ⟨stamps, rest⟩ := cut_at_slash plain plain' (List.append_cancel_left chars)
  exact ⟨String.toList_inj.mp stamps, String.toList_inj.mp rest⟩

theorem objectKey_inj {s s' f g : String} (plain : '/' ∉ s.toList) (plain' : '/' ∉ s'.toList)
    (same : objectKey site s f = objectKey site s' g) : s = s' ∧ objectName f = objectName g := by
  simp only [objectKey, String.append_assoc] at same
  obtain ⟨rfl, names⟩ := below_base plain plain' same
  have chars := congrArg String.toList names
  rw [String.toList_append, String.toList_append] at chars
  exact ⟨rfl, String.toList_inj.mp (List.append_cancel_right chars)⟩

theorem manifestKey_inj {s s' : String} (plain : '/' ∉ s.toList) (plain' : '/' ∉ s'.toList)
    (same : manifestKey site s = manifestKey site s') : s = s' :=
  (below_base plain plain' same).1

theorem objectKey_ne_manifestKey {s s' f : String} (plain : '/' ∉ s.toList) (plain' : '/' ∉ s'.toList) :
    objectKey site s f ≠ manifestKey site s' := by
  intro same
  simp only [objectKey, manifestKey, String.append_assoc] at same
  have ends := congrArg (·.toList.getLast?) (below_base plain plain' same).2
  simp at ends

/-! ### A push that succeeds -/

/-- What a file held when it was read. -/
def Push.plain (call : Push) (file : String) : Bytes := (call.content file).toOption.getD []

def Push.cipher (site : Site) (call : Push) (file : String) : Bytes :=
  encrypted site.crypto site.master defaultChunk (call.salt file) (call.plain file)

def Push.mtime (call : Push) (file : String) : Option String :=
  ((call.restat file).map (·.mtime)).elim none mtimeText

/-- The entry of a file in the manifest. -/
def Push.entry (site : Site) (call : Push) (file : String) : FileEntry :=
  { path := file, object := objectKey site call.stamp file, mtime := call.mtime file,
    plainBytes := (call.plain file).length, plainSha256 := site.sha256 (call.plain file),
    cipherBytes := (call.cipher site file).length, cipherSha256 := site.sha256 (call.cipher site file) }

theorem archiveFile_ok {call : Push} {bucket : Bucket} {file : String} {entry : FileEntry}
    (archived : (archiveFile site call bucket file).2 = .ok entry) :
    call.content file = .ok (call.plain file) ∧ archiveFile site call bucket file =
      (bucket.insert (objectKey site call.stamp file) (.file (call.cipher site file)), .ok (call.entry site file)) := by
  unfold archiveFile at archived ⊢
  cases read : call.content file with
  | error unread => simp [read] at archived
  | ok plain =>
    have isPlain : call.plain file = plain := by simp [Push.plain, read, Except.toOption]
    have made : encrypt site.crypto site.master defaultChunk (call.salt file) (site.cut plain) =
        .ok (call.cipher site file) := by
      rw [encrypt_eq site.master_length (by decide) (by decide), site.cut_flatten, Push.cipher, isPlain]
    simp only [read, made] at archived ⊢
    cases sent : call.stored (objectKey site call.stamp file) with
    | error refused => simp [sent] at archived
    | ok sent' =>
      have listed : (listAll (bucket.insert (objectKey site call.stamp file) (.file (call.cipher site file)))
          (objectKey site call.stamp file)).find? (·.1 = objectKey site call.stamp file) =
            some (objectKey site call.stamp file, .file (call.cipher site file)) := by
        have itself : beginsWith (objectKey site call.stamp file) (objectKey site call.stamp file) = true := by
          simp [beginsWith]
        simp [listAll, itself]
      simp only [sent, listed, Object.size, ne_eq, not_true_eq_false, if_false] at archived ⊢
      cases seen : call.restat file with
      | none => simp [seen] at archived
      | some s => simp [isPlain, Push.entry, Push.mtime, seen]

/-- Storing each file under its key, in order. -/
def insertAll (site : Site) (call : Push) (files : List String) (bucket : Bucket) : Bucket :=
  files.foldl (fun stored file =>
    stored.insert (objectKey site call.stamp file) (.file (call.cipher site file))) bucket

theorem failures_grow (call : Push) (files : List String) (done : Progress)
    (clean : (files.foldl (pushFile site call) done).failures = []) : done.failures = [] := by
  induction files generalizing done with
  | nil => exact clean
  | cons file files ih =>
    have next := ih _ clean
    unfold pushFile at next
    split at next
    · exact next
    · simp at next

/-- Without a failure every file was read, and is stored and listed. -/
theorem pushFiles_ok (call : Push) (files : List String) (done : Progress)
    (clean : (files.foldl (pushFile site call) done).failures = []) :
    (∀ file ∈ files, call.content file = .ok (call.plain file)) ∧ files.foldl (pushFile site call) done =
      { bucket := insertAll site call files done.bucket, files := done.files ++ files.map (call.entry site),
        failures := [] } := by
  induction files generalizing done with
  | nil =>
    obtain ⟨bucket, files, failures⟩ := done
    obtain rfl : failures = [] := clean
    simp [insertAll]
  | cons file files ih =>
    rw [List.foldl_cons] at clean
    have before := failures_grow call files _ clean
    cases archived : (archiveFile site call done.bucket file).2 with
    | error refused =>
      rw [pushFile, ← Prod.mk.eta (p := archiveFile site call done.bucket file), archived] at before
      simp at before
    | ok entry =>
      obtain ⟨read, made⟩ := archiveFile_ok archived
      have next : pushFile site call done file =
          { bucket := done.bucket.insert (objectKey site call.stamp file) (.file (call.cipher site file)),
            files := done.files ++ [call.entry site file], failures := done.failures } := by
        rw [pushFile, made]
      obtain ⟨others, all⟩ := ih _ clean
      refine ⟨List.forall_mem_cons.mpr ⟨read, others⟩, ?_⟩
      rw [List.foldl_cons, all, next]
      simp [insertAll]

theorem mem_unique {call : Push} {file : String} : file ∈ call.unique ↔ file ∈ call.files := by
  simp [Push.unique]

theorem unique_nodup (call : Push) : call.unique.Nodup :=
  List.nodup_reverse.mpr (List.nodup_dedup _)

/-- The manifest of a push without failures. -/
def Push.manifest (site : Site) (call : Push) : Manifest :=
  let body : Body :=
    { host := site.host, stamp := call.stamp, createdAt := Dates.isoString call.created,
      keyId := hexText (site.crypto.keyId site.master), note := call.note,
      files := call.unique.map (call.entry site), failures := [] }
  { body with hmac := site.hmacManifest site.master body }

/-- The push reports success. -/
def Succeeds (site : Site) (call : Push) (bucket : Bucket) : Prop :=
  ∃ record, (push site call bucket).2 = .ok record ∧ record.ok = true

theorem push_ok {call : Push} {bucket : Bucket} (succeeds : Succeeds site call bucket) :
    call.files ≠ [] ∧ (∀ file ∈ call.files, call.content file = .ok (call.plain file)) ∧
      (push site call bucket).1 = (insertAll site call call.unique bucket).insert (manifestKey site call.stamp)
        (.manifest (call.manifest site)) := by
  obtain ⟨record, answered, clean⟩ := succeeds
  unfold push at answered ⊢
  by_cases named : call.files = []
  · simp [named] at answered
  · rw [if_neg named] at answered ⊢
    dsimp only at answered ⊢
    split at answered
    · exact nomatch answered
    · rename_i fits
      rw [if_neg fits]
      split at answered
      · exact nomatch answered
      · rename_i dated
        rw [if_neg dated]
        cases sent : call.stored (manifestKey site call.stamp) with
        | error refused => simp [sent] at answered
        | ok sent' =>
          cases written : call.recorded with
          | error refused => simp [sent, written] at answered
          | ok written' =>
            simp only [sent, written, Except.ok.injEq] at answered ⊢
            subst answered
            obtain ⟨read, all⟩ := pushFiles_ok call call.unique { bucket } (by simpa using clean)
            refine ⟨named, fun file mem => read file (mem_unique.mpr mem), ?_⟩
            rw [all]
            rfl

theorem archiveFile_succeeds {call : Push} {bucket : Bucket} {file : String} {plain : Bytes} {s : Stat}
    (read : call.content file = .ok plain) (sent : call.stored (objectKey site call.stamp file) = .ok ())
    (seen : call.restat file = some s) : ∃ entry, (archiveFile site call bucket file).2 = .ok entry := by
  have made : encrypt site.crypto site.master defaultChunk (call.salt file) (site.cut plain) = .ok _ :=
    encrypt_eq site.master_length (by decide) (by decide) _
  simp [archiveFile, read, made, sent, listAll, beginsWith, Object.size, seen]

theorem pushFiles_succeed {call : Push} (files : List String) (done : Progress)
    (archived : ∀ bucket, ∀ file ∈ files, ∃ entry, (archiveFile site call bucket file).2 = .ok entry)
    (clean : done.failures = []) : (files.foldl (pushFile site call) done).failures = [] := by
  induction files generalizing done with
  | nil => exact clean
  | cons file files ih =>
    obtain ⟨first, others⟩ := forall_and.mp fun bucket => List.forall_mem_cons.mp (archived bucket)
    refine ih _ others ?_
    obtain ⟨entry, made⟩ := first done.bucket
    rw [pushFile, ← Prod.mk.eta (p := archiveFile site call done.bucket file), made]
    exact clean

/-- A push of files that may be archived and are read, stored and recorded reports success. -/
theorem push_succeeds {call : Push} (named : call.files ≠ []) (dated : call.now ≤ maxDate ∧ call.created ≤ maxDate)
    (allowed : ∀ file ∈ call.unique, refusal call file = none)
    (read : ∀ file ∈ call.unique, ∃ plain, call.content file = .ok plain) (sent : ∀ key, call.stored key = .ok ())
    (seen : ∀ file ∈ call.unique, ∃ s, call.restat file = some s) (written : call.recorded = .ok ())
    (bucket : Bucket) : Succeeds site call bucket := by
  have clean := @pushFiles_succeed site call call.unique { bucket } (fun stored file mem => by
    obtain ⟨plain, isPlain⟩ := read file mem
    obtain ⟨s, isStat⟩ := seen file mem
    exact archiveFile_succeeds isPlain (sent _) isStat) rfl
  have nothing : (call.unique.filterMap fun file => (refusal call file).map (file ++ ": " ++ ·)) = [] := by
    refine List.filterMap_eq_nil_iff.mpr fun file mem => ?_
    rw [allowed file mem]
    rfl
  unfold Succeeds push
  rw [if_neg named]
  simp only [nothing, ne_eq, not_true_eq_false, if_false, sent, written]
  rw [if_neg (by omega)]
  exact ⟨_, rfl, by simp [clean]⟩

/-! ### What is under a key -/

/-- The keys that a push writes. -/
def Push.keys (site : Site) (call : Push) : List String :=
  call.unique.map (objectKey site call.stamp) ++ [manifestKey site call.stamp]

theorem lookup_insertAll_ne (call : Push) (files : List String) (bucket : Bucket) {key : String}
    (other : key ∉ files.map (objectKey site call.stamp)) :
    (insertAll site call files bucket).lookup key = bucket.lookup key := by
  induction files generalizing bucket with
  | nil => rfl
  | cons file files ih =>
    rw [List.map_cons, List.mem_cons, not_or] at other
    rw [insertAll, List.foldl_cons, ← insertAll, ih _ other.2, AList.lookup_insert_ne other.1]

theorem lookup_insertAll (call : Push) (files : List String) (bucket : Bucket)
    (apart : (files.map (objectKey site call.stamp)).Nodup) {file : String} (mem : file ∈ files) :
    (insertAll site call files bucket).lookup (objectKey site call.stamp file) =
      some (.file (call.cipher site file)) := by
  induction files generalizing bucket with
  | nil => simp at mem
  | cons head files ih =>
    rw [List.map_cons, List.nodup_cons] at apart
    rw [insertAll, List.foldl_cons, ← insertAll]
    rcases List.mem_cons.mp mem with rfl | later
    · rw [lookup_insertAll_ne call files _ apart.1, AList.lookup_insert]
    · exact ih _ apart.2 later

/-- A key that the push does not write keeps its object. -/
theorem lookup_push_ne {call : Push} {bucket : Bucket} (succeeds : Succeeds site call bucket) {key : String}
    (other : key ∉ call.keys site) : (push site call bucket).1.lookup key = bucket.lookup key := by
  rw [Push.keys, List.mem_append, List.mem_singleton, not_or] at other
  rw [(push_ok succeeds).2.2, AList.lookup_insert_ne other.2, lookup_insertAll_ne _ _ _ other.1]

/-- The push's manifest, and each of its files, are in the bucket. -/
structure Archived (site : Site) (call : Push) (bucket : Bucket) : Prop where
  manifest : bucket.lookup (manifestKey site call.stamp) = some (.manifest (call.manifest site))
  files : ∀ file ∈ call.files,
    bucket.lookup (objectKey site call.stamp file) = some (.file (call.cipher site file))

/-- No two files of a push have one object name. -/
def Named (call : Push) : Prop :=
  ∀ f ∈ call.files, ∀ g ∈ call.files, objectName f = objectName g → f = g

theorem keys_nodup {call : Push} (named : Named call) :
    (call.unique.map (objectKey site call.stamp)).Nodup := by
  refine (List.nodup_map_iff_inj_on (unique_nodup call)).mpr fun f hf g hg same => ?_
  exact named f (mem_unique.mp hf) g (mem_unique.mp hg)
    (objectKey_inj (stamp_plain _) (stamp_plain _) same).2

theorem archived_push {call : Push} {bucket : Bucket} (succeeds : Succeeds site call bucket)
    (named : Named call) : Archived site call (push site call bucket).1 := by
  rw [(push_ok succeeds).2.2]
  refine ⟨AList.lookup_insert _, fun file mem => ?_⟩
  have other : objectKey site call.stamp file ≠ manifestKey site call.stamp :=
    objectKey_ne_manifestKey (stamp_plain _) (stamp_plain _)
  rw [AList.lookup_insert_ne other, lookup_insertAll _ _ _ (keys_nodup named) (mem_unique.mpr mem)]

/-- A later push that writes none of its keys leaves an archive as it is. -/
theorem archived_later {call later : Push} {bucket : Bucket} (archived : Archived site call bucket)
    (succeeds : Succeeds site later bucket) (untouched : ∀ key ∈ call.keys site, key ∉ later.keys site) :
    Archived site call (push site later bucket).1 := by
  refine ⟨?_, fun file mem => ?_⟩
  · rw [lookup_push_ne succeeds (untouched _ (by simp [Push.keys]))]
    exact archived.manifest
  · have written : objectKey site call.stamp file ∈ call.keys site :=
      List.mem_append_left _ (List.mem_map.mpr ⟨file, mem_unique.mpr mem, rfl⟩)
    rw [lookup_push_ne succeeds (untouched _ written)]
    exact archived.files file mem

/-- Each file of an archive comes back as it was. -/
theorem restore_archived (opens : Opens site.crypto) {call : Push} {bucket : Bucket}
    (archived : Archived site call bucket) (dated : (stampRe call.stamp).isSome) {file : String}
    (mem : file ∈ call.files) {out : String} (absolute : beginsWith out "/" = true) :
    restore site bucket call.stamp file out false =
      .ok { file := pathJoin out (baseName file), content := call.plain file,
            sha256 := site.sha256 (call.plain file) } := by
  have manifest : readManifest site bucket call.stamp = .ok (call.manifest site) := by
    rw [readManifest, archived.manifest]
    simp [Push.manifest]
  have found : (call.manifest site).files.find? (·.path = file) = some (call.entry site file) := by
    have listed : call.entry site file ∈ (call.manifest site).files :=
      List.mem_map.mpr ⟨file, mem_unique.mpr mem, rfl⟩
    cases first : (call.manifest site).files.find? (·.path = file) with
    | none => simpa [Push.entry] using List.find?_eq_none.mp first _ listed
    | some e =>
      obtain ⟨g, -, rfl⟩ := List.mem_map.mp (List.mem_of_find?_eq_some first)
      have isFile := List.find?_some first
      rw [show g = file from of_decide_eq_true isFile]
  have opened : decrypt site.crypto site.master (site.cut (call.cipher site file)) = .ok (call.plain file) :=
    decrypt_encrypted opens site.master_length (call.salt_length file) (by decide) (by decide) _ (site.cut_flatten _)
  have hasStamp : ¬ (stampRe call.stamp).isNone = true := by
    obtain ⟨fields, isStamp⟩ := Option.isSome_iff_exists.mp dated
    simp [isStamp]
  rw [restore, if_neg hasStamp, if_neg (by simp [absolute]), manifest]
  dsimp only
  rw [found]
  dsimp only
  rw [if_neg (by simp [Push.entry]), if_neg (by simp), show (call.entry site file).object =
    objectKey site call.stamp file from rfl, archived.files file mem]
  dsimp only
  rw [opened]
  simp [Push.entry]

/-! ### Runs of pushes -/

/-- Every push of the sequence reports success. -/
def Succeed (site : Site) : Bucket → List Push → Prop
  | _, [] => True
  | bucket, call :: calls => Succeeds site call bucket ∧ Succeed site (push site call bucket).1 calls

def after (site : Site) (bucket : Bucket) (calls : List Push) : Bucket :=
  calls.foldl (fun stored call => (push site call stored).1) bucket

/-- Every file of every push restores to what it held, no two of them share an object key, and no
push writes a key that an earlier one wrote. -/
structure Kept (site : Site) (bucket : Bucket) (calls : List Push) : Prop where
  restores : ∀ call ∈ calls, ∀ file ∈ call.files, ∀ out, beginsWith out "/" = true →
    ∃ plain, call.content file = .ok plain ∧ restore site (after site bucket calls) call.stamp file out false =
      .ok { file := pathJoin out (baseName file), content := plain, sha256 := site.sha256 plain }
  apart : ∀ (i j : Fin calls.length), ∀ f ∈ (calls.get i).files, ∀ g ∈ (calls.get j).files,
    objectKey site (calls.get i).stamp f = objectKey site (calls.get j).stamp g → i = j ∧ f = g
  untouched : calls.Pairwise fun earlier later => ∀ key ∈ earlier.keys site, key ∉ later.keys site

/-- The pushes were made in different seconds, before the year 10000, and no two files of one push have
one object name. -/
structure Distinct (calls : List Push) : Prop where
  seconds : (calls.map Push.stamp).Nodup
  dated : ∀ call ∈ calls, (stampRe call.stamp).isSome
  named : ∀ call ∈ calls, Named call

/-- Pushes of different seconds write different keys. -/
theorem keys_apart {call later : Push} (other : call.stamp ≠ later.stamp) :
    ∀ key ∈ call.keys site, key ∉ later.keys site := by
  intro key mem mem'
  simp only [Push.keys, List.mem_append, List.mem_map, List.mem_singleton] at mem mem'
  rcases mem with ⟨f, -, rfl⟩ | rfl <;> rcases mem' with ⟨g, -, same⟩ | same
  · exact other (objectKey_inj (stamp_plain _) (stamp_plain _) same).1.symm
  · exact objectKey_ne_manifestKey (stamp_plain _) (stamp_plain _) same
  · exact objectKey_ne_manifestKey (stamp_plain _) (stamp_plain _) same
  · exact other (manifestKey_inj (stamp_plain _) (stamp_plain _) same)

theorem archived_after {call : Push} {calls : List Push} {bucket : Bucket} (archived : Archived site call bucket)
    (succeed : Succeed site bucket calls) (other : ∀ later ∈ calls, call.stamp ≠ later.stamp) :
    Archived site call (after site bucket calls) := by
  induction calls generalizing bucket with
  | nil => exact archived
  | cons next calls ih =>
    obtain ⟨succeeds, succeed⟩ := succeed
    obtain ⟨first, others⟩ := List.forall_mem_cons.mp other
    exact ih (archived_later archived succeeds (keys_apart first)) succeed others

/-- At the end every push has its archive. -/
theorem all_archived {calls : List Push} {bucket : Bucket} (succeed : Succeed site bucket calls)
    (distinct : Distinct calls) : ∀ call ∈ calls, Archived site call (after site bucket calls) := by
  obtain ⟨seconds, dated, named⟩ := distinct
  induction calls generalizing bucket with
  | nil => simp
  | cons next calls ih =>
    obtain ⟨succeeds, succeed⟩ := succeed
    obtain ⟨first, seconds⟩ := List.nodup_cons.mp seconds
    obtain ⟨-, dated⟩ := List.forall_mem_cons.mp dated
    obtain ⟨isNamed, named⟩ := List.forall_mem_cons.mp named
    refine List.forall_mem_cons.mpr ⟨?_, ih succeed seconds dated named⟩
    have kept : Archived site next (after site (push site next bucket).1 calls) :=
      archived_after (archived_push succeeds isNamed) succeed fun later mem same =>
        first (List.mem_map.mpr ⟨later, mem, same.symm⟩)
    exact kept

theorem succeeded {calls : List Push} {bucket : Bucket} (succeed : Succeed site bucket calls) :
    ∀ call ∈ calls, call.files ≠ [] ∧ ∀ file ∈ call.files, call.content file = .ok (call.plain file) := by
  induction calls generalizing bucket with
  | nil => simp
  | cons next calls ih =>
    obtain ⟨succeeds, succeed⟩ := succeed
    obtain ⟨files, read, -⟩ := push_ok succeeds
    exact List.forall_mem_cons.mpr ⟨⟨files, read⟩, ih succeed⟩

/-- Pushes that report success keep every file of every one of them exactly when no two were made in
one second, none after the year 9999, and none named two files with one object name. -/
theorem kept_iff_distinct (opens : Opens site.crypto) {bucket : Bucket} {calls : List Push}
    (succeed : Succeed site bucket calls) : Kept site bucket calls ↔ Distinct calls := by
  constructor
  · rintro ⟨restores, apart, untouched⟩
    refine ⟨?_, fun call mem => ?_, fun call mem f hf g hg same => ?_⟩
    · refine List.pairwise_map.mpr (untouched.imp fun {earlier later} others same => ?_)
      exact others (manifestKey site earlier.stamp) (by simp [Push.keys]) (by simp [Push.keys, same])
    · obtain ⟨file, rest, files⟩ := List.exists_cons_of_ne_nil (succeeded succeed call mem).1
      obtain ⟨plain, -, back⟩ := restores call mem file (by simp [files]) "/" (by decide)
      by_contra undated
      rw [restore, if_pos (by simpa using undated)] at back
      exact nomatch back
    · obtain ⟨i, rfl⟩ := List.get_of_mem mem
      exact (apart i i f hf g hg (by rw [objectKey, objectKey, same])).2
  · intro distinct
    refine ⟨fun call mem file hf out absolute => ?_, fun i j f hf g hg same => ?_, ?_⟩
    · exact ⟨call.plain file, (succeeded succeed call mem).2 file hf,
        restore_archived opens (all_archived succeed distinct call mem) (distinct.dated call mem) hf absolute⟩
    · have keys : (calls.get i).stamp = (calls.get j).stamp ∧ objectName f = objectName g :=
        objectKey_inj (stamp_plain _) (stamp_plain _) same
      obtain ⟨stamps, names⟩ := keys
      have one : i = j := by
        have inj := List.nodup_iff_injective_get.mp distinct.seconds
        have := @inj (i.cast (by simp)) (j.cast (by simp)) (by simpa using stamps)
        simpa [Fin.ext_iff] using this
      subst one
      exact ⟨rfl, distinct.named _ (List.get_mem _ _) f hf g hg names⟩
    · exact (List.pairwise_map.mp distinct.seconds).imp keys_apart

/-! ### Pushes of small files

The keys, the keystreams, the tags and the digests are those of the two files. -/

/-- The file key, the keystream and the tag of the one chunk, under each salt. -/
def retired (salt : Bytes) : Bytes × Bytes × Bytes :=
  if salt = List.replicate 32 2 then
    ([73, 12, 80, 41, 18, 87, 235, 15, 91, 202, 27, 194, 27, 141, 60, 231, 96, 175, 124, 104, 193, 39, 181, 14, 59,
      194, 200, 123, 193, 134, 172, 212], [6, 239, 230],
      [143, 9, 90, 86, 30, 125, 22, 36, 168, 149, 231, 250, 75, 37, 221, 241])
  else
    ([86, 216, 173, 230, 71, 141, 72, 239, 27, 186, 160, 147, 112, 64, 42, 210, 252, 218, 247, 90, 233, 248, 59, 93,
      114, 41, 197, 217, 248, 14, 80, 103], [12, 143, 138],
      [187, 40, 206, 243, 178, 43, 78, 107, 234, 12, 20, 6, 56, 129, 77, 251])

/-- The keystream and the tag under a key. -/
def retiredGcm (key : Bytes) : Bytes × Bytes :=
  if key = (retired (List.replicate 32 2)).1 then (retired (List.replicate 32 2)).2
  else (retired (List.replicate 32 3)).2

def retiredCrypto : NodeCrypto where
  fileKey _ salt := (retired salt).1
  keyId _ := [95, 14, 160, 215, 55, 175, 206, 172]
  gcmSeal key _ _ plain := mask (retiredGcm key).1 plain ++ (retiredGcm key).2.takeD 16 0
  gcmOpen key _ _ bytes :=
    if bytes.drop (bytes.length - 16) = (retiredGcm key).2.takeD 16 0 then
      some (mask (retiredGcm key).1 (bytes.take (bytes.length - 16)))
    else none
  length_keyId := smallCrypto.length_keyId
  length_gcmSeal key nonce aad plain := List.length_append.trans (congrArg₂ (· + ·) (length_mask _ _) rfl)

theorem retiredCrypto_opens : Opens retiredCrypto := by
  intro key nonce aad plain
  unfold retiredCrypto
  dsimp only
  generalize retiredGcm key = known
  exact unseal_mask known.1 _ plain (List.takeD_length 16 _ _)

def alpha : Site where
  crypto := retiredCrypto
  sha256 bytes :=
    if bytes = [111, 108, 100] then "cba06b5736faf67e54b07b561eae94395e774c517a7d910a54369e1263ccfbd4"
    else if bytes = [110, 101, 119] then "11507a0e2f5e69d5dfa40a62a1bd7b6ee57e6bcd85c67c9b8431b36fff21c437"
    else if (bytes.drop 12).take 32 = List.replicate 32 2 then
      "a329998fb2fc983d0e63111d53705834c14e6f4381e5cba90310ec2f6cd148d1"
    else "43cb045deea4fe0305865ff6eaf9d1e1ed46a71a0ee8809ab493ee45c3cc85c3"
  hmacManifest _ body :=
    if body.stamp = "20260926-101500" then "c3068ffc3f399e757e94b1a89bcea79511922405afba88067123f5e05ea361fe"
    else "142187c2dea48f1b2a31362bc186153404f99ccc68305ce72d6a748b88efb160"
  cut bytes := [bytes]
  cut_flatten := by simp
  bucketName := "bucket"
  keyPrefix := "backups"
  host := "alpha"
  master := List.replicate 32 1
  master_length := by simp

/-- A push of files that all hold `plain`. -/
def retire (files : List String) (now : Nat) (plain : Bytes) (salt : UInt8) : Push where
  files
  now
  created := now
  stat _ := some { mtime := 0 }
  restat _ := some { mtime := 0 }
  content _ := .ok plain
  salt _ := List.replicate 32 salt
  salt_length := by simp

theorem retire_succeeds (files : List String) (now : Nat) (plain : Bytes) (salt : UInt8) (named : files ≠ [])
    (dated : now ≤ maxDate) (allowed : ∀ file ∈ files, refusal (retire files now plain salt) file = none)
    (bucket : Bucket) : Succeeds alpha (retire files now plain salt) bucket :=
  push_succeeds named ⟨dated, dated⟩ (fun file mem => allowed file (mem_unique.mp mem)) (fun _ _ => ⟨plain, rfl⟩)
    (fun _ => rfl) (fun _ _ => ⟨_, rfl⟩) rfl bucket

def oldText : Push := retire ["/opt/app/old.txt"] 1790417700000 [111, 108, 100] 2

def newText : Push := retire ["/opt/app/old.txt"] 1790417701000 [110, 101, 119] 3

/-- One path, archived in two seconds. -/
theorem two_seconds_kept : Kept alpha ∅ [oldText, newText] := by
  have old : ∀ bucket, Succeeds alpha oldText bucket :=
    retire_succeeds _ _ _ _ (by decide) (by decide) (by decide +kernel)
  have new : ∀ bucket, Succeeds alpha newText bucket :=
    retire_succeeds _ _ _ _ (by decide) (by decide) (by decide +kernel)
  have both : Succeed alpha ∅ [oldText, newText] := ⟨old _, new _, trivial⟩
  refine (kept_iff_distinct retiredCrypto_opens both).mpr ⟨by decide +kernel, ?_, ?_⟩
  · decide +kernel
  · intro call mem f hf g hg _
    rcases List.mem_pair.mp mem with rfl | rfl <;>
      rw [List.mem_singleton.mp hf, List.mem_singleton.mp hg]

/-- Two files whose paths differ in a slash and two underscores. -/
def bothTexts : Push :=
  { retire ["/opt/app/old.txt", "/opt/app__old.txt"] 1790417700000 [] 2 with
    content := fun file => .ok (if file = "/opt/app/old.txt" then [111, 108, 100] else [110, 101, 119])
    salt := fun file => List.replicate 32 (if file = "/opt/app/old.txt" then 2 else 3)
    salt_length := by simp }

/-- The second file is stored over the first, which does not come back. -/
theorem underscores_lost : Succeed alpha ∅ [bothTexts] ∧
    restore alpha (after alpha ∅ [bothTexts]) bothTexts.stamp "/opt/app/old.txt" "/root/back" false =
      .error "/opt/app/old.txt: the download does not match the manifest" ∧
    ¬ Kept alpha ∅ [bothTexts] := by
  have succeeds : Succeeds alpha bothTexts ∅ :=
    push_succeeds (by decide) (by decide) (by decide +kernel) (fun file _ => ⟨_, rfl⟩) (fun _ => rfl)
      (fun _ _ => ⟨_, rfl⟩) rfl ∅
  have named : bothTexts.unique = ["/opt/app/old.txt", "/opt/app__old.txt"] := by decide +kernel
  have stored := (push_ok succeeds).2.2
  have manifest : readManifest alpha (push alpha bothTexts ∅).1 bothTexts.stamp = .ok (bothTexts.manifest alpha) := by
    rw [readManifest, stored, AList.lookup_insert]
    simp [Push.manifest]
  have found : (bothTexts.manifest alpha).files.find? (·.path = "/opt/app/old.txt") =
      some (bothTexts.entry alpha "/opt/app/old.txt") := by
    simp [Push.manifest, named, Push.entry]
  have sameKey : objectKey alpha bothTexts.stamp "/opt/app/old.txt" =
      objectKey alpha bothTexts.stamp "/opt/app__old.txt" := by decide +kernel
  have overwritten : (push alpha bothTexts ∅).1.lookup (objectKey alpha bothTexts.stamp "/opt/app/old.txt") =
      some (.file (bothTexts.cipher alpha "/opt/app__old.txt")) := by
    have other : objectKey alpha bothTexts.stamp "/opt/app/old.txt" ≠ manifestKey alpha bothTexts.stamp :=
      objectKey_ne_manifestKey (stamp_plain _) (stamp_plain _)
    rw [stored, AList.lookup_insert_ne other, named, sameKey]
    exact AList.lookup_insert _
  have opened : decrypt alpha.crypto alpha.master (alpha.cut (bothTexts.cipher alpha "/opt/app__old.txt")) =
      .ok [110, 101, 119] :=
    decrypt_encrypted retiredCrypto_opens alpha.master_length (by simp [bothTexts]) (by decide) (by decide) _
      (alpha.cut_flatten _)
  have lost : restore alpha (after alpha ∅ [bothTexts]) bothTexts.stamp "/opt/app/old.txt" "/root/back" false =
      .error "/opt/app/old.txt: the download does not match the manifest" := by
    rw [after, List.foldl_cons, List.foldl_nil, restore, if_neg (by decide +kernel), if_neg (by decide), manifest]
    dsimp only
    rw [found]
    dsimp only
    rw [if_neg (by simp [Push.entry]), if_neg (by decide), show (bothTexts.entry alpha "/opt/app/old.txt").object =
      objectKey alpha bothTexts.stamp "/opt/app/old.txt" from rfl, overwritten]
    dsimp only
    rw [opened]
    dsimp only
    rw [if_pos (.inl (by decide))]
    rfl
  refine ⟨⟨succeeds, trivial⟩, lost, fun kept => ?_⟩
  obtain ⟨plain, -, back⟩ := kept.restores bothTexts (List.mem_singleton_self _) "/opt/app/old.txt"
    (by decide) "/root/back" (by decide)
  rw [lost] at back
  exact nomatch back

end OpenVibeHost.Archive
