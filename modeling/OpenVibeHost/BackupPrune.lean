import OpenVibeHost.Backup
import OpenVibeHost.Runs

/-! Pruning of a service's backups, `prune` of `lib/commands/backup.js`: what one run may remove
for any listing and any log, and that pruning after every backup comes to the same as pruning
once at the end. -/
namespace OpenVibeHost.Backup
open Effects Program Newest Retention

/-! ### Paths as they are recorded -/

/-- `path.dirname`, of any path. -/
def parentOf (path : String) : String :=
  match (path.toList.reverse.dropWhile (· = '/')).reverse with
  | [] => if beginsWith path "/" then "/" else "."
  | named => dirName (String.ofList named)

/-! ### The log -/

/-- `records`: the lines that parse, and name a directory. -/
def recordsOf (text : Option String) : List Json :=
  ((linesOf (text.getD "")).filterMap Json.parse).filter fun r =>
    ((r.field "dir").map (·.truthy)).getD false

def records (inv : Inventory) (id : String) : Exec (List Json) := do
  return recordsOf (← Exec.readFile (logPath inv id))

/-- `r.ok !== false`. -/
def notFailed (r : Json) : Bool :=
  match r.field "ok" with
  | some (.bool false) => false
  | _ => true

/-- What a record says of a name under `base`; one whose `dir` is no text is a TypeError. -/
def nameIn (base : String) (r : Json) : Except Failure (Option (String × Bool)) :=
  match r.field "dir" with
  | some (.str dir) =>
    .ok (if parentOf (normalize dir) = base then some (baseName dir, notFailed r) else none)
  | _ => .error (.plain "The \"path\" argument must be of type string")

/-- The names that the log has under `base`, each with its verdict. -/
def recordedIn (base : String) : List Json → Except Failure (List (String × Bool))
  | [] => .ok []
  | r :: rest =>
    match nameIn base r, recordedIn base rest with
    | .ok named, .ok later => .ok (named.toList ++ later)
    | .error e, _ => .error e
    | _, .error e => .error e

/-! ### The decision -/

structure Pruned where
  kept : List String
  removed : List String
  unrecorded : List String
  deriving DecidableEq, Repr

/-- `recorded.has(d)`. -/
def isRecorded (recorded : List (String × Bool)) (d : String) : Bool := recorded.any (·.1 = d)

/-- `recorded.get(d) === true`: a good record among those of the name. -/
def isGood (recorded : List (String × Bool)) (d : String) : Bool :=
  recorded.any fun entry => entry.1 = d && entry.2

/-- Which directories a prune removes. -/
def choose (daily weekly : Nat) (recorded : List (String × Bool)) (dirs : List String) : Pruned :=
  let good := dirs.filter (isGood recorded)
  let unrecorded := dirs.filter fun d => !isRecorded recorded d
  match (good.insertionSort (· ≤ ·)).getLast? with
  | none => { kept := dirs, removed := [], unrecorded }
  | some newestGood =>
    let keepSet := keep good daily weekly
    let remove := dirs.filter fun d => isRecorded recorded d &&
      if isGood recorded d then decide (d ∉ keepSet) else decide (d < newestGood)
    { kept := dirs.filter (· ∉ remove), removed := remove, unrecorded }

/-- The directories of a listing that a stamp names. -/
def stampsIn (listed : Option (List Entry)) : List String :=
  ((listed.getD []).filter fun e => e.isDir && (stampRe e.name).isSome).map (·.name)

/-- The removal of one directory. -/
def removal (base d : String) : Machine.Call :=
  .run "rm" ["-rf", "--", pathJoin base d] { privileged := true }

/-- One turn of the loop over what is removed: exactly a stamp right under `base`. -/
def removeOne (base d : String) : Exec Unit :=
  let full := pathJoin base d
  if parentOf full ≠ base ∨ stampRe (baseName full) = none then pure ()
  else do
    let r ← Exec.run "rm" ["-rf", "--", full] { privileged := true }
    if r.code ≠ 0 then throw (.plain ("could not remove " ++ full ++ ": " ++ trimText r.stderr))
    else pure ()

/-- `prune`. -/
def prune (inv : Inventory) (service : String) (daily : Nat := 7) (weekly : Nat := 4) : Exec Pruned := do
  let base := pathJoin inv.backupDir service
  let listed ← Exec.readdir base
  let recs ← records inv service
  let recorded ← orThrow (recordedIn base recs)
  let chosen := choose daily weekly recorded (stampsIn listed)
  forEach chosen.removed (removeOne base)
  return chosen

/-! ### What one run removes -/

/-- The record names a directory under `base`. -/
def Named (base : String) (r : Json) (d : String) : Prop :=
  ∃ dir, r.field "dir" = some (.str dir) ∧ parentOf (normalize dir) = base ∧ baseName dir = d

/-- A record of the log has the directory as good. -/
def RecordedGood (base : String) (recs : List Json) (d : String) : Prop :=
  ∃ r ∈ recs, Named base r d ∧ notFailed r = true

/-- What may be removed: a directory on disk that the log names, older than a good one on
disk, and where it is a good one itself, not of those that `keep` selects. -/
structure Removable (daily weekly : Nat) (base : String) (dirs : List String) (recs : List Json)
    (d : String) : Prop where
  listed : d ∈ dirs
  named : ∃ r ∈ recs, Named base r d
  outdated : ∃ newer ∈ dirs, RecordedGood base recs newer ∧ d < newer
  unselected : ∀ good : List String, (∀ g, g ∈ good ↔ g ∈ dirs ∧ RecordedGood base recs g) →
    RecordedGood base recs d → d ∉ keep good daily weekly

/-- Nothing but removals of directories under `base` that may be removed. -/
def OnlyRemovals (base : String) (may : String → Prop) (events : List (Event Machine)) : Prop :=
  ∀ event ∈ events, ∃ d, event.call = removal base d ∧ may d

/-- After the listing and the log were read, only what may be removed was removed. -/
def Pruning (daily weekly : Nat) (base log : String) (start trace : List (Event Machine)) : Prop :=
  ∃ listed text t t' removals, trace = start ++ [⟨.readdir base, listed, t⟩] ++ [⟨.readFile log false, text, t'⟩] ++ removals ∧
    OnlyRemovals base (fun d => ∃ found, text = .ok found ∧
      Removable daily weekly base (stampsIn listed) (recordsOf found) d) removals

section
variable {base d : String} {recs : List Json} {recorded : List (String × Bool)} {daily weekly : Nat}
  {dirs : List String}

theorem mem_recordedIn (read : recordedIn base recs = .ok recorded) (d : String) (good : Bool) :
    (d, good) ∈ recorded ↔ ∃ r ∈ recs, Named base r d ∧ notFailed r = good := by
  induction recs generalizing recorded with
  | nil =>
    obtain rfl := Except.ok.inj read
    simp
  | cons r rest ih =>
    unfold recordedIn at read
    split at read
    · rename_i named later nameRead laterRead
      obtain rfl := Except.ok.inj read
      have named_iff : (d, good) ∈ named.toList ↔ Named base r d ∧ notFailed r = good := by
        unfold nameIn at nameRead
        split at nameRead
        · rename_i dir text
          obtain rfl := Except.ok.inj nameRead
          by_cases under : parentOf (normalize dir) = base
          · simp only [under, if_true, Option.toList_some, List.mem_singleton, Prod.mk.injEq, Named, text,
              Option.some.injEq, Json.str.injEq]
            constructor
            · rintro ⟨rfl, rfl⟩
              exact ⟨⟨dir, rfl, under, rfl⟩, rfl⟩
            · rintro ⟨⟨_, rfl, -, rfl⟩, rfl⟩
              exact ⟨rfl, rfl⟩
          · simp only [under, if_false, Option.toList_none, List.not_mem_nil, Named, text,
              Option.some.injEq, Json.str.injEq, false_iff]
            rintro ⟨⟨_, rfl, there, -⟩, -⟩
            exact under there
        · cases nameRead
      rw [List.mem_append, named_iff, ih laterRead]
      simp
    · cases read
    · cases read

theorem isRecorded_iff (read : recordedIn base recs = .ok recorded) :
    isRecorded recorded d = true ↔ ∃ r ∈ recs, Named base r d := by
  simp only [isRecorded, List.any_eq_true, decide_eq_true_eq]
  constructor
  · rintro ⟨⟨name, good⟩, member, rfl⟩
    obtain ⟨r, within, named, -⟩ := (mem_recordedIn read name good).mp member
    exact ⟨r, within, named⟩
  · rintro ⟨r, within, named⟩
    exact ⟨(d, notFailed r), (mem_recordedIn read d _).mpr ⟨r, within, named, rfl⟩, rfl⟩

theorem isGood_iff (read : recordedIn base recs = .ok recorded) :
    isGood recorded d = true ↔ RecordedGood base recs d := by
  simp only [isGood, List.any_eq_true, Bool.and_eq_true, decide_eq_true_eq]
  constructor
  · rintro ⟨⟨name, good⟩, member, rfl, rfl⟩
    exact (mem_recordedIn read name true).mp member
  · rintro held
    exact ⟨(d, true), (mem_recordedIn read d true).mpr held, rfl, rfl⟩

/-- The newest of some stamps is the last of them in order. -/
theorem newest_of_sorted {stamps : List String} {newest : String}
    (last : (stamps.insertionSort (· ≤ ·)).getLast? = some newest) :
    newest ∈ stamps ∧ ∀ s ∈ stamps, s ≤ newest := by
  have ordered := List.pairwise_insertionSort (· ≤ ·) stamps
  have same : ∀ s, s ∈ stamps.insertionSort (· ≤ ·) ↔ s ∈ stamps := fun s => List.mem_insertionSort _
  obtain ⟨earlier, split⟩ := List.getLast?_eq_some_iff.mp last
  rw [split] at ordered same
  refine ⟨(same newest).mp (by simp), fun s member => ?_⟩
  obtain before | final := List.mem_append.mp ((same s).mpr member)
  · exact (List.pairwise_append.mp ordered).2.2 s before newest (by simp)
  · exact (List.mem_singleton.mp final).le

/-- The newest of all is always kept. -/
theorem newest_kept {stamps : List String} {newest : String} (slot : 1 ≤ daily ∨ 1 ≤ weekly)
    (member : newest ∈ stamps) (known : (parseStamp newest).isSome) (last : ∀ s ∈ stamps, s ≤ newest) :
    newest ∈ keep stamps daily weekly := by
  have within : newest ∈ valid stamps := by simp [valid, member, known]
  have alone : newer (valid stamps) newest = ∅ := by
    refine Finset.filter_eq_empty_iff.mpr fun s inside => not_lt.mpr (last s ?_)
    simp only [valid, List.mem_toFinset, List.mem_filter] at inside
    exact inside.1
  refine (mem_keep stamps daily weekly newest).mpr (slot.imp (fun one => ?_) fun one => ?_) <;>
    exact ⟨within, by simp [alone], by rw [alone]; exact one⟩

theorem removable_of_chosen (slot : 1 ≤ daily ∨ 1 ≤ weekly) (read : recordedIn base recs = .ok recorded)
    (stamped : ∀ s ∈ dirs, (parseStamp s).isSome) (removed : d ∈ (choose daily weekly recorded dirs).removed) :
    Removable daily weekly base dirs recs d := by
  unfold choose at removed
  dsimp only at removed
  split at removed
  · exact nomatch removed
  · rename_i newestGood last
    obtain ⟨member, least⟩ := newest_of_sorted last
    obtain ⟨there, good⟩ := List.mem_filter.mp member
    obtain ⟨listed, outdated⟩ := List.mem_filter.mp removed
    obtain ⟨named, fails⟩ := Bool.and_eq_true_iff.mp outdated
    have kept := newest_kept slot member (stamped newestGood there) least
    by_cases held : isGood recorded d = true
    · rw [if_pos held] at fails
      have unkept := of_decide_eq_true fails
      have within : d ∈ dirs.filter (isGood recorded) := List.mem_filter.mpr ⟨listed, held⟩
      have older : d < newestGood := lt_of_le_of_ne (least d within) fun same => unkept (same ▸ kept)
      refine ⟨listed, (isRecorded_iff read).mp named, ⟨newestGood, there, (isGood_iff read).mp good, older⟩, ?_⟩
      intro goods all _ selected
      have same : valid goods = valid (dirs.filter (isGood recorded)) := by
        ext s
        simp only [valid, List.mem_toFinset, List.mem_filter, all s, isGood_iff read]
      exact unkept ((mem_keep _ _ _ _).mpr (same ▸ (mem_keep _ _ _ _).mp selected))
    · rw [if_neg held] at fails
      exact ⟨listed, (isRecorded_iff read).mp named, ⟨newestGood, there, (isGood_iff read).mp good,
        of_decide_eq_true fails⟩, fun _ _ good _ => held ((isGood_iff read).mpr good)⟩

theorem stamped_of_listed {listed : Option (List Entry)} : ∀ s ∈ stampsIn listed, (parseStamp s).isSome := by
  intro s member
  obtain ⟨e, kept, rfl⟩ := List.mem_map.mp member
  have stamp := (Bool.and_eq_true_iff.mp (List.mem_filter.mp kept).2).2
  simpa [parseStamp] using stamp

theorem meets_removeOne {env : Environment Machine} {trace : List (Event Machine)} {may : String → Prop}
    (allowed : may d) :
    Meets env (Since trace fun more (_ : Unit) => OnlyRemovals base may more) (removeOne base d)
      (fun _ => Since trace fun more _ => OnlyRemovals base may more)
      (fun _ => Since trace fun more _ => OnlyRemovals base may more) := by
  unfold removeOne
  dsimp only
  split
  · exact meets_pure fun _ => id
  refine meets_since_ask_then fun r t => ?_
  have removed : ∀ more : List (Event Machine),
      (∃ before, more = before ++ [⟨removal base d, r, t⟩] ∧ OnlyRemovals base may before) →
        OnlyRemovals base may more := by
    rintro _ ⟨before, rfl, each⟩ event member
    obtain early | last := List.mem_append.mp member
    · exact each event early
    · obtain rfl := List.mem_singleton.mp last
      exact ⟨d, rfl, allowed⟩
  exact meets_ite (fun _ => meets_throw fun w since => since.mono fun more _ => removed more) fun _ =>
    meets_pure fun w since => since.mono fun more _ => removed more

/-- The log is read, whether or not it can be. -/
theorem meets_records {env : Environment Machine} (inv : Inventory) (service : String)
    (start : List (Event Machine)) :
    Meets env (fun w : World Machine Unit => w.trace = start) (records inv service)
      (fun recs w => ∃ text t, recs = recordsOf text ∧
        w.trace = start ++ [⟨.readFile (logPath inv service) false, .ok text, t⟩])
      (fun _ w => ∃ refused t, w.trace = start ++ [⟨.readFile (logPath inv service) false, .error refused, t⟩]) := by
  unfold records Exec.readFile Exec.orReject
  refine meets_bind (M := fun text w => ∃ t, w.trace = start ++ [⟨.readFile (logPath inv service) false, .ok text, t⟩])
    ?_ fun text => meets_pure fun w ⟨t, trace⟩ => ⟨text, t, rfl, trace⟩
  refine meets_bind (M := fun r w => ∃ t, w.trace = start ++ [⟨.readFile (logPath inv service) false, r, t⟩])
    (fun w begun => ⟨_, congrArg (· ++ _) begun⟩) fun r => ?_
  cases r with
  | ok text => exact meets_ret fun _ => id
  | error refused => exact meets_throw fun w ⟨t, trace⟩ => ⟨refused, t, trace⟩

theorem meets_prune {env : Environment Machine} (inv : Inventory) (service : String)
    (slot : 1 ≤ daily ∨ 1 ≤ weekly) (start : List (Event Machine)) :
    Meets env (fun w : World Machine Unit => w.trace = start) (prune inv service daily weekly)
      (fun _ w => Pruning daily weekly (pathJoin inv.backupDir service) (logPath inv service) start w.trace)
      (fun _ w => Pruning daily weekly (pathJoin inv.backupDir service) (logPath inv service) start w.trace) := by
  unfold prune
  dsimp only
  generalize pathJoin inv.backupDir service = base
  refine meets_bind (M := fun listed w => ∃ t, w.trace = start ++ [⟨.readdir base, listed, t⟩])
    (fun w begun => ⟨_, congrArg (· ++ _) begun⟩) fun listed w ⟨t, trace⟩ => ?_
  have nothing (text : Except String (Option String)) (w : World Machine Unit) (t' : Nat)
      (read : w.trace = start ++ [⟨.readdir base, listed, t⟩] ++ [⟨.readFile (logPath inv service) false, text, t'⟩]) :
      Pruning daily weekly base (logPath inv service) start w.trace :=
    ⟨listed, text, t, t', [], by rw [read, List.append_nil], fun _ member => nomatch member⟩
  refine (meets_bind ((meets_records inv service _).weaken (fun _ => id) (fun _ _ => id)
    fun _ w ⟨refused, t', read⟩ => nothing (.error refused) w t' read) fun recs => ?_) w trace
  rintro w ⟨text, t', rfl, read⟩
  cases recorded : recordedIn base (recordsOf text) with
  | error e => exact nothing (.ok text) w t' read
  | ok names =>
    obtain ⟨may, allowed, finishes⟩ : ∃ may : String → Prop,
        (∀ d ∈ (choose daily weekly names (stampsIn listed)).removed, may d) ∧
          ∀ v : World Machine Unit, Since w.trace (fun more _ => OnlyRemovals base may more) v →
            Pruning daily weekly base (logPath inv service) start v.trace := by
      refine ⟨fun d => ∃ found, (.ok text : Except String (Option String)) = .ok found ∧
        Removable daily weekly base (stampsIn listed) (recordsOf found) d, fun d member => ?_, ?_⟩
      · exact ⟨text, rfl, removable_of_chosen slot recorded stamped_of_listed member⟩
      · rintro v ⟨removals, onward, each⟩
        exact ⟨listed, .ok text, t, t', removals, by rw [onward, read], each⟩
    have removes : Meets env (Since w.trace fun more (_ : Unit) => OnlyRemovals base may more)
        (forEach (choose daily weekly names (stampsIn listed)).removed (removeOne base))
        (fun _ => Since w.trace fun more _ => OnlyRemovals base may more)
        (fun _ => Since w.trace fun more _ => OnlyRemovals base may more) := by
      refine meets_forEach fun d member => ?_
      exact @meets_removeOne base d env w.trace may (allowed d member)
    refine (meets_bind (removes.weaken (fun _ => id) (fun _ _ => id) fun _ v => finishes v) fun _ => ?_) w
      (since_start fun _ member => nomatch member)
    exact meets_pure finishes

end

/-- A run of `prune` reads the listing and the log, and then removes only what may be removed. -/
theorem prune_removes_outdated (env : Environment Machine) (inv : Inventory) (service : String)
    (daily weekly : Nat) (slot : 1 ≤ daily ∨ 1 ≤ weekly) (w : World Machine Unit) :
    Pruning daily weekly (pathJoin inv.backupDir service) (logPath inv service) w.trace
      (Program.run (prune inv service daily weekly) env w).2.trace :=
  (meets_prune inv service slot w.trace w rfl).always

/-- A host with two good backups of a service, of two days of one week. -/
def shelf : Inventory where
  stateDir := "/var/lib/openvibe-host"
  backupDir := "/var/backups/openvibe"
  backupStagingDir := "/var/backups/openvibe.staging"
  services := []
  backup_absolute := backups_absolute

def twoBackups : Environment Machine := hostOf fun
  | .readdir _ => some [⟨"20260901-010000", true⟩, ⟨"20260902-010000", true⟩]
  | .readFile .. => .ok (some
      ("\x7b\"ok\":true,\"dir\":\"/var/backups/openvibe/pages/20260901-010000\"\x7d\ntorn\n" ++
        "\x7b\"dir\":\"/var/backups/openvibe/pages/./20260902-010000\"\x7d\n"))
  | other => steady other

/-- The command line of a call. -/
def commandLine : Machine.Call → List String
  | .run cmd args _ => cmd :: args
  | _ => []

/-- The older one goes. -/
theorem older_removed : (Program.run (prune shelf "pages" 1 1) twoBackups ⟨(), 0, []⟩).2.trace.map
      (commandLine ·.call) = [[], [], ["rm", "-rf", "--", "/var/backups/openvibe/pages/20260901-010000"]] ∧
    Pruning 1 1 (pathJoin shelf.backupDir "pages") (logPath shelf "pages") []
      (Program.run (prune shelf "pages" 1 1) twoBackups ⟨(), 0, []⟩).2.trace :=
  ⟨by decide +kernel, prune_removes_outdated twoBackups shelf "pages" 1 1 (.inl le_rfl) ⟨(), 0, []⟩⟩

/-! ### Pruning over time -/

/-- A backup writes a good record of its directory, and a prune follows: the directories left,
and the names recorded. -/
def backupAndPrune (daily weekly : Nat) (state : List String × List (String × Bool)) (made : List String) :
    List String × List (String × Bool) :=
  let recorded := state.2 ++ made.map (·, true)
  ((choose daily weekly recorded (state.1 ++ made)).kept, recorded)

theorem mem_keep_keep_append (daily weekly : Nat) (first second : List String) (stamp : String) :
    stamp ∈ keep (keep first daily weekly ++ second) daily weekly ↔
      stamp ∈ keep (first ++ second) daily weekly := by
  have split (a b : List String) : valid (a ++ b) = valid a ∪ valid b := by
    ext s
    simp [valid]
  have part : valid (keep first daily weekly) ⊆ valid first := by
    intro s member
    simp only [valid, List.mem_toFinset, List.mem_filter] at member
    exact keep_subset first daily weekly s member.1
  have holds (s : String) (retained : Retained daily weekly (valid first) s) :
      s ∈ valid (keep first daily weekly) := by
    have known := retained.elim (·.1) (·.1)
    simp only [valid, List.mem_toFinset, List.mem_filter] at known ⊢
    exact ⟨(mem_keep first daily weekly s).mpr retained, known.2⟩
  rw [mem_keep, mem_keep, split, split]
  constructor
  · intro retained
    exact (retained_thinned_union_iff part holds (retained.elim (·.1) (·.1))).mp retained
  · intro retained
    have member : stamp ∈ valid (keep first daily weekly) ∪ valid second := by
      obtain old | new := Finset.mem_union.mp (retained.elim (·.1) (·.1))
      · exact Finset.mem_union_left _ (holds stamp (retained.imp (·.of_subset Finset.subset_union_left old)
          (·.of_subset Finset.subset_union_left old)))
      · exact Finset.mem_union_right _ new
    exact (retained_thinned_union_iff part holds member).mpr retained

theorem keep_congr {daily weekly : Nat} {first second : List String} (same : ∀ s, s ∈ first ↔ s ∈ second)
    (stamp : String) : stamp ∈ keep first daily weekly ↔ stamp ∈ keep second daily weekly := by
  have equal : valid first = valid second := by
    ext s
    simp [valid, same s]
  rw [mem_keep, mem_keep, equal]

/-- Where every directory is recorded good, a prune leaves what `keep` selects. -/
theorem mem_kept_of_good {daily weekly : Nat} {recorded : List (String × Bool)} {dirs : List String}
    (good : ∀ d ∈ dirs, isGood recorded d = true) (stamp : String) :
    stamp ∈ (choose daily weekly recorded dirs).kept ↔ stamp ∈ keep dirs daily weekly := by
  have all : dirs.filter (isGood recorded) = dirs := List.filter_eq_self.mpr good
  have named (d : String) (member : d ∈ dirs) : isRecorded recorded d = true := by
    obtain ⟨entry, within, held⟩ := List.any_eq_true.mp (good d member)
    exact List.any_eq_true.mpr ⟨entry, within, (Bool.and_eq_true_iff.mp held).1⟩
  unfold choose
  dsimp only
  rw [all]
  split
  · rename_i nothing
    have empty : dirs = [] := by
      have last : dirs.insertionSort (· ≤ ·) = [] := List.getLast?_eq_none_iff.mp nothing
      exact List.eq_nil_iff_forall_not_mem.mpr fun d member =>
        List.not_mem_nil (last ▸ (List.mem_insertionSort (· ≤ ·)).mpr member)
    subst empty
    exact ⟨(nomatch ·), fun kept => absurd (keep_subset [] daily weekly stamp kept) (by simp [valid])⟩
  · constructor
    · intro kept
      obtain ⟨member, stays⟩ := List.mem_filter.mp kept
      by_contra unkept
      refine of_decide_eq_true stays (List.mem_filter.mpr ⟨member, ?_⟩)
      simp [named stamp member, good stamp member, unkept]
    · intro kept
      have member : stamp ∈ dirs := by
        have within := keep_subset dirs daily weekly stamp kept
        simp only [valid, List.mem_toFinset, List.mem_filter] at within
        exact within.1
      refine List.mem_filter.mpr ⟨member, decide_eq_true fun removed => ?_⟩
      have outdated := (Bool.and_eq_true_iff.mp (List.mem_filter.mp removed).2).2
      rw [if_pos (good stamp member)] at outdated
      exact of_decide_eq_true outdated kept

/-- What any number of backups, each followed by a prune, leave. -/
theorem foldl_backupAndPrune (daily weekly : Nat) (nights : List (List String)) :
    (nights.foldl (backupAndPrune daily weekly) ([], [])).2 = nights.flatten.map (·, true) ∧
      ∀ stamp, stamp ∈ (nights.foldl (backupAndPrune daily weekly) ([], [])).1 ↔
        stamp ∈ keep nights.flatten daily weekly := by
  induction nights using List.reverseRecOn with
  | nil => exact ⟨rfl, fun stamp => Iff.rfl⟩
  | append_singleton nights made ih =>
    rw [List.foldl_append, List.flatten_append]
    obtain ⟨recorded, left⟩ := ih
    generalize nights.foldl (backupAndPrune daily weekly) ([], []) = state at recorded left
    have log : state.2 ++ made.map (·, true) = (nights.flatten ++ made).map (·, true) := by simp [recorded]
    have named (s : String) (member : s ∈ nights.flatten ++ made) :
        isGood (state.2 ++ made.map (·, true)) s = true := by
      rw [log]
      exact List.any_eq_true.mpr ⟨(s, true), List.mem_map.mpr ⟨s, member, rfl⟩, by simp⟩
    have good : ∀ d ∈ state.1 ++ made, isGood (state.2 ++ made.map (·, true)) d = true := by
      intro d member
      obtain old | new := List.mem_append.mp member
      · have there := keep_subset nights.flatten daily weekly d ((left d).mp old)
        simp only [valid, List.mem_toFinset, List.mem_filter] at there
        exact named d (List.mem_append_left _ there.1)
      · exact named d (List.mem_append_right _ new)
    refine ⟨by simpa [backupAndPrune] using log, fun stamp => ?_⟩
    calc stamp ∈ (backupAndPrune daily weekly state made).1
        ↔ stamp ∈ keep (state.1 ++ made) daily weekly := mem_kept_of_good good stamp
      _ ↔ stamp ∈ keep (keep nights.flatten daily weekly ++ made) daily weekly :=
          keep_congr (fun s => by simp only [List.mem_append, left s]) stamp
      _ ↔ stamp ∈ keep (nights.flatten ++ made) daily weekly :=
          mem_keep_keep_append daily weekly nights.flatten made stamp
      _ ↔ stamp ∈ keep (nights.flatten ++ [made].flatten) daily weekly := by simp

/-- Retention composes over time: thinning first changes nothing, and pruning after every backup
leaves what one prune at the end would. -/
theorem prune_composes (daily weekly : Nat) :
    (∀ first second stamp, stamp ∈ keep (keep first daily weekly ++ second) daily weekly ↔
      stamp ∈ keep (first ++ second) daily weekly) ∧
    ∀ (nights : List (List String)) (stamp : String),
      stamp ∈ (nights.foldl (backupAndPrune daily weekly) ([], [])).1 ↔
        stamp ∈ (choose daily weekly (nights.flatten.map (·, true)) nights.flatten).kept := by
  refine ⟨mem_keep_keep_append daily weekly, fun nights stamp => ?_⟩
  have good : ∀ d ∈ nights.flatten, isGood (nights.flatten.map (·, true)) d = true := fun d member =>
    List.any_eq_true.mpr ⟨(d, true), List.mem_map.mpr ⟨d, member, rfl⟩, by simp⟩
  exact ((foldl_backupAndPrune daily weekly nights).2 stamp).trans (mem_kept_of_good good stamp).symm

end OpenVibeHost.Backup
