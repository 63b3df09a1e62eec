import OpenVibeHost.Offsite

/-! Which off-host copies outlive a prune. A run is spared for its manifest and
its rank among all runs, or for its age; a copy outlives a prune that completes
exactly when a run that is spared holds it. Runs that hold other services' files
push the last copy of one artifact out of the newest. -/
namespace OpenVibeHost.Offsite
open Retention Transition Newest

/-! ### What a listing says -/

/-- A run's record holds what the listed objects of that run say. -/
structure Counts (base : Key) (objects : List (Key × Nat)) (r : Run) : Prop where
  stamped : (stampRe r.run).isSome
  keys : ∀ key, key ∈ r.keys ↔
    ∃ object ∈ objects, object.1 = key ∧ ∃ rest, key.drop base.length = r.run :: rest
  manifest : r.manifest = true ↔
    ∃ object ∈ objects, object.1.drop base.length = [r.run, "manifest.json"]

theorem counts_fresh {base : Key} {objects : List (Key × Nat)} {run : String}
    (stamped : (stampRe run).isSome)
    (fresh : ∀ object ∈ objects, ∀ rest, object.1.drop base.length ≠ run :: rest) :
    Counts base objects { run } := by
  refine ⟨stamped, fun key => ?_, ?_⟩
  · simp only [List.not_mem_nil, false_iff]
    rintro ⟨object, there, rfl, rest, cut⟩
    exact fresh object there rest cut
  · simp only [Bool.false_eq_true, false_iff]
    rintro ⟨object, there, cut⟩
    exact fresh object there _ cut

theorem Counts.elsewhere {base : Key} {objects : List (Key × Nat)} {r : Run}
    (counts : Counts base objects r) {object : Key × Nat}
    (apart : ∀ rest, object.1.drop base.length ≠ r.run :: rest) :
    Counts base (objects ++ [object]) r := by
  refine ⟨counts.stamped, fun key => ?_, ?_⟩
  · rw [counts.keys key]
    simp only [List.mem_append, List.mem_singleton, or_and_right, exists_or, exists_eq_left]
    refine ⟨.inl, fun there => there.resolve_right ?_⟩
    rintro ⟨rfl, rest, cut⟩
    exact apart rest cut
  · rw [counts.manifest]
    simp only [List.mem_append, List.mem_singleton, or_and_right, exists_or, exists_eq_left]
    exact ⟨.inl, fun there => there.resolve_right (apart _)⟩

theorem Counts.count {base : Key} {objects : List (Key × Nat)} {r : Run}
    (counts : Counts base objects r) {object : Key × Nat} {rest : List String}
    (cut : object.1.drop base.length = r.run :: rest) :
    Counts base (objects ++ [object]) (r.count rest object.1 object.2) := by
  refine ⟨counts.stamped, fun key => ?_, ?_⟩
  · simp only [Run.count, List.mem_append, counts.keys, List.mem_singleton, or_and_right, exists_or,
      exists_eq_left]
    refine or_congr_right ⟨?_, ?_⟩
    · rintro rfl
      exact ⟨rfl, rest, cut⟩
    · rintro ⟨same, -⟩
      exact same.symm
  · simp only [Run.count, Bool.or_eq_true, counts.manifest, decide_eq_true_eq, List.mem_append,
      List.mem_singleton, or_and_right, exists_or, exists_eq_left, cut, List.cons.injEq, true_and]

/-- The runs tallied from a list of objects. -/
structure Tallied (base : Key) (objects : List (Key × Nat)) (runs : List Run) : Prop where
  once : (runs.map (·.run)).Nodup
  each : ∀ r ∈ runs, Counts base objects r
  all : ∀ object ∈ objects, ∀ run rest, object.1.drop base.length = run :: rest →
    (stampRe run).isSome → ∃ r ∈ runs, r.run = run

/-- An object of no run leaves the tally as it is. -/
theorem Tallied.skip {base : Key} {objects : List (Key × Nat)} {runs : List Run}
    (tallied : Tallied base objects runs) {object : Key × Nat}
    (apart : ∀ run rest, object.1.drop base.length = run :: rest → ¬ (stampRe run).isSome) :
    Tallied base (objects ++ [object]) runs := by
  refine ⟨tallied.once, fun r member => ?_, fun o there run rest cut valid => ?_⟩
  · exact (tallied.each r member).elsewhere
      fun rest cut => apart _ rest cut (tallied.each r member).stamped
  · rcases List.mem_append.mp there with earlier | last
    · exact tallied.all o earlier run rest cut valid
    · obtain rfl := List.mem_singleton.mp last
      exact absurd valid (apart run rest cut)

/-- An object of a run that is in the tally already. -/
theorem Tallied.known {base : Key} {objects : List (Key × Nat)} {runs : List Run}
    (tallied : Tallied base objects runs) {object : Key × Nat} {run : String} {rest : List String}
    (cut : object.1.drop base.length = run :: rest) (listed : ∃ r ∈ runs, r.run = run) :
    Tallied base (objects ++ [object])
      (runs.map fun r => if r.run = run then r.count rest object.1 object.2 else r) := by
  have named : ∀ r : Run, (if r.run = run then r.count rest object.1 object.2 else r).run = r.run := by
    intro r
    split <;> rfl
  refine ⟨?_, fun r' member => ?_, fun o there name more found valid => ?_⟩
  · rw [List.map_map]
    simpa only [Function.comp_def, named] using tallied.once
  · obtain ⟨r, there, rfl⟩ := List.mem_map.mp member
    split
    · rename_i same
      exact (tallied.each r there).count (same ▸ cut)
    · rename_i differs
      exact (tallied.each r there).elsewhere
        fun more found => differs (List.cons.inj (found.symm.trans cut)).1
  · have listed' : ∃ r ∈ runs, r.run = name := by
      rcases List.mem_append.mp there with earlier | last
      · exact tallied.all o earlier name more found valid
      · obtain rfl := List.mem_singleton.mp last
        obtain ⟨rfl, -⟩ := List.cons.inj (cut.symm.trans found)
        exact listed
    obtain ⟨r, member, same⟩ := listed'
    exact ⟨_, List.mem_map_of_mem member, (named r).trans same⟩

/-- The first object of a run. -/
theorem Tallied.first {base : Key} {objects : List (Key × Nat)} {runs : List Run}
    (tallied : Tallied base objects runs) {object : Key × Nat} {run : String} {rest : List String}
    (cut : object.1.drop base.length = run :: rest) (valid : (stampRe run).isSome)
    (fresh : ∀ r ∈ runs, r.run ≠ run) :
    Tallied base (objects ++ [object])
      (runs ++ [({ run } : Run).count rest object.1 object.2]) := by
  refine ⟨?_, fun r member => ?_, fun o there name more found stamped => ?_⟩
  · rw [List.map_append, List.nodup_append]
    refine ⟨tallied.once, by simp, ?_⟩
    intro name there other last
    obtain ⟨r, member, rfl⟩ := List.mem_map.mp there
    obtain rfl : other = run := by simpa [Run.count] using last
    exact fresh r member
  · rcases List.mem_append.mp member with earlier | last
    · exact (tallied.each r earlier).elsewhere
        fun more found => fresh r earlier (List.cons.inj (found.symm.trans cut)).1
    · obtain rfl := List.mem_singleton.mp last
      refine (counts_fresh valid fun o there more found => ?_).count cut
      obtain ⟨r, listed, same⟩ := tallied.all o there run more found valid
      exact fresh r listed same
  · rcases List.mem_append.mp there with earlier | last
    · obtain ⟨r, member, same⟩ := tallied.all o earlier name more found stamped
      exact ⟨r, List.mem_append_left _ member, same⟩
    · obtain rfl := List.mem_singleton.mp last
      exact ⟨_, List.mem_append_right _ (List.mem_singleton_self _),
        (List.cons.inj (cut.symm.trans found)).1⟩

theorem Tallied.tally {base : Key} {objects : List (Key × Nat)} {runs : List Run}
    (tallied : Tallied base objects runs) (object : Key × Nat) :
    Tallied base (objects ++ [object]) (Offsite.tally base runs object) := by
  unfold Offsite.tally
  split
  · rename_i cut
    exact tallied.skip fun run rest found => by simp [cut] at found
  · rename_i run rest cut
    split
    · rename_i foreign
      refine tallied.skip fun other more found => ?_
      rw [(List.cons.inj (found.symm.trans cut)).1]
      simpa using foreign
    · rename_i valid
      split
      · rename_i listed
        exact tallied.known cut (by simpa using listed)
      · rename_i fresh
        exact tallied.first cut (by simpa [Option.isSome_iff_ne_none] using valid)
          (by simpa using fresh)

theorem tallied_foldl (base : Key) (more : List (Key × Nat)) {objects : List (Key × Nat)}
    {runs : List Run} (tallied : Tallied base objects runs) :
    Tallied base (objects ++ more) (more.foldl (Offsite.tally base) runs) := by
  induction more generalizing objects runs with
  | nil => simpa using tallied
  | cons object rest ih => simpa using ih (tallied.tally object)

theorem startsWith_iff {key base : Key} :
    startsWith key base = true ↔ ∃ part rest, key = base ++ part :: rest := by
  simp only [startsWith, Bool.and_eq_true, List.isPrefixOf_iff_prefix, decide_eq_true_eq]
  constructor
  · rintro ⟨⟨tail, rfl⟩, longer⟩
    cases tail with
    | nil => simp at longer
    | cons part rest => exact ⟨part, rest, rfl⟩
  · rintro ⟨part, rest, rfl⟩
    exact ⟨⟨_, rfl⟩, by simp⟩

theorem mem_listAll {bucket : Bucket} {base key : Key} :
    (∃ size, (key, size) ∈ listAll bucket base) ↔ key ∈ bucket ∧ startsWith key base = true := by
  simp only [listAll, List.mem_filter, List.mem_map, Prod.mk.injEq, exists_and_right,
    AList.mem_keys, AList.keys, List.mem_keys]
  refine and_congr_left fun _ => ⟨?_, fun ⟨size, there⟩ => ⟨size, ⟨key, size⟩, there, rfl, rfl⟩⟩
  rintro ⟨size, object, there, rfl, rfl⟩
  exact ⟨object.2, there⟩

/-- What `listRuns` says of the bucket. -/
structure Listed (bucket : Bucket) (cfg : Config) (host : String) (runs : List Run) : Prop where
  sorted : (runs.map (·.run)).Pairwise (· > ·)
  stamped : ∀ r ∈ runs, (stampRe r.run).isSome
  keys : ∀ r ∈ runs, ∀ rest, hostPrefix cfg host ++ r.run :: rest ∈ r.keys ↔
    hostPrefix cfg host ++ r.run :: rest ∈ bucket
  mine : ∀ r ∈ runs, ∀ key ∈ r.keys, ∃ rest, key = hostPrefix cfg host ++ r.run :: rest
  manifest : ∀ r ∈ runs, r.manifest = true ↔ HasManifest bucket cfg host r.run
  all : ∀ run rest, hostPrefix cfg host ++ run :: rest ∈ bucket → (stampRe run).isSome →
    ∃ r ∈ runs, r.run = run

theorem listRuns_listed (bucket : Bucket) (cfg : Config) (host : String) :
    Listed bucket cfg host (listRuns bucket cfg host) := by
  let base := hostPrefix cfg host
  let objects := listAll bucket base
  have tallied : Tallied base objects (objects.foldl (tally base) []) := by
    have nothing : Tallied base [] [] := ⟨by simp, by simp, by simp⟩
    simpa using tallied_foldl base objects nothing
  have object : ∀ key, (∃ o ∈ objects, o.1 = key) ↔ key ∈ bucket ∧ startsWith key base = true := by
    intro key
    rw [← mem_listAll]
    exact ⟨fun ⟨o, there, same⟩ => ⟨o.2, same ▸ there⟩, fun ⟨size, there⟩ => ⟨_, there, rfl⟩⟩
  -- Sorting and the sorted `services` change neither the runs nor their keys.
  have same : ∀ r ∈ listRuns bucket cfg host, ∃ r' ∈ objects.foldl (tally base) [],
      r.run = r'.run ∧ r.keys = r'.keys ∧ r.manifest = r'.manifest := by
    intro r member
    obtain ⟨r', there, rfl⟩ := List.mem_map.mp member
    exact ⟨r', (List.mem_insertionSort _).mp there, rfl, rfl, rfl⟩
  refine ⟨?_, fun r member => ?_, fun r member rest => ?_, fun r member key there => ?_,
    fun r member => ?_, fun run rest there valid => ?_⟩
  · have names : (listRuns bucket cfg host).map (·.run) =
        ((objects.foldl (tally base) []).map (·.run)).insertionSort (· ≥ ·) := by
      rw [listRuns, List.map_map, ← List.map_insertionSort (fun a b : Run => b.run ≤ a.run)]
      · rfl
      · exact fun _ _ _ _ => Iff.rfl
    rw [names]
    have ordered := List.pairwise_insertionSort (· ≥ ·) ((objects.foldl (tally base) []).map (·.run))
    have once := (List.perm_insertionSort (· ≥ ·) _).nodup_iff.mpr tallied.once
    exact (ordered.and once).imp fun ⟨ge, ne⟩ => lt_of_le_of_ne ge ne.symm
  · obtain ⟨r', there, name, -, -⟩ := same r member
    exact name ▸ (tallied.each r' there).stamped
  · obtain ⟨r', there, name, keys, -⟩ := same r member
    rw [keys, (tallied.each r' there).keys]
    constructor
    · rintro ⟨o, listed, found, -⟩
      exact ((object _).mp ⟨o, listed, found⟩).1
    · intro stored
      obtain ⟨o, listed, found⟩ := (object _).mpr ⟨stored, startsWith_iff.mpr ⟨_, _, rfl⟩⟩
      exact ⟨o, listed, found, rest, by simp [base, name]⟩
  · obtain ⟨r', listed, name, keys, -⟩ := same r member
    rw [keys, (tallied.each r' listed).keys] at there
    obtain ⟨o, found, rfl, rest, cut⟩ := there
    obtain ⟨part, more, split⟩ := startsWith_iff.mp ((object _).mp ⟨o, found, rfl⟩).2
    rw [split, List.drop_left] at cut
    exact ⟨rest, by rw [split, cut, name]⟩
  · obtain ⟨r', there, name, -, manifest⟩ := same r member
    rw [manifest, (tallied.each r' there).manifest, HasManifest, name]
    rw [runPrefix, List.append_assoc]
    refine ⟨fun ⟨o, listed, cut⟩ => ⟨(tallied.each r' there).stamped, ?_⟩, fun ⟨_, stored⟩ => ?_⟩
    · obtain ⟨stored, starts⟩ := (object _).mp ⟨o, listed, rfl⟩
      obtain ⟨part, more, split⟩ := startsWith_iff.mp starts
      rw [split, List.drop_left] at cut
      rw [split, cut] at stored
      exact stored
    · obtain ⟨o, listed, found⟩ := (object _).mpr ⟨stored, startsWith_iff.mpr ⟨_, _, rfl⟩⟩
      exact ⟨o, listed, by rw [found]; exact List.drop_left⟩
  · obtain ⟨o, listed, found⟩ := (object _).mpr ⟨there, startsWith_iff.mpr ⟨_, _, rfl⟩⟩
    obtain ⟨r, member, name⟩ :=
      tallied.all o listed run rest (by rw [found]; exact List.drop_left) valid
    have sorted : r ∈ (objects.foldl (tally base) []).insertionSort fun a b => b.run ≤ a.run :=
      (List.mem_insertionSort _).mpr member
    exact ⟨_, List.mem_map_of_mem sorted, name⟩

/-! ### What a prune deletes -/

/-- A run that the loop of `pruneRemote` deletes. -/
def Pruned (protectedRuns : List String) (cutoff : Int) (run : String) : Prop :=
  run ∉ protectedRuns ∧ ∃ taken, parseStamp run = some taken ∧ taken < cutoff

theorem deleteKeys_keeps {deletes : Deletes} {base key : Key} (keys : List Key) (bucket : Bucket)
    (stays : key ∉ keys ∨ startsWith key base = false) :
    key ∈ (deleteKeys bucket deletes base keys).1 ↔ key ∈ bucket := by
  induction keys generalizing bucket with
  | nil => rfl
  | cons next rest ih =>
    have later : key ∉ rest ∨ startsWith key base = false :=
      stays.imp_left fun absent there => absent (List.mem_cons_of_mem _ there)
    simp only [deleteKeys]
    split
    · rename_i starts
      cases deletes next with
      | error refused => rfl
      | ok =>
        have differs : key ≠ next := by
          rintro rfl
          rcases stays with absent | outside
          · exact absent List.mem_cons_self
          · simp [outside] at starts
        simp only []
        rw [ih _ later, AList.mem_erase]
        exact and_iff_right differs
    · exact ih _ later

theorem deleteKeys_subset {deletes : Deletes} {base key : Key} (keys : List Key) (bucket : Bucket)
    (left : key ∈ (deleteKeys bucket deletes base keys).1) : key ∈ bucket := by
  induction keys generalizing bucket with
  | nil => exact left
  | cons next rest ih =>
    simp only [deleteKeys] at left
    split at left
    · split at left
      · exact (AList.mem_erase.mp (ih _ left)).2
      · exact left
    · exact ih _ left

theorem deleteKeys_deletes {deletes : Deletes} {base key : Key} (keys : List Key) (bucket : Bucket)
    (done : (deleteKeys bucket deletes base keys).2 = .ok ()) (member : key ∈ keys)
    (starts : startsWith key base = true) : key ∉ (deleteKeys bucket deletes base keys).1 := by
  induction keys generalizing bucket with
  | nil => cases member
  | cons next rest ih =>
    simp only [deleteKeys] at done ⊢
    split at done
    · rename_i nextStarts
      rw [if_pos nextStarts]
      split at done
      · rename_i gone
        rcases List.mem_cons.mp member with rfl | later
        · exact fun left => (AList.mem_erase.mp (deleteKeys_subset rest _ left)).1 rfl
        · exact ih _ done later
      · cases done
    · rename_i nextOutside
      rw [if_neg nextOutside]
      rcases List.mem_cons.mp member with rfl | later
      · exact absurd starts nextOutside
      · exact ih _ done later

/-- What one turn of the loop over the runs does. -/
theorem pruneRuns_cons (cfg : Config) (host : String) (deletes : Deletes)
    (protectedRuns : List String) (cutoff : Int) (bucket : Bucket) (r : Run) (rest : List Run) :
    let prune := pruneRuns cfg host deletes protectedRuns cutoff
    let deleted := deleteKeys bucket deletes (runPrefix cfg host r.run) r.keys
    (¬ Pruned protectedRuns cutoff r.run ∧ prune bucket (r :: rest) = prune bucket rest) ∨
    (Pruned protectedRuns cutoff r.run ∧ deleted.2 = .ok () ∧
      prune bucket (r :: rest) =
        ((prune deleted.1 rest).1, (prune deleted.1 rest).2.map (r.run :: ·))) ∨
    (Pruned protectedRuns cutoff r.run ∧
      ∃ refused, prune bucket (r :: rest) = (deleted.1, .error refused)) := by
  simp only [pruneRuns]
  split
  · rename_i spared
    exact .inl ⟨fun pruned => pruned.1 spared, rfl⟩
  · rename_i exposed
    split
    · rename_i undated
      exact .inl ⟨fun ⟨_, taken, parsed, _⟩ => by simp [undated] at parsed, rfl⟩
    · rename_i taken parsed
      split
      · rename_i young
        refine .inl ⟨fun ⟨_, taken', parsed', old⟩ => ?_, rfl⟩
        obtain rfl := Option.some.inj (parsed.symm.trans parsed')
        omega
      · rename_i old
        have pruned : Pruned protectedRuns cutoff r.run := ⟨exposed, taken, parsed, by omega⟩
        split
        · rename_i left refused deleted
          exact .inr (.inr ⟨pruned, refused, by rw [deleted]⟩)
        · rename_i left deleted
          exact .inr (.inl ⟨pruned, by rw [deleted], by rw [deleted]⟩)

theorem pruneRuns_subset {cfg : Config} {host : String} {deletes : Deletes}
    {protectedRuns : List String} {cutoff : Int} {key : Key} (runs : List Run) (bucket : Bucket)
    (left : key ∈ (pruneRuns cfg host deletes protectedRuns cutoff bucket runs).1) :
    key ∈ bucket := by
  induction runs generalizing bucket with
  | nil => exact left
  | cons r rest ih =>
    rcases pruneRuns_cons cfg host deletes protectedRuns cutoff bucket r rest with
      ⟨-, turn⟩ | ⟨-, -, turn⟩ | ⟨-, refused, turn⟩ <;> rw [turn] at left
    · exact ih _ left
    · exact deleteKeys_subset _ _ (ih _ left)
    · exact deleteKeys_subset _ _ left

/-- Whether it completes or not, the loop keeps every object of a run it does not prune. -/
theorem pruneRuns_keeps {cfg : Config} {host : String} {deletes : Deletes}
    {protectedRuns : List String} {cutoff : Int} {key : Key} (runs : List Run) (bucket : Bucket)
    (stays : ∀ r ∈ runs, Pruned protectedRuns cutoff r.run → key ∉ r.keys) (there : key ∈ bucket) :
    key ∈ (pruneRuns cfg host deletes protectedRuns cutoff bucket runs).1 := by
  induction runs generalizing bucket with
  | nil => exact there
  | cons r rest ih =>
    have later := fun r' (member : r' ∈ rest) => stays r' (List.mem_cons_of_mem _ member)
    rcases pruneRuns_cons cfg host deletes protectedRuns cutoff bucket r rest with
      ⟨-, turn⟩ | ⟨pruned, -, turn⟩ | ⟨pruned, refused, turn⟩ <;> rw [turn]
    · exact ih _ later there
    · exact ih _ later ((deleteKeys_keeps _ _ (.inl (stays r (by simp) pruned))).mpr there)
    · exact (deleteKeys_keeps _ _ (.inl (stays r (by simp) pruned))).mpr there

theorem pruneRuns_deletes {cfg : Config} {host : String} {deletes : Deletes}
    {protectedRuns : List String} {cutoff : Int} {key : Key} (runs : List Run) (bucket : Bucket)
    (done : (pruneRuns cfg host deletes protectedRuns cutoff bucket runs).2.isOk = true)
    {r : Run} (member : r ∈ runs) (pruned : Pruned protectedRuns cutoff r.run)
    (listed : key ∈ r.keys) (starts : startsWith key (runPrefix cfg host r.run) = true) :
    key ∉ (pruneRuns cfg host deletes protectedRuns cutoff bucket runs).1 := by
  induction runs generalizing bucket with
  | nil => cases member
  | cons next rest ih =>
    rcases pruneRuns_cons cfg host deletes protectedRuns cutoff bucket next rest with
      ⟨spared, turn⟩ | ⟨-, deleted, turn⟩ | ⟨-, refused, turn⟩ <;> rw [turn] at done ⊢
    · rcases List.mem_cons.mp member with rfl | later
      · exact absurd pruned spared
      · exact ih _ done later
    · rcases List.mem_cons.mp member with rfl | later
      · exact fun left => deleteKeys_deletes _ _ deleted listed starts (pruneRuns_subset _ _ left)
      · refine ih _ ?_ later
        revert done
        cases (pruneRuns cfg host deletes protectedRuns cutoff _ rest).2 <;> exact id
    · cases done

/-! ### What outlives it -/

/-- The runs that `pruneRemote` does not look at for their age. -/
def protectedRuns (call : Prune) (bucket : Bucket) : List String :=
  call.current :: (((listRuns bucket call.cfg call.host).filter (·.manifest)).take minKeepRuns).map
    (·.run)

theorem mem_protectedRuns (call : Prune) (bucket : Bucket) (run : String) :
    run ∈ protectedRuns call bucket ↔
      run = call.current ∨ AmongNewest bucket call.cfg call.host run := by
  have listed := listRuns_listed bucket call.cfg call.host
  let runs := listRuns bucket call.cfg call.host
  have withManifest : ∀ name, name ∈ (runs.filter (·.manifest)).map (·.run) ↔
      HasManifest bucket call.cfg call.host name := by
    intro name
    simp only [List.mem_map, List.mem_filter]
    constructor
    · rintro ⟨r, ⟨member, has⟩, rfl⟩
      exact (listed.manifest r member).mp has
    · rintro ⟨valid, stored⟩
      rw [runPrefix, List.append_assoc] at stored
      obtain ⟨r, member, rfl⟩ := listed.all name ["manifest.json"] stored valid
      refine ⟨r, ⟨member, (listed.manifest r member).mpr ⟨valid, ?_⟩⟩, rfl⟩
      rwa [runPrefix, List.append_assoc]
  have sorted : ((runs.filter (·.manifest)).map (·.run)).Pairwise (· > ·) :=
    listed.sorted.sublist (List.filter_sublist.map _)
  rw [protectedRuns, List.mem_cons, List.map_take, mem_take_iff sorted, withManifest, AmongNewest]
  refine or_congr_right (and_congr_right fun _ => ⟨fun few others newer' => ?_, fun few => ?_⟩)
  · refine (Finset.card_le_card fun other member => ?_).trans_lt few
    obtain ⟨later, has⟩ := newer' other member
    exact mem_newer.mpr ⟨List.mem_toFinset.mpr ((withManifest other).mpr has), later⟩
  · refine few _ fun other member => ?_
    obtain ⟨there, later⟩ := mem_newer.mp member
    exact ⟨later, (withManifest other).mp (List.mem_toFinset.mp there)⟩

theorem not_pruned_iff (call : Prune) (bucket : Bucket) (run : String) :
    ¬ Pruned (protectedRuns call bucket) call.cutoff run ↔ Spared call bucket run := by
  rw [Pruned, mem_protectedRuns, Spared, ← or_assoc, not_and_or, not_not]
  refine or_congr_right ⟨fun young taken parsed => ?_, fun young ⟨taken, parsed, old⟩ => ?_⟩
  · by_contra old
    exact young ⟨taken, parsed, by omega⟩
  · exact (young taken parsed).not_gt old

/-- A copy in a spared run outlives every prune. -/
theorem holds_of_spared {call : Prune} {bucket : Bucket} {run service name : String}
    (holds : Holds bucket call.cfg call.host run service name) (spared : Spared call bucket run) :
    Holds (pruneRemote call bucket).1 call.cfg call.host run service name := by
  refine ⟨holds.1, pruneRuns_keeps _ _ (fun r member pruned listed => ?_) holds.2⟩
  obtain ⟨rest, split⟩ := (listRuns_listed bucket call.cfg call.host).mine r member _ listed
  rw [runPrefix, List.append_assoc, List.append_cancel_left_eq] at split
  have same : run = r.run := (List.cons.inj split).1
  exact (not_pruned_iff call bucket r.run).mpr (same ▸ spared) pruned

/-- When the prune completes, no other copy does. -/
theorem holds_after_iff {call : Prune} {bucket : Bucket} {run service name : String}
    (done : (pruneRemote call bucket).2.isOk = true) :
    Holds (pruneRemote call bucket).1 call.cfg call.host run service name ↔
      Holds bucket call.cfg call.host run service name ∧ Spared call bucket run := by
  refine ⟨fun ⟨valid, left⟩ => ?_, fun ⟨holds, spared⟩ => holds_of_spared holds spared⟩
  have there := pruneRuns_subset _ _ left
  refine ⟨⟨valid, there⟩, (not_pruned_iff call bucket run).mp fun pruned => ?_⟩
  have listed := listRuns_listed bucket call.cfg call.host
  have stored := there
  rw [runPrefix, List.append_assoc] at stored
  obtain ⟨r, member, rfl⟩ := listed.all run [service, name ++ ".ovbk"] stored valid
  refine pruneRuns_deletes _ _ done member pruned ?_ ?_ left
  · rw [runPrefix, List.append_assoc]
    exact (listed.keys r member _).mpr stored
  · exact startsWith_iff.mpr ⟨service, [name ++ ".ovbk"], rfl⟩

/-- After any pushes, a prune leaves every artifact a complete copy when each has
one in a run that the policy keeps; a prune that completes does so only then. -/
theorem copies_remain_iff_covered (history : List Push) (call : Prune) :
    (Covered call (run step ∅ history) →
      Remain call.cfg call.host (run step ∅ history)
        (pruneRemote call (run step ∅ history)).1) ∧
    ((pruneRemote call (run step ∅ history)).2.isOk = true →
      Remain call.cfg call.host (run step ∅ history)
        (pruneRemote call (run step ∅ history)).1 → Covered call (run step ∅ history)) := by
  constructor
  · intro covered service name copied
    obtain ⟨run, holds, spared⟩ := covered service name copied
    exact ⟨run, holds_of_spared holds spared⟩
  · intro done remain service name copied
    obtain ⟨run, holds⟩ := remain service name copied
    exact ⟨run, (holds_after_iff done).mp holds⟩

/-- Uploads of one host, kept for thirty days. -/
def thirtyDays : Config := { keyPrefix := ["openvibe-backups"], positive := by decide }

/-- A push of one copy each of the named services, which the store accepts; the
bucket is not pruned. -/
def pushed (stamp : String) (services : List String) : Push where
  cfg := { thirtyDays with prune := false }
  host := "oregon"
  summary := {
    run := stamp
    services := services.map fun service =>
      ⟨service, [{ name := "main", dest := some ("/backups/" ++ service ++ "/main.dump") }]⟩ }
  now := 0

/-- `live` was uploaded once; its later dumps failed on the host, so the later
runs hold `chat` alone. -/
def quietLive : List Push :=
  pushed "20260901-033000" ["live", "chat"] ::
    ["20261001-033000", "20261002-033000", "20261003-033000", "20261004-033000", "20261005-033000",
      "20261006-033000", "20261007-033000"].map (pushed · ["chat"])

/-- The prune of the last of these runs, on 2026-10-07. -/
def octoberPrune : Prune where
  cfg := thirtyDays
  host := "oregon"
  current := "20261007-033000"
  now := 1791343800000

/-- Seven newer runs of `chat` cost `live` its only copy. -/
theorem quiet_service_loses_its_copy :
    (pruneRemote octoberPrune (run step ∅ quietLive)).2.isOk = true ∧
      ¬ Remain thirtyDays "oregon" (run step ∅ quietLive)
        (pruneRemote octoberPrune (run step ∅ quietLive)).1 := by
  refine ⟨by decide +kernel, fun remain => ?_⟩
  have copied : ∃ run', Holds (run step ∅ quietLive) thirtyDays "oregon" run' "live" "main.dump" :=
    ⟨"20260901-033000", by decide, AList.mem_keys.mpr (by decide +kernel)⟩
  obtain ⟨run', -, left⟩ := remain "live" "main.dump" copied
  have gone : ∀ key ∈ (pruneRemote octoberPrune (run step ∅ quietLive)).1.keys,
      key[3]? ≠ some "live" := by decide +kernel
  exact gone _ (AList.mem_keys.mp left) rfl

end OpenVibeHost.Offsite
