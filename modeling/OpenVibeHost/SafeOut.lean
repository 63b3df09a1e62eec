import OpenVibeHost.Declarations
import OpenVibeHost.PathOverlap

/-! Where `restore-download` refuses to write: what its `--out` is compared with, and what the
comparison sees. -/
namespace OpenVibeHost.Offsite
open Locations Declared

/-- How `unsafeOut` compares two paths. -/
def overlapsText (out dir : String) : Bool :=
  out = dir || beginsWith dir (out ++ "/") || beginsWith out (dir ++ "/")

/-- `unsafeOut`. -/
def unsafeOut (inv : Inventory) (out : String) : Option String :=
  match inv.services.findSome? overlapsService with
  | some why => some why
  | none => ([inv.backupDir, inv.stateDir].find? (overlapsText out)).map fun dir => out ++ " overlaps " ++ dir
where
  overlapsService (svc : Service) : Option String :=
    match svc.objects.find? fun obj => overlapsText out obj.path with
    | some obj => some (out ++ " holds or sits inside " ++ svc.id ++ "'s object directory " ++ obj.path)
    | none =>
      if overlapsText out svc.repo then some (out ++ " overlaps " ++ svc.id ++ "'s checkout " ++ svc.repo)
      else none

/-- What `restoreDownload` does with its `--out`. -/
def checkOut (inv : Inventory) (out : String) : Except String String :=
  let dir := normalize out
  if ¬ beginsWith dir "/" then .error "--out must be an absolute path"
  else
    match unsafeOut inv dir with
    | some why => .error ("refusing --out: " ++ why)
    | none => .ok dir

/-- The directories that nothing is downloaded over. -/
def protectedDirs (inv : Inventory) : List String :=
  inv.services.flatMap (fun svc => svc.objects.map (·.path) ++ [svc.repo]) ++ [inv.backupDir, inv.stateDir]

/-- The directories of the inventory are what `normalise` makes of the values it is given. -/
structure Normalised (inv : Inventory) : Prop where
  stateDir : ∃ value at', abs value at' = .ok inv.stateDir
  backupDir : ∃ value at', abs value at' = .ok inv.backupDir
  repos : ∀ svc ∈ inv.services, ∃ value where' releaseLayout namesCurrent,
    repoOf value where' releaseLayout namesCurrent = .ok svc.repo
  objects : ∀ svc ∈ inv.services, ∃ value where', normaliseObjects value where' = .ok svc.objects

section
variable {inv : Inventory} {out dir : String}

theorem unsafeOut_isSome_iff : (unsafeOut inv out).isSome = true ↔
    ∃ dir ∈ protectedDirs inv, overlapsText out dir = true := by
  have service (svc : Service) : (unsafeOut.overlapsService out svc).isSome = true ↔
      ∃ dir ∈ svc.objects.map (·.path) ++ [svc.repo], overlapsText out dir = true := by
    unfold unsafeOut.overlapsService
    cases found : svc.objects.find? fun obj => overlapsText out obj.path with
    | some obj =>
      have member := List.mem_of_find?_eq_some found
      have overlaps := List.find?_some found
      simp only [Option.isSome_some, true_iff]
      exact ⟨obj.path, List.mem_append_left _ (List.mem_map_of_mem member), overlaps⟩
    | none =>
      have apart := List.find?_eq_none.mp found
      simp only [List.mem_append, List.mem_map, List.mem_singleton]
      split
      · rename_i overlaps
        simp only [Option.isSome_some, true_iff]
        exact ⟨svc.repo, .inr rfl, overlaps⟩
      · rename_i apart'
        simp only [Option.isSome_none, Bool.false_eq_true, false_iff]
        rintro ⟨dir, ⟨obj, member, rfl⟩ | rfl, overlaps⟩
        · exact apart obj member overlaps
        · exact apart' overlaps
  unfold unsafeOut protectedDirs
  cases found : inv.services.findSome? (unsafeOut.overlapsService out) with
  | some why =>
    obtain ⟨svc, member, said⟩ := List.exists_of_findSome?_eq_some found
    obtain ⟨dir, among, overlaps⟩ := (service svc).mp (Option.isSome_iff_exists.mpr ⟨why, said⟩)
    simp only [Option.isSome_some, true_iff]
    exact ⟨dir, List.mem_append_left _ (List.mem_flatMap.mpr ⟨svc, member, among⟩), overlaps⟩
  | none =>
    have apart := List.findSome?_eq_none_iff.mp found
    rw [Option.isSome_map, List.find?_isSome]
    constructor
    · rintro ⟨dir, member, overlaps⟩
      exact ⟨dir, List.mem_append_right _ member, overlaps⟩
    · rintro ⟨dir, member, overlaps⟩
      obtain within | member := List.mem_append.mp member
      · obtain ⟨svc, declared, among⟩ := List.mem_flatMap.mp within
        have some' := (service svc).mpr ⟨dir, among, overlaps⟩
        rw [apart svc declared] at some'
        cases some'
      · exact ⟨dir, member, overlaps⟩

/-- The parent of a normalised path is one. -/
theorem spells_parent {path : String} {a : List (List Char)} {slash : Bool} (spelled : Spells path a slash) :
    ∃ b slash', Spells (parent path) b slash' := by
  obtain rfl | ⟨init, part, rfl⟩ := a.eq_nil_or_concat'
  · have root : path = "/" := by
      have text := spelled.text
      rw [spelled.root rfl] at text
      exact String.toList_injective text
    subst root
    exact ⟨[], true, rfl, by simp, fun _ => rfl⟩
  · have known := spelled.resolved part (by simp)
    have plain : ∀ c ∈ part.reverse, decide (c ≠ '/') = true := fun c member =>
      decide_eq_true fun same => known.2.1 (same ▸ List.mem_reverse.mp member)
    -- without the slash that may end it, the path is its last segment after those before
    have bare : (if endsWith path "/" ∧ path ≠ "/" then String.ofList path.toList.dropLast else path).toList =
        flat init ++ '/' :: part := by
      rw [spelled.slash_eq]
      cases slash with
      | true =>
        have proper : path ≠ "/" := by
          rintro rfl
          have text := congrArg List.length spelled.text
          have positive := List.length_pos_of_ne_nil known.1
          simp [closing] at text
          omega
        rw [if_pos ⟨rfl, proper⟩, String.toList_ofList, spelled.text, closing, if_pos rfl, List.dropLast_concat]
        simp
      | false =>
        rw [if_neg (by simp), spelled.text]
        simp [closing]
    have upTo : ((flat init ++ '/' :: part).reverse.dropWhile (· ≠ '/')).reverse = flat init ++ ['/'] := by
      rw [List.reverse_append, List.reverse_cons, List.append_assoc, List.dropWhile_append_of_pos plain,
        List.singleton_append, List.dropWhile_cons_of_neg (by decide)]
      simp
    have others : ∀ part ∈ init, Resolved part := fun other member =>
      spelled.resolved other (List.mem_append_left _ member)
    unfold parent dirName
    rw [bare, upTo]
    split
    · rename_i nothing
      simp at nothing
    · exact ⟨[], true, rfl, by simp, fun _ => rfl⟩
    · rename_i proper
      refine ⟨init, false, ?_, others, fun empty => ?_⟩
      · simp [closing]
      · subst empty
        exact absurd rfl proper

theorem spells_abs {value : Option Json} {at' : String} (accepted : abs value at' = .ok dir) :
    ∃ a slash, Spells dir a slash := by
  obtain ⟨text, absolute, rfl⟩ := abs_ok accepted
  obtain ⟨slash, spelled⟩ := spells_normalize absolute
  exact ⟨_, slash, spelled⟩

/-- Every directory of the inventory is a normalised path. -/
theorem spells_protected (normalised : Normalised inv) (member : dir ∈ protectedDirs inv) :
    Spells dir (location dir) (endsWith dir "/") := by
  have spelled : ∃ a slash, Spells dir a slash := by
    simp only [protectedDirs, List.mem_append, List.mem_flatMap, List.mem_map, List.mem_cons, List.not_mem_nil, or_false] at member
    obtain ⟨svc, declared, ⟨obj, among, rfl⟩ | rfl⟩ | rfl | rfl := member
    · obtain ⟨value, where', accepted⟩ := normalised.objects svc declared
      obtain ⟨-, value', at', located⟩ := (normaliseObjects_ok accepted).2.1 obj among
      exact spells_abs located
    · obtain ⟨value, where', releaseLayout, namesCurrent, accepted⟩ := normalised.repos svc declared
      unfold repoOf at accepted
      cases given : abs value (where' ++ ".repo") with
      | error refused =>
        rw [given] at accepted
        cases accepted
      | ok repo =>
        rw [given] at accepted
        obtain ⟨a, slash, spelled⟩ := spells_abs given
        have repoIs := Except.ok.inj accepted
        split at repoIs
        · exact repoIs ▸ spells_parent spelled
        · exact repoIs ▸ ⟨a, slash, spelled⟩
    · obtain ⟨value, at', accepted⟩ := normalised.backupDir
      exact spells_abs accepted
    · obtain ⟨value, at', accepted⟩ := normalised.stateDir
      exact spells_abs accepted
  obtain ⟨a, slash, spelled⟩ := spelled
  rwa [spelled.location_eq, spelled.slash_eq]

/-- The texts tell that the directory overlaps: it is the one asked for, or the upper one of the
two does not end with a slash, as the root does. -/
def Told (out dir : String) : Prop :=
  location out = location dir ∨ (location out <+: location dir ∧ endsWith (normalize out) "/" = false) ∨
    (location dir <+: location out ∧ endsWith dir "/" = false)

/-- What is asked for overlaps a directory of the inventory. -/
def Overlaps (inv : Inventory) (out : String) : Prop :=
  ∃ dir ∈ protectedDirs inv, Overlap (location out) (location dir)

theorem refused_iff_told (normalised : Normalised inv) (absolute : beginsWith out "/" = true) :
    (unsafeOut inv (normalize out)).isSome = true ↔ ∃ dir ∈ protectedDirs inv, Told out dir := by
  rw [unsafeOut_isSome_iff]
  refine exists_congr fun dir => and_congr_right fun member => ?_
  obtain ⟨slash, spelled⟩ := spells_normalize absolute
  rw [← spelled.slash_eq] at spelled
  have told := spelled.overlap_iff (spells_protected normalised member)
  rw [overlapsText]
  simp only [Bool.or_eq_true, decide_eq_true_eq, or_assoc]
  rw [told, Told]
  simp only [and_comm]

theorem overlap_of_told (told : Told out dir) : Overlap (location out) (location dir) := by
  obtain same | ⟨above, -⟩ | ⟨above, -⟩ := told
  · exact .inl (same ▸ List.prefix_refl _)
  · exact .inl above
  · exact .inr above

theorem checkOut_refused_iff (absolute : beginsWith out "/" = true) :
    (∃ why, checkOut inv out = .error ("refusing --out: " ++ why)) ↔ (unsafeOut inv (normalize out)).isSome = true := by
  have rooted : beginsWith (normalize out) "/" = true := by
    obtain ⟨slash, spelled⟩ := spells_normalize absolute
    rw [beginsWith, List.isPrefixOf_iff_prefix, spelled.text]
    cases shape : location out with
    | nil =>
      rw [spelled.root shape]
      exact List.prefix_refl _
    | cons part rest => simp [List.cons_prefix_cons]
  unfold checkOut
  dsimp only
  rw [if_neg (not_not.mpr rooted)]
  cases unsafeOut inv (normalize out) with
  | none => simp
  | some why =>
    simp only [Option.isSome_some, iff_true]
    exact ⟨why, rfl⟩

/-- A path that overlaps a directory of the inventory is refused exactly where the texts tell of
one that it overlaps; a path that overlaps none is not refused. -/
theorem refused_where_told (normalised : Normalised inv) (absolute : beginsWith out "/" = true) :
    ((Overlaps inv out → ∃ why, checkOut inv out = .error ("refusing --out: " ++ why)) ↔
      (Overlaps inv out → ∃ dir ∈ protectedDirs inv, Told out dir)) ∧
    (¬ Overlaps inv out → ¬ ∃ why, checkOut inv out = .error ("refusing --out: " ++ why)) := by
  rw [checkOut_refused_iff absolute, refused_iff_told normalised absolute]
  refine ⟨Iff.rfl, fun apart ⟨dir, member, told⟩ => apart ⟨dir, member, overlap_of_told told⟩⟩

end

/-- A host of one service in one checkout. -/
def chatHost (repo : String) : Inventory where
  stateDir := "/var/lib/openvibe-host"
  backupDir := "/var/backups/openvibe"
  backupStagingDir := "/var/backups/openvibe.staging"
  services := [{ id := "chat", repo, owner := "chat", runAs := "chat", unit_service := Service.no_unit,
                 socket_socket := Service.no_socket, auxiliary_apart := Service.no_auxiliary,
                 workers_service := Service.no_unit, workers_apart := Service.no_worker,
                 auxiliary_no_worker := Service.no_auxiliary_worker, sources_apart := Service.no_source,
                 sources_named := Service.no_source_named, laid_out := Service.no_layout }]
  backup_absolute := backups_absolute

theorem chatHost_normalised {repo : String} (given : abs (some (.str repo)) "services.chat.repo" = .ok repo) :
    Normalised (chatHost repo) where
  stateDir := ⟨some (.str "/var/lib/openvibe-host"), "stateDir", by rfl⟩
  backupDir := ⟨some (.str "/var/backups/openvibe"), "backupDir", by rfl⟩
  repos svc member := by
    obtain rfl := List.mem_singleton.mp member
    refine ⟨some (.str repo), "services.chat", false, false, ?_⟩
    rw [repoOf, show "services.chat" ++ ".repo" = "services.chat.repo" from rfl, given]
    rfl
  objects svc member := by
    obtain rfl := List.mem_singleton.mp member
    exact ⟨none, "services.chat", rfl⟩

/-- A directory in the checkout is refused. -/
theorem below_checkout_refused :
    ((Overlaps (chatHost "/srv/chat") "/srv//chat/./copies/" →
        ∃ why, checkOut (chatHost "/srv/chat") "/srv//chat/./copies/" = .error ("refusing --out: " ++ why)) ↔
      (Overlaps (chatHost "/srv/chat") "/srv//chat/./copies/" →
        ∃ dir ∈ protectedDirs (chatHost "/srv/chat"), Told "/srv//chat/./copies/" dir)) ∧
    (¬ Overlaps (chatHost "/srv/chat") "/srv//chat/./copies/" →
      ¬ ∃ why, checkOut (chatHost "/srv/chat") "/srv//chat/./copies/" = .error ("refusing --out: " ++ why)) :=
  refused_where_told (chatHost_normalised (by rfl)) (by decide)

/-- A directory above the checkout is not refused where a slash ends it. -/
theorem above_checkout_passes : ∃ (inv : Inventory) (out : String), Normalised inv ∧
    beginsWith out "/" = true ∧ Overlaps inv out ∧ checkOut inv out = .ok "/srv/" := by
  refine ⟨chatHost "/srv/chat", "/srv/", chatHost_normalised (by rfl), by decide,
    ⟨"/srv/chat", by simp [protectedDirs, chatHost], .inl ?_⟩, by rfl⟩
  decide

end OpenVibeHost.Offsite
