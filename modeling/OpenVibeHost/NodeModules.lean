import OpenVibeHost.FileTree
import OpenVibeHost.Runs

/-! What `verifyAndRepair` removes of the packages that it reinstalls. -/
namespace OpenVibeHost

/-! ### The segments of a normalised path -/

/-- The names that the kernel reads off a path. -/
def pathNames (path : String) : List (List Char) := (path.toList.splitOn '/').filter (· ≠ [])

/-- A segment of a path whose `.` and `..` are resolved. -/
def Resolved (part : List Char) : Prop := part ≠ [] ∧ '/' ∉ part ∧ part ≠ ['.'] ∧ part ≠ ['.', '.']

theorem resolved_takeSegment {done : List (List Char)} {part : List Char} (plain : '/' ∉ part)
    (resolved : ∀ other ∈ done, Resolved other) : ∀ other ∈ takeSegment true done part, Resolved other := by
  unfold takeSegment
  split
  · exact resolved
  · rename_i named
    rw [not_or] at named
    split
    · split
      · exact resolved
      · exact fun other member => resolved other (List.mem_of_mem_dropLast member)
    · rename_i notUp
      intro other member
      obtain known | rfl := by simpa using member
      · exact resolved other known
      · exact ⟨named.1, plain, named.2, notUp⟩

theorem resolved_foldl {parts done : List (List Char)} (plain : ∀ part ∈ parts, '/' ∉ part)
    (resolved : ∀ other ∈ done, Resolved other) :
    ∀ other ∈ parts.foldl (takeSegment true) done, Resolved other := by
  induction parts generalizing done with
  | nil => exact resolved
  | cons part rest ih =>
    exact ih (fun other member => plain other (List.mem_cons_of_mem _ member))
      (resolved_takeSegment (plain part List.mem_cons_self) resolved)

theorem resolved_segments {path : String} : ∀ part ∈ normalSegments true path, Resolved part :=
  resolved_foldl (fun _ => splitOn_plain) (by simp)

/-- The segments of one path after another. -/
theorem normalSegments_append (dir rest : String) :
    normalSegments true (dir ++ "/" ++ rest) =
      (rest.toList.splitOn '/').foldl (takeSegment true) (normalSegments true dir) := by
  have split : (dir ++ "/" ++ rest).toList.splitOn '/' = dir.toList.splitOn '/' ++ rest.toList.splitOn '/' := by
    rw [String.toList_append, String.toList_append, List.append_assoc]
    exact List.splitOn_append_cons_self _ _
  rw [normalSegments, split, List.foldl_append]
  rfl

theorem beginsWith_append {dir rest : String} (absolute : beginsWith dir "/" = true) :
    beginsWith (dir ++ rest) "/" = true := by
  obtain ⟨more, whole⟩ := List.isPrefixOf_iff_prefix.mp absolute
  exact List.isPrefixOf_iff_prefix.mpr ⟨more ++ rest.toList, by rw [← List.append_assoc, whole, String.toList_append]⟩

/-- A normalised absolute path spells its segments. -/
theorem pathNames_normalize {path : String} (absolute : beginsWith path "/" = true) :
    pathNames (normalize path) = normalSegments true path := by
  have resolved := @resolved_segments path
  unfold normalize pathNames
  rw [absolute]
  dsimp only
  generalize normalSegments true path = segments at resolved
  by_cases none' : segments = []
  · rw [none', if_pos rfl, if_pos rfl]
    decide
  · have kept : segments.filter (· ≠ []) = segments :=
      List.filter_eq_self.mpr fun part member => decide_eq_true (resolved part member).1
    have spelled : (['/'].intercalate segments).splitOn '/' = segments :=
      List.splitOn_intercalate '/' (fun part member => (resolved part member).2.1) none'
    have opened : ("/" ++ String.ofList (['/'].intercalate segments)).toList =
        [] ++ '/' :: ['/'].intercalate segments := by simp
    rw [if_neg none', if_pos rfl]
    by_cases trailing : endsWith path "/" = true
    · rw [if_pos trailing, String.toList_append, opened, List.append_assoc,
        List.cons_append, List.splitOn_append_cons_self]
      rw [show "/".toList = '/' :: [] from rfl, List.splitOn_append_cons_self, spelled]
      simpa using kept
    · rw [if_neg trailing, String.append_empty, opened, List.splitOn_append_cons_self, spelled]
      simpa using kept

/-! ### What is in a `node_modules` -/

namespace Deps
open Effects Program FileTree

/-- `path.join(root, 'node_modules')`, by its names. -/
def nodeModules (root : String) : List (List Char) := normalSegments true (root ++ "/node_modules")

/-- `path.join(root, 'node_modules', dep)`. -/
def depPath (root dep : String) : String := pathJoin root ("node_modules/" ++ dep)

/-- The path of a dependency is that of `node_modules` or one under it, or it is the root, which
cannot be removed. -/
def Stays (root dep : String) : Prop :=
  pathNames (depPath root dep) = [] ∨ nodeModules root <+: pathNames (depPath root dep)

/-- As far as no link leads out of `node_modules` on the way to a dependency, its removal takes
nothing from outside. -/
def RemovesInside (root dep : String) : Prop :=
  ∀ links : Links (List Char),
    (∀ rest, pathNames (depPath root dep) = nodeModules root ++ rest → rest ≠ [] →
      StaysIn links (nodeModules root) rest (endsWith (depPath root dep) "/")) →
    Removal links (pathNames (depPath root dep)) (endsWith (depPath root dep) "/") ⊆
      Under links (nodeModules root)

section
variable {root dep : String}

theorem nodeModules_eq : nodeModules root = normalSegments true root ++ ["node_modules".toList] := by
  have one : "node_modules".toList.splitOn '/' = ["node_modules".toList] := by decide
  have whole := normalSegments_append root "node_modules"
  rw [one] at whole
  have same : root ++ "/" ++ "node_modules" = root ++ "/node_modules" := by
    rw [String.append_assoc]
    rfl
  rw [nodeModules, ← same, whole]
  rfl

theorem removes_inside_iff_stays : RemovesInside root dep ↔ Stays root dep := by
  by_cases named : pathNames (depPath root dep) = []
  · exact ⟨fun _ => .inl named, fun _ links _ file ⟨some', _⟩ => absurd named some'⟩
  · rw [RemovesInside, removal_inside_iff named (by simp [nodeModules_eq])]
    exact ⟨.inr, fun stays => stays.resolve_left named⟩

theorem prefix_foldl {parts done : List (List Char)} (level : ['.', '.'] ∉ parts) :
    done <+: parts.foldl (takeSegment true) done := by
  induction parts generalizing done with
  | nil => exact List.prefix_rfl
  | cons part rest ih =>
    rw [List.mem_cons, not_or] at level
    refine List.IsPrefix.trans ?_ (ih level.2)
    unfold takeSegment
    split
    · exact List.prefix_rfl
    · rw [if_neg (Ne.symm level.1)]
      exact List.prefix_append _ _

/-- A name without `..` between its slashes stays. -/
theorem stays_of_level (absolute : beginsWith root "/" = true) (level : ['.', '.'] ∉ dep.toList.splitOn '/') :
    Stays root dep := by
  refine .inr ?_
  have whole : root ++ "/" ++ ("node_modules/" ++ dep) = root ++ "/node_modules" ++ "/" ++ dep := by
    simp only [String.append_assoc]
    rfl
  rw [depPath, pathJoin, whole, pathNames_normalize, normalSegments_append]
  · exact prefix_foldl level
  · rw [String.append_assoc, String.append_assoc]
    exact beginsWith_append absolute

end

/-! ### What a repair removes -/

/-- The path that a repair removes; an install runs in a directory. -/
def removes : Call → Option String
  | .run cmd args options =>
    if cmd = "rm" ∧ options.cwd = none ∧ args.take 2 = ["-rf", "--"] then args[2]? else none
  | _ => none

def noRemoval (call : Machine.Call) : Bool := (removes call).isNone

/-- A dependency that a package names in its `package.json`. -/
def Declared (root pkgDir dep : String) (events : List (Event Machine)) : Prop :=
  ∃ text pkg t, (⟨.readFile (joinPath (joinPath root pkgDir) "package.json") false, .ok text, t⟩ :
    Event Machine) ∈ events ∧ Json.parseFile text = some pkg ∧
      dep ∈ (pkg.fieldOrEmpty "dependencies").keys

/-- What was removed is the path of a dependency that a package declares. -/
def Repairs (root : String) (pkgDirs : List String) (events : List (Event Machine)) : Prop :=
  ∀ event ∈ events, ∀ path, removes event.call = some path →
    ∃ pkgDir ∈ pkgDirs, ∃ dep, dep ≠ "" ∧ Declared root pkgDir dep events ∧
      path = depPath (joinPath root pkgDir) dep

/-- The problems are of packages that are verified, and of dependencies that these declare. -/
def Found (root : String) (pkgDirs : List String) (problems : List Problem) (events : List (Event Machine)) : Prop :=
  ∀ p ∈ problems, p.pkg ∈ pkgDirs ∧ ∀ dep, p.dep = some dep → Declared root p.pkg dep events

section
variable {env : Environment Machine} {base : List (Event Machine)} {root : String} {pkgDirs : List String}
  {events : List (Event Machine)} {problems : List Problem}

theorem Declared.append {pkgDir dep : String} (declared : Declared root pkgDir dep events)
    (more : List (Event Machine)) : Declared root pkgDir dep (events ++ more) := by
  obtain ⟨text, pkg, t, member, known⟩ := declared
  exact ⟨text, pkg, t, List.mem_append_left _ member, known⟩

theorem Found.append (found : Found root pkgDirs problems events) (more : List (Event Machine)) :
    Found root pkgDirs problems (events ++ more) :=
  fun p member => ⟨(found p member).1, fun dep named => ((found p member).2 dep named).append more⟩

theorem Repairs.quiet (repairs : Repairs root pkgDirs events) {event : Event Machine}
    (quiet : noRemoval event.call = true) : Repairs root pkgDirs (events ++ [event]) := by
  intro other member path removed
  obtain known | last := List.mem_append.mp member
  · obtain ⟨pkgDir, listed, dep, named, declared, same⟩ := repairs other known path removed
    exact ⟨pkgDir, listed, dep, named, declared.append _, same⟩
  · obtain rfl := List.mem_singleton.mp last
    rw [noRemoval, removed] at quiet
    exact nomatch quiet

theorem looks_remove_nothing : Allows noRemoval .look := by
  intro call looks
  cases call with
  | run cmd args options =>
    simp only [Call.kind] at looks
    split at looks <;> exact nomatch looks
  | _ => rfl

/-- A problem with a dependency names it. -/
theorem meets_verifyOne_names {pkgDir dep : String} :
    Meets env (fun _ => True) (verifyOne root pkgDir dep)
      (fun problem _ => ∀ p ∈ problem, p.pkg = pkgDir ∧ p.dep = some dep) (fun _ _ => True) := by
  have one (reason : String) : ∀ p ∈ some (⟨pkgDir, some dep, reason⟩ : Problem),
      p.pkg = pkgDir ∧ p.dep = some dep := by
    rintro p member
    obtain rfl : _ = p := Option.some.inj member
    exact ⟨rfl, rfl⟩
  unfold verifyOne
  refine meets_bind (M := fun _ _ => True) (meets_anyhow _) fun found => ?_
  split
  · exact meets_pure fun _ _ => one _
  · split
    · exact meets_pure fun _ _ => one _
    · exact meets_throw fun _ _ => trivial
    · split
      · split
        · exact meets_pure fun _ _ => nofun
        · exact meets_pure fun _ _ => one _
      · exact meets_pure fun _ _ => one _

/-- A step that removes nothing keeps what is known. -/
theorem meets_quiet {α : Type} {p : Exec α} (emits : Emits noRemoval p) :
    Meets env (Since base fun more _ => Repairs root pkgDirs more ∧ Found root pkgDirs problems more) p
      (fun _ => Since base fun more _ => Repairs root pkgDirs more ∧ Found root pkgDirs problems more)
      (fun _ => Since base fun more _ => Repairs root pkgDirs more ∧ Found root pkgDirs problems more) :=
  emits.meets_events fun more event quiet kept => ⟨kept.1.quiet quiet, kept.2.append _⟩

theorem meets_verify_found :
    Meets env (Since base fun more _ => Repairs root pkgDirs more) (verify root pkgDirs)
      (fun problems => Since base fun more _ => Repairs root pkgDirs more ∧ Found root pkgDirs problems more)
      (fun _ => Since base fun more _ => Repairs root pkgDirs more) := by
  have weaker {problems : List Problem} (w : World Machine Unit)
      (since : Since base (fun more _ => Repairs root pkgDirs more ∧ Found root pkgDirs problems more) w) :
      Since base (fun more _ => Repairs root pkgDirs more) w := since.mono fun _ _ => And.left
  unfold verify
  refine (meets_fold (I := fun problems => Since base fun more _ =>
    Repairs root pkgDirs more ∧ Found root pkgDirs problems more) fun problems pkgDir listed => ?_).weaken
      (fun w since => since.mono fun _ _ repairs => ⟨repairs, by simp [Found]⟩) (fun _ _ => id) fun _ _ => id
  refine meets_reject_then (fun text answer t read => ?_) fun _ _ _ w _ since => since.mono ?_
  · obtain rfl : answer = .ok text := read
    split
    · refine meets_pure fun w since => since.mono ?_
      rintro _ _ ⟨before, rfl, repairs, found⟩
      refine ⟨repairs.quiet rfl, fun p member => ?_⟩
      obtain earlier | rfl := by simpa using member
      · exact found.append _ p earlier
      · exact ⟨listed, nofun⟩
    · refine meets_throw fun w since => since.mono ?_
      rintro _ _ ⟨before, rfl, repairs, -⟩
      exact repairs.quiet rfl
    · rename_i pkg _ parsed
      have declares (dep : String) (member : dep ∈ (pkg.fieldOrEmpty "dependencies").keys)
          {more : List (Event Machine)} (read : (⟨.readFile (joinPath (joinPath root pkgDir) "package.json") false,
            .ok text, t⟩ : Event Machine) ∈ more) : Declared root pkgDir dep more :=
        ⟨text, pkg, t, read, parsed, member⟩
      refine (meets_fold (I := fun problems => Since base fun more _ => (⟨.readFile (joinPath (joinPath root pkgDir)
        "package.json") false, .ok text, t⟩ : Event Machine) ∈ more ∧
          Repairs root pkgDirs more ∧ Found root pkgDirs problems more) fun problems dep named => ?_).weaken
          (fun w since => since.mono ?_) (fun problems w since => since.mono fun _ _ => And.right) fun _ _ => id
      · refine meets_bind (M := fun problem => Since base fun more _ => (⟨.readFile (joinPath (joinPath root pkgDir)
          "package.json") false, .ok text, t⟩ : Event Machine) ∈ more ∧
            Repairs root pkgDirs more ∧ Found root pkgDirs problems more ∧
              ∀ p ∈ problem, p.pkg = pkgDir ∧ p.dep = some dep) ?_ fun problem => ?_
        · have kept := @Emits.meets_events Machine Unit Failure (Option Problem) env base noRemoval
            (verifyOne root pkgDir dep) (fun more => (⟨.readFile (joinPath (joinPath root pkgDir) "package.json") false,
              .ok text, t⟩ : Event Machine) ∈ more ∧ Repairs root pkgDirs more ∧ Found root pkgDirs problems more)
            (emits_verifyOne looks_remove_nothing root pkgDir dep) fun more event quiet kept =>
              ⟨List.mem_append_left _ kept.1, kept.2.1.quiet quiet, kept.2.2.append _⟩
          refine (kept.and (meets_verifyOne_names.weaken (fun _ _ => trivial) (fun _ _ => id) fun _ _ => id)).weaken
            (fun _ => id) (fun problem w both => both.1.mono fun _ _ now => ⟨now.1, now.2.1, now.2.2, both.2⟩)
              fun _ w both => both.1.mono fun _ _ now => now.2.1
        · refine meets_pure fun w since => since.mono ?_
          rintro more _ ⟨read, repairs, found, one⟩
          refine ⟨read, repairs, fun p member => ?_⟩
          obtain earlier | last := List.mem_append.mp member
          · exact found p earlier
          · obtain ⟨rfl, same⟩ := one p (by simpa using last)
            refine ⟨listed, fun dep' other => ?_⟩
            obtain rfl : dep = dep' := Option.some.inj (same.symm.trans other)
            exact declares dep named read
      · rintro _ _ ⟨before, rfl, repairs, found⟩
        exact ⟨by simp, repairs.quiet rfl, found.append _⟩
  · rintro _ _ ⟨before, rfl, repairs, -⟩
    exact repairs.quiet rfl

theorem emits_install_quiet (svc : Service) (g : Checkout) (restoreLockfile : Bool) (pkgDir : String) :
    Emits noRemoval (install svc g root restoreLockfile pkgDir) := by
  have git (command : Git) : Emits noRemoval (Git.mustRun g command) := by
    unfold Git.mustRun Git.tryRun
    refine emits_bind (emits_ask rfl) fun r => ?_
    split
    · exact emits_throw _
    · exact emits_pure _
  unfold install
  refine emits_bind (emits_enoughMemory looks_remove_nothing svc.memory) fun _ => emits_bind ?_ fun r => ?_
  · refine emits_ask ?_
    simp [noRemoval, removes]
  · split
    · exact emits_throw _
    · split
      · unfold Git.dirtyFiles
        refine emits_bind (emits_bind (git _) fun _ => emits_pure _) fun dirty => ?_
        split
        · exact emits_bind (git _) fun _ => emits_pure _
        · exact emits_pure _
      · exact emits_pure _

/-- A removal is of a dependency that a verified package declares. -/
theorem meets_repair (svc : Service) (g : Checkout) (restoreLockfile : Bool) :
    Meets env (Since base fun more _ => Repairs root pkgDirs more)
      (verifyAndRepair svc g root restoreLockfile pkgDirs)
      (fun _ => Since base fun more _ => Repairs root pkgDirs more)
      (fun _ => Since base fun more _ => Repairs root pkgDirs more) := by
  unfold verifyAndRepair
  refine meets_bind meets_verify_found fun problems => ?_
  split
  · exact meets_pure fun w since => since.mono fun _ _ => And.left
  refine meets_bind (M := fun _ => Since base fun more _ => Repairs root pkgDirs more) ?_ fun repaired => ?_
  · refine (meets_fold (I := fun _ => Since base fun more _ =>
      Repairs root pkgDirs more ∧ Found root pkgDirs problems more) fun repaired pkgDir _ => ?_).weaken
        (fun _ => id) (fun _ w since => since.mono fun _ _ => And.left) fun _ _ => id
    refine meets_bind (M := fun _ => Since base fun more _ =>
      Repairs root pkgDirs more ∧ Found root pkgDirs problems more) (meets_forEach fun p member => ?_) fun _ => ?_
    · obtain ⟨among, same⟩ := List.mem_filter.mp member
      obtain rfl : p.pkg = pkgDir := of_decide_eq_true same
      split
      · exact meets_pure fun w => id
      · exact meets_pure fun w => id
      · rename_i dep notEmpty named
        refine meets_since_ask_then fun answer t => meets_pure fun w since => since.mono ?_
        rintro _ _ ⟨before, rfl, repairs, found⟩
        refine ⟨fun event member path removed => ?_, found.append _⟩
        obtain known | last := List.mem_append.mp member
        · obtain ⟨pkgDir, listed, other, named', declared, same⟩ := repairs event known path removed
          exact ⟨pkgDir, listed, other, named', declared.append _, same⟩
        · obtain rfl := List.mem_singleton.mp last
          obtain ⟨listed, declares⟩ := found p among
          refine ⟨p.pkg, listed, dep, notEmpty, (declares dep named).append _, ?_⟩
          exact (Option.some.inj removed).symm
    · dsimp only
      generalize (if svc.install.workspace = true then "." else pkgDir) = place
      refine meets_ite (fun _ => meets_pure fun w => id) fun _ => ?_
      exact meets_bind ((meets_quiet (emits_install_quiet svc g restoreLockfile _)).weaken (fun _ => id)
          (fun _ _ => id) fun _ w since => since.mono fun _ _ => And.left) fun _ => meets_pure fun w => id
  · exact meets_bind (meets_verify_found.weaken (fun _ => id) (fun _ w since => since.mono fun _ _ => And.left)
      fun _ _ => id) fun problems => meets_pure fun w => id

end

/-- A dependency of a verified package that a run removed. -/
def Removed (root : String) (pkgDirs : List String) (events : List (Event Machine)) (pkgDir dep : String) : Prop :=
  pkgDir ∈ pkgDirs ∧ dep ≠ "" ∧ Declared root pkgDir dep events ∧
    ∃ event ∈ events, removes event.call = some (depPath (joinPath root pkgDir) dep)

theorem repair_traced (env : Environment Machine) (svc : Service) (g : Checkout) (root : String)
    (restoreLockfile : Bool) (pkgDirs : List String) (w : World Machine Unit) :
    ∃ more, (Program.run (verifyAndRepair svc g root restoreLockfile pkgDirs) env w).2.trace = w.trace ++ more ∧
      Repairs root pkgDirs more := by
  have ends := @meets_repair env w.trace root pkgDirs svc g restoreLockfile w
    ⟨[], (List.append_nil _).symm, by simp [Repairs]⟩
  exact ends.always

/-- Every removal of a repair is of a dependency that a verified package declares; and nothing is
removed from outside a package's `node_modules`, as far as no link leads out of it, exactly
where the paths of the removed dependencies stay in it. -/
theorem repair_stays_inside (env : Environment Machine) (svc : Service) (g : Checkout) (root : String)
    (restoreLockfile : Bool) (pkgDirs : List String) (w : World Machine Unit) :
    ∃ more, (Program.run (verifyAndRepair svc g root restoreLockfile pkgDirs) env w).2.trace = w.trace ++ more ∧
      (∀ event ∈ more, ∀ path, removes event.call = some path →
        ∃ pkgDir dep, Removed root pkgDirs more pkgDir dep ∧ path = depPath (joinPath root pkgDir) dep) ∧
      ((∀ pkgDir dep, Removed root pkgDirs more pkgDir dep → RemovesInside (joinPath root pkgDir) dep) ↔
        ∀ pkgDir dep, Removed root pkgDirs more pkgDir dep → Stays (joinPath root pkgDir) dep) := by
  obtain ⟨more, trace, repairs⟩ := repair_traced env svc g root restoreLockfile pkgDirs w
  refine ⟨more, trace, fun event member path removed => ?_, ?_⟩
  · obtain ⟨pkgDir, listed, dep, named, declared, rfl⟩ := repairs event member path removed
    exact ⟨pkgDir, dep, ⟨listed, named, declared, event, member, removed⟩, rfl⟩
  · exact forall₂_congr fun pkgDir dep => imp_congr_right fun _ => removes_inside_iff_stays

/-! ### A name that leads out -/

/-- A package that depends on `../src`, which is not installed. -/
def strayHost : Environment Machine where
  answer _ call := match call with
    | .readFile "/srv/chat/package.json" _ => .ok (some "\x7b\"dependencies\":\x7b\"../src\":\"1.0.0\"\x7d\x7d")
    | other => steady other
  takes _ _ := 0

def chatService : Service where
  id := "chat"
  repo := "/srv/chat"
  owner := "chat"
  runAs := "chat"
  unit_service := Service.no_unit
  socket_socket := Service.no_socket
  auxiliary_apart := Service.no_auxiliary
  workers_service := Service.no_unit
  workers_apart := Service.no_worker
  auxiliary_no_worker := Service.no_auxiliary_worker
  sources_apart := Service.no_source
  sources_named := Service.no_source_named
  laid_out := Service.no_layout

theorem stray_removed : ((Program.run (verifyAndRepair chatService chatService.checkout "/srv/chat" true ["."])
    strayHost ⟨(), 0, []⟩).2.trace.any fun event => removes event.call = some "/srv/chat/src") = true := by
  decide +kernel

/-- The sources of the service are removed. -/
theorem source_removed : ¬ ∀ (env : Environment Machine) (svc : Service) (g : Checkout) (root : String)
    (restoreLockfile : Bool) (pkgDirs : List String) (w : World Machine Unit) (more : List (Event Machine)),
      (Program.run (verifyAndRepair svc g root restoreLockfile pkgDirs) env w).2.trace = w.trace ++ more →
        ∀ pkgDir dep, Removed root pkgDirs more pkgDir dep → RemovesInside (joinPath root pkgDir) dep := by
  intro claim
  obtain ⟨more, trace, repairs⟩ :=
    repair_traced strayHost chatService chatService.checkout "/srv/chat" true ["."] ⟨(), 0, []⟩
  have removed := stray_removed
  rw [trace, List.nil_append] at removed
  obtain ⟨event, member, stray⟩ := List.any_eq_true.mp removed
  have path : removes event.call = some "/srv/chat/src" := of_decide_eq_true stray
  obtain ⟨pkgDir, listed, dep, named, declared, same⟩ := repairs event member _ path
  obtain rfl : pkgDir = "." := List.mem_singleton.mp listed
  have stays := removes_inside_iff_stays.mp
    (claim strayHost chatService chatService.checkout "/srv/chat" true ["."] ⟨(), 0, []⟩ more trace "." dep
      ⟨listed, named, declared, event, member, path.trans (congrArg some same)⟩)
  rw [Stays, ← same] at stays
  exact absurd stays (by decide)

end Deps

end OpenVibeHost
