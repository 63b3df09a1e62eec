import OpenVibeHost.MergeObstacles
import OpenVibeHost.Utf8

/-! The untracked files that a plan takes out of the way of its merge: what they are compared by is text,
and other bytes may read as the same text. -/
namespace OpenVibeHost
open Effects Program Utf8

/-- What is at a path of the host. -/
inductive Stored
  | file (bytes : List UInt8)
  | other

/-- The files of the host, and those of the commits. -/
structure Contents where
  disk : String → Option Stored
  blob : String → String → Option (List UInt8)

/-- How the bytes of a file are read. -/
def textOf (bytes : List UInt8) : String := String.ofList (decode bytes)

/-- How the output of a command is read, each piece of it on its own. -/
def textOfPieces (pieces : List (List UInt8)) : String := String.ofList (pieces.flatMap decode)

/-- The host has these files, and its checkouts these commits. -/
structure Holds (env : Environment Machine) (contents : Contents) : Prop where
  stat : ∀ past path, env.answer past (.stat path) ≠ none → contents.disk path ≠ none
  absent : ∀ past path privileged, env.answer past (.readFile path privileged) = .ok none → contents.disk path = none
  read : ∀ past path privileged text, env.answer past (.readFile path privileged) = .ok (some text) →
    ∃ bytes, contents.disk path = some (.file bytes) ∧ text = textOf bytes
  show' : ∀ past dir safe owner sha file,
    RunResult.code (env.answer past (.git dir safe owner (.show sha file))) = 0 →
    ∃ pieces, contents.blob sha file = some pieces.flatten ∧
      RunResult.stdout (env.answer past (.git dir safe owner (.show sha file))) = textOfPieces pieces

/-- Text without a replacement character comes of one sequence of bytes only. -/
theorem bytes_of_text {bytes : List UInt8} {pieces : List (List UInt8)} (same : textOf bytes = textOfPieces pieces)
    (clean : replacement ∉ (textOf bytes).toList) : bytes = pieces.flatten := by
  have text : decode bytes = pieces.flatMap decode := String.ofList_injective same
  have clean' : replacement ∉ decode bytes := by simpa [textOf] using clean
  have whole (pieces : List (List UInt8)) (clean : replacement ∉ pieces.flatMap decode) :
      encode (pieces.flatMap decode) = pieces.flatten := by
    induction pieces with
    | nil => rfl
    | cons piece rest ih =>
      simp only [List.flatMap_cons, List.mem_append, not_or] at clean
      simp only [encode, List.flatMap_cons, List.flatMap_append, List.flatten_cons]
      rw [show List.flatMap String.utf8EncodeChar (decode piece) = piece from encode_decode clean.1]
      exact congrArg (piece ++ ·) (ih clean.2)
  rw [← encode_decode clean', text]
  exact whole pieces (text ▸ clean')

namespace ReleaseOps

/-- A lockfile, declared build output, a vhost of the declared glob, or what the commit puts there. -/
def Accounted (svc : Service) (contents : Contents) (toSha f : String) : Prop :=
  baseName f = svc.install.lockfile ∨ matchesPath f svc.generated = true ∨ isRepoVhost svc f = true ∨
    ∃ bytes, contents.disk (joinPath svc.repo f) = some (.file bytes) ∧ contents.blob toSha f = some bytes

/-- What the file is read as, if it is one. -/
def ReadsAs (contents : Contents) (path text : String) : Prop :=
  ∀ bytes, contents.disk path = some (.file bytes) → textOf bytes = text

section
variable {env : Environment Machine} {contents : Contents} {svc : Service} {toSha : String}
  {pre : World Machine Unit → Prop}

theorem meets_showFile (holds : Holds env contents) (g : Checkout) (sha file : String) :
    Meets env pre (Git.showFile g sha file)
      (fun shown _ => ∀ text, shown = some text →
        ∃ pieces, contents.blob sha file = some pieces.flatten ∧ text = textOfPieces pieces) (fun _ _ => True) := by
  intro w _
  intro text equal
  change (if RunResult.code (env.answer w.trace (.git g.dir g.safeDirectory g.owner (.show sha file))) = 0 then
    some (RunResult.stdout (env.answer w.trace (.git g.dir g.safeDirectory g.owner (.show sha file)))) else none) =
      some text at equal
  split at equal
  · rename_i succeeded
    obtain rfl := Option.some.inj equal
    exact holds.show' _ _ _ _ _ _ succeeded
  · exact nomatch equal

theorem meets_stat (holds : Holds env contents) (path : String) :
    Meets env pre (Exec.stat path) (fun there _ => there ≠ none → contents.disk path ≠ none) (fun _ _ => True) :=
  fun w _ => holds.stat w.trace path

theorem meets_readFile (holds : Holds env contents) (path : String) :
    Meets env pre (Exec.readFile path)
      (fun mine _ => (mine = none → contents.disk path = none) ∧ ∀ text, mine = some text →
        ∃ bytes, contents.disk path = some (.file bytes) ∧ text = textOf bytes) (fun _ _ => True) := by
  intro w _
  have ran := run_orReject (.readFile path false) (fun answer => answer) env w
  change Ends _ _ (Program.run (Exec.orReject (.readFile path false) fun answer => answer) env w)
  rw [ran]
  cases answered : (env.answer w.trace (.readFile path false) : Except String (Option String)) with
  | error message => trivial
  | ok mine =>
    refine ⟨fun absent => ?_, fun text present => ?_⟩
    · exact holds.absent w.trace path false (by rw [answered, absent])
    · exact holds.read w.trace path false text (by rw [answered, present])

/-- Every file listed that is read as this text is accounted for. -/
def AllAccounted (svc : Service) (contents : Contents) (text toSha : String) (files : List String) : Prop :=
  ∀ f ∈ files, ReadsAs contents (joinPath svc.repo f) text → Accounted svc contents toSha f

theorem AllAccounted.concat {text f : String} {files : List String} (all : AllAccounted svc contents text toSha files)
    (one : ReadsAs contents (joinPath svc.repo f) text → Accounted svc contents toSha f) :
    AllAccounted svc contents text toSha (files ++ [f]) := by
  intro other member
  obtain earlier | last := List.mem_append.mp member
  · exact all other earlier
  · obtain rfl := List.mem_singleton.mp last
    exact one

theorem meets_untrackedIncoming (holds : Holds env contents) {text : String} (clean : replacement ∉ text.toList)
    (g : Checkout) (added : List String) :
    Meets env pre (untrackedIncoming svc g toSha added)
      (fun found _ => AllAccounted svc contents text toSha found) (fun _ _ => True) := by
  unfold untrackedIncoming
  refine (meets_fold (I := fun found _ => AllAccounted svc contents text toSha found) fun found f _ => ?_).weaken
    (fun _ _ _ member => nomatch member) (fun _ _ => id) fun _ _ => id
  refine meets_given (fun _ => id) fun all => meets_bind (meets_stat holds _) fun there => ?_
  cases there with
  | none => exact meets_pure fun _ _ => all
  | some st =>
    refine meets_given (fun _ now => now (Option.some_ne_none st)) fun present => ?_
    dsimp only
    split
    · rename_i lockfile
      exact meets_pure fun _ _ => all.concat fun _ => .inl lockfile.2.1
    · refine meets_bind (meets_readFile holds _) fun mine => meets_given (fun _ => id) fun ⟨absent, reads⟩ => ?_
      refine meets_bind (meets_showFile holds _ _ _) fun theirs => meets_pure fun w shows => ?_
      split
      · rename_i same
        refine all.concat fun readsAs => ?_
        cases mine with
        | none => exact absurd (absent rfl) present
        | some mine =>
          obtain ⟨bytes, stored, rfl⟩ := reads mine rfl
          obtain ⟨pieces, blob, same⟩ := shows (textOf bytes) same.symm
          obtain rfl := readsAs bytes stored
          exact .inr (.inr (.inr ⟨bytes, stored, by rw [blob, bytes_of_text same clean]⟩))
      · exact all

/-- Nothing is listed but declared build output and vhosts of the declared glob. -/
theorem meets_untrackedOutput (contents : Contents) (g : Checkout) (text fromSha : String) (changed removed : List String) :
    Meets env pre (untrackedOutput svc g fromSha toSha changed removed)
      (fun found _ => AllAccounted svc contents text toSha found) (fun _ _ => True) := by
  unfold untrackedOutput
  refine meets_ite (fun _ => meets_pure fun _ _ _ member => nomatch member) fun _ => ?_
  refine (meets_fold (I := fun found _ => AllAccounted svc contents text toSha found) fun found f _ => ?_).weaken
    (fun _ _ _ member => nomatch member) (fun _ _ => id) fun _ _ => id
  refine meets_given (fun _ => id) fun all => ?_
  refine meets_ite (fun _ => meets_pure fun _ _ => all) fun _ => ?_
  refine meets_ite (fun _ => meets_pure fun _ _ => all) fun named => ?_
  have accounted : Accounted svc contents toSha f := by
    by_cases output : matchesPath f svc.generated = true
    · exact .inr (.inl output)
    · by_cases vhost : isRepoVhost svc f = true
      · exact .inr (.inr (.inl vhost))
      · exact absurd (.inl ⟨eq_false_of_ne_true output, eq_false_of_ne_true vhost⟩) named
  refine meets_bind (meets_anyhow _) fun before => ?_
  cases before with
  | some _ => exact meets_pure fun _ _ => all
  | none =>
    refine meets_bind (meets_anyhow _) fun after => ?_
    cases after with
    | none => exact meets_pure fun _ _ => all
    | some _ =>
      refine meets_bind (meets_anyhow _) fun there => ?_
      cases there with
      | none => exact meets_pure fun _ _ => all
      | some _ => exact meets_pure fun _ _ => all.concat fun _ => accounted

theorem meets_computePlan (holds : Holds env contents) {text : String} (clean : replacement ∉ text.toList)
    (mode : Mode) (opts : Options) :
    Meets env (fun _ => True) (computePlan svc mode opts)
      (fun plan _ => AllAccounted svc contents text plan.toSha (plan.untrackedLockfiles ++ plan.untrackedGenerated))
      (fun _ _ => True) := by
  unfold computePlan
  dsimp only
  refine meets_ite (fun _ => meets_throw fun _ _ => trivial) fun _ => ?_
  refine meets_bind (meets_anyhow _) fun fromSha => meets_bind (meets_anyhow _) fun branch => ?_
  refine meets_bind (meets_anyhow _) fun dirtyAll => meets_bind (meets_anyhow _) fun toSha => ?_
  refine meets_bind (meets_anyhow _) fun changed => meets_bind (meets_anyhow _) fun commits => ?_
  refine meets_bind (meets_anyhow _) fun skipped => meets_bind (meets_anyhow _) fun untracked => ?_
  refine meets_bind (meets_anyhow _) fun pkgDirs => meets_bind (meets_anyhow _) fun added => ?_
  refine meets_bind (meets_untrackedIncoming holds clean _ _) fun lockfiles => meets_given (fun _ => id) fun incoming => ?_
  refine meets_bind (meets_untrackedOutput contents _ text _ _ _) fun output => meets_given (fun _ => id) fun generated => ?_
  refine meets_bind (meets_anyhow _) fun installs => meets_bind (meets_anyhow _) fun extra => ?_
  refine meets_bind (meets_anyhow _) fun drift => meets_bind (meets_anyhow _) fun sessions => ?_
  refine meets_bind (meets_anyhow _) fun removed => meets_pure fun _ _ f member => ?_
  exact (List.mem_append.mp member).elim (incoming f) (generated f)

end

/-! ### Other bytes, the same text -/

/-- A checkout of `docs` with an untracked file that is read as `text`, on a host where the release brings
a file that is printed as `text` too. -/
def bringing (text : String) (call : Call) : call.Answer :=
  match call with
  | .git _ _ _ .head => { stdout := "aaaaaaaaaaaaaaaaaaaaaaaaaaaaaaaaaaaaaaaa" }
  | .git _ _ _ (.revParse _) => { stdout := "bbbbbbbbbbbbbbbbbbbbbbbbbbbbbbbbbbbbbbbb" }
  | .git _ _ _ (.addedFiles ..) => { stdout := "notes.txt" }
  | .git _ _ _ (.show sha file) =>
    if sha = "bbbbbbbbbbbbbbbbbbbbbbbbbbbbbbbbbbbbbbbb" ∧ file = "notes.txt" then { stdout := text } else { code := 128 }
  | .stat path => if path = "/srv/docs/notes.txt" then some {} else none
  | .readFile path _ => .ok (if path = "/srv/docs/notes.txt" then some text else none)
  | other => steady other

/-- The plan schedules the file. -/
theorem bringing_scheduled (text : String) :
    ∃ plan w', Program.run (computePlan docs .deploy {}) (hostOf (bringing text)) ⟨(), 0, []⟩ = (.ok plan, w') ∧
      plan.toSha = "bbbbbbbbbbbbbbbbbbbbbbbbbbbbbbbbbbbbbbbb" ∧ "notes.txt" ∈ plan.untrackedLockfiles := by
  let head := "aaaaaaaaaaaaaaaaaaaaaaaaaaaaaaaaaaaaaaaa"
  let target := "bbbbbbbbbbbbbbbbbbbbbbbbbbbbbbbbbbbbbbbb"
  let g := docs.checkout
  let runs {α : Type} (p : Exec α) (a : α) : Prop :=
    ∀ w, ∃ w', Program.run p (hostOf (bringing text)) w = (.ok a, w')
  have trimmed : trimText head = head := by decide +kernel
  have trimmed' : trimText target = target := by decide +kernel
  have none' : linesOf "" = [] := by decide +kernel
  have one : linesOf "notes.txt" = ["notes.txt"] := by decide +kernel
  have finds : runs (Git.getHead g) head := fun w => ⟨_, congrArg (fun t => (Except.ok t, _)) trimmed⟩
  have branch : runs (Git.getBranch g) (trimText "") := fun w => ⟨_, rfl⟩
  have dirty : runs (Git.dirtyFiles g) [] :=
    fun w => ⟨_, congrArg (fun t => (Except.ok (t.map fun line => String.ofList (line.toList.drop 3)), _)) none'⟩
  have targets : runs (planTarget docs g .deploy {}) target := fun w => ⟨_, congrArg (fun t => (Except.ok t, _)) trimmed'⟩
  have changed : runs (Git.changedBetween g head target) [] := fun w => ⟨_, congrArg (fun t => (Except.ok t, _)) none'⟩
  have commits : runs (planCommits g .deploy head target) [] := fun w => ⟨_, congrArg (fun t => (Except.ok t, _)) none'⟩
  have skipped : runs (Git.skipWorktreeFiles g) [] := fun w => ⟨_, congrArg (fun t => (Except.ok ((t.filter (beginsWith · "S ")).map
    fun line => String.ofList (line.toList.drop 2)), _)) none'⟩
  have stopped : runs (stoppedTracking g head target []) [] := fun w => ⟨_, rfl⟩
  have dirs : runs (packageDirs docs []) [] := fun w => ⟨_, rfl⟩
  have added : runs (Git.addedBetween g head target) ["notes.txt"] := fun w => ⟨_, congrArg (fun t => (Except.ok t, _)) one⟩
  have incoming : runs (untrackedIncoming docs g target ["notes.txt"]) ["notes.txt"] := by
    intro w
    obtain ⟨w1, there⟩ : ∃ w1, Program.run (Exec.stat "/srv/docs/notes.txt") (hostOf (bringing text)) w =
        (.ok (some {}), w1) := ⟨_, rfl⟩
    obtain ⟨w2, mine⟩ : ∃ w2, Program.run (Exec.readFile "/srv/docs/notes.txt") (hostOf (bringing text)) w1 =
        (.ok (some text), w2) := ⟨_, rfl⟩
    obtain ⟨w3, theirs⟩ : ∃ w3, Program.run (Git.showFile g target "notes.txt") (hostOf (bringing text)) w2 =
        (.ok (some text), w3) := ⟨_, rfl⟩
    refine ⟨w3, run_bind_ok.mpr ⟨["notes.txt"], w3, run_bind_ok.mpr ⟨_, _, there, ?_⟩, rfl⟩⟩
    dsimp only
    rw [if_neg (by decide)]
    refine run_bind_ok.mpr ⟨_, _, mine, run_bind_ok.mpr ⟨_, _, theirs, ?_⟩⟩
    rw [if_pos rfl]
    rfl
  have output : runs (untrackedOutput docs g head target [] ["notes.txt"]) [] := fun w => ⟨_, rfl⟩
  have installs : ∃ steps, runs (planInstalls docs g head target []) steps := ⟨_, fun w => ⟨_, rfl⟩⟩
  have extra : runs (findExtraUnits docs) [] := fun w => ⟨_, rfl⟩
  have drift : runs (findDrift docs g target) [] := fun w => ⟨_, rfl⟩
  have sessions : runs (planSessions docs false) none := fun w => ⟨_, rfl⟩
  have removed : runs (removedVhosts docs g target []) [] := fun w => ⟨_, rfl⟩
  obtain ⟨steps, installs⟩ := installs
  obtain ⟨w1, ran1⟩ := finds ⟨(), 0, []⟩
  obtain ⟨w2, ran2⟩ := branch w1
  obtain ⟨w3, ran3⟩ := dirty w2
  obtain ⟨w4, ran4⟩ := targets w3
  obtain ⟨w5, ran5⟩ := changed w4
  obtain ⟨w6, ran6⟩ := commits w5
  obtain ⟨w7, ran7⟩ := skipped w6
  obtain ⟨w8, ran8⟩ := stopped w7
  obtain ⟨w9, ran9⟩ := dirs w8
  obtain ⟨w10, ran10⟩ := added w9
  obtain ⟨w11, ran11⟩ := incoming w10
  obtain ⟨w12, ran12⟩ := output w11
  obtain ⟨w13, ran13⟩ := installs w12
  obtain ⟨w14, ran14⟩ := extra w13
  obtain ⟨w15, ran15⟩ := drift w14
  obtain ⟨w16, ran16⟩ := sessions w15
  obtain ⟨w17, ran17⟩ := removed w16
  unfold computePlan
  dsimp only
  rw [if_neg (by decide)]
  refine ⟨_, w17, run_bind_ok.mpr ⟨_, _, ran1, run_bind_ok.mpr ⟨_, _, ran2, run_bind_ok.mpr ⟨_, _, ran3,
    run_bind_ok.mpr ⟨_, _, ran4, run_bind_ok.mpr ⟨_, _, ran5, run_bind_ok.mpr ⟨_, _, ran6,
    run_bind_ok.mpr ⟨_, _, ran7, run_bind_ok.mpr ⟨_, _, ran8, run_bind_ok.mpr ⟨_, _, ran9,
    run_bind_ok.mpr ⟨_, _, ran10, run_bind_ok.mpr ⟨_, _, ran11, run_bind_ok.mpr ⟨_, _, ran12,
    run_bind_ok.mpr ⟨_, _, ran13, run_bind_ok.mpr ⟨_, _, ran14, run_bind_ok.mpr ⟨_, _, ran15,
    run_bind_ok.mpr ⟨_, _, ran16, run_bind_ok.mpr ⟨_, _, ran17, rfl⟩⟩⟩⟩⟩⟩⟩⟩⟩⟩⟩⟩⟩⟩⟩⟩⟩, rfl, ?_⟩
  exact List.mem_singleton_self _

/-- What the checkout holds, and what the commit does, which has a stray byte in place of the replacement
character after `before`. -/
def strayed (text : String) (before after : List Char) : Contents where
  disk path := if path = "/srv/docs/notes.txt" then some (.file (encode text.toList)) else none
  blob sha file :=
    if sha = "bbbbbbbbbbbbbbbbbbbbbbbbbbbbbbbbbbbbbbbb" ∧ file = "notes.txt" then
      some (encode before ++ 0xFF :: encode after)
    else none

theorem strayed_holds {text : String} {before after : List Char} (parts : text.toList = before ++ replacement :: after) :
    Holds (hostOf (bringing text)) (strayed text before after) where
  stat past path there := by
    by_cases same : path = "/srv/docs/notes.txt"
    · subst same
      exact Option.some_ne_none _
    · exact absurd (if_neg same) there
  absent past path privileged missing := by
    by_cases same : path = "/srv/docs/notes.txt"
    · subst same
      exact nomatch missing
    · exact if_neg same
  read past path privileged mine present := by
    by_cases same : path = "/srv/docs/notes.txt"
    · subst same
      refine ⟨_, rfl, ?_⟩
      obtain rfl : text = mine := Option.some.inj (Except.ok.inj present)
      rw [textOf, decode_encode, String.ofList_toList]
    · exact nomatch (if_neg same).symm.trans (Except.ok.inj present)
  show' past dir safe owner sha file succeeded := by
    by_cases same : sha = "bbbbbbbbbbbbbbbbbbbbbbbbbbbbbbbbbbbbbbbb" ∧ file = "notes.txt"
    · obtain ⟨rfl, rfl⟩ := same
      refine ⟨[encode before ++ 0xFF :: encode after], ?_, ?_⟩
      · simp [strayed]
      · change text = String.ofList _
        rw [List.flatMap_singleton, decode_encode_append, decode_stray, decode_encode, ← parts, String.ofList_toList]
    · have code : RunResult.code (bringing text (.git dir safe owner (.show sha file))) = 128 :=
        congrArg RunResult.code (if_neg same)
      exact absurd (code.symm.trans succeeded) (by decide)

theorem strayed_unaccounted {text : String} {before after : List Char}
    (parts : text.toList = before ++ replacement :: after) :
    ¬ Accounted docs (strayed text before after) "bbbbbbbbbbbbbbbbbbbbbbbbbbbbbbbbbbbbbbbb" "notes.txt" := by
  rintro (lockfile | output | vhost | ⟨bytes, stored, blob⟩)
  · exact absurd lockfile (by decide)
  · exact absurd output (by decide)
  · exact absurd vhost (by decide)
  · rw [show joinPath docs.repo "notes.txt" = "/srv/docs/notes.txt" by decide] at stored
    obtain rfl : encode text.toList = bytes := Stored.file.inj (Option.some.inj stored)
    have same : encode before ++ 0xFF :: encode after = encode text.toList := Option.some.inj blob
    have own : encode text.toList = encode before ++ ([0xEF, 0xBF, 0xBD] ++ encode after) := by
      rw [parts, show [0xEF, 0xBF, 0xBD] = String.utf8EncodeChar replacement by decide]
      simp [encode]
    exact absurd (List.cons.inj (List.append_cancel_left (same.trans own))).1 (by decide)

/-- Nothing but lockfiles, declared build output, declared vhosts and files that the commit brings as they
are is scheduled among the files that are read as a text, exactly where the text has no replacement
character. -/
theorem scheduled_accounted_iff (text : String) :
    (∀ svc env contents mode opts plan (w w' : World Machine Unit), Holds env contents →
      Program.run (computePlan svc mode opts) env w = (.ok plan, w') →
      ∀ f ∈ plan.untrackedLockfiles ++ plan.untrackedGenerated, ReadsAs contents (joinPath svc.repo f) text →
        Accounted svc contents plan.toSha f) ↔ replacement ∉ text.toList := by
  constructor
  · intro claim member
    obtain ⟨before, after, parts⟩ := List.append_of_mem member
    obtain ⟨plan, w', ran, toSha, scheduled⟩ := bringing_scheduled text
    have reads : ReadsAs (strayed text before after) (joinPath docs.repo "notes.txt") text := by
      intro bytes stored
      rw [show joinPath docs.repo "notes.txt" = "/srv/docs/notes.txt" by decide] at stored
      obtain rfl : encode text.toList = bytes := Stored.file.inj (Option.some.inj stored)
      rw [textOf, decode_encode, String.ofList_toList]
    have accounted := claim docs _ _ .deploy {} plan _ w' (strayed_holds parts) ran "notes.txt"
      (List.mem_append_left _ scheduled) reads
    rw [toSha] at accounted
    exact strayed_unaccounted parts accounted
  · intro clean svc env contents mode opts plan w w' holds ran
    have planned := @meets_computePlan env contents svc holds text clean mode opts w trivial
    rw [ran] at planned
    exact planned

/-- A file with a replacement character where the commit has a stray byte is scheduled. -/
theorem stray_byte_scheduled : ¬ ∀ svc env contents mode opts plan (w w' : World Machine Unit), Holds env contents →
    Program.run (computePlan svc mode opts) env w = (.ok plan, w') →
    ∀ f ∈ plan.untrackedLockfiles ++ plan.untrackedGenerated, Accounted svc contents plan.toSha f := by
  intro claim
  have parts : "\uFFFD".toList = [] ++ replacement :: [] := by decide
  obtain ⟨plan, w', ran, toSha, scheduled⟩ := bringing_scheduled "\uFFFD"
  have accounted := claim docs _ _ .deploy {} plan _ w' (strayed_holds parts) ran "notes.txt"
    (List.mem_append_left _ scheduled)
  rw [toSha] at accounted
  exact strayed_unaccounted parts accounted

end ReleaseOps

end OpenVibeHost
