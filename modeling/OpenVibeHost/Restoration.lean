import OpenVibeHost.ReadinessFacts

/-! What `restoreCheckout` and `restartAndWait` have done when they end well: the checkout is
reset, what was installed is installed again and every declared dependency resolves; the
units are restarted, and the service answers that it is ready. -/
namespace OpenVibeHost.ReleaseOps
open Effects Program Releases Readiness

/-! ### Dependencies that resolve -/

/-- The `package.json` of an installed dependency was read, and names it. -/
def DepResolved (root pkgDir dep : String) (events : List (Event Machine)) : Prop :=
  ∃ text json t, (⟨.readFile (pathJoin (joinPath root pkgDir) ("node_modules/" ++ dep ++ "/package.json"))
    false, .ok (some text), t⟩ : Event Machine) ∈ events ∧ Json.parse text = some json ∧
      json.field "name" = some (.str dep)

/-- Every dependency that a package declares was found so. -/
def PackageResolved (root pkgDir : String) (events : List (Event Machine)) : Prop :=
  ∃ text pkg t, (⟨.readFile (joinPath (joinPath root pkgDir) "package.json") false, .ok text, t⟩ :
    Event Machine) ∈ events ∧ Json.parseFile text = some pkg ∧
      ∀ dep ∈ (pkg.fieldOrEmpty "dependencies").keys, DepResolved root pkgDir dep events

section
variable {env : Environment Machine} {base : List (Event Machine)} {root pkgDir dep : String}
  {events : List (Event Machine)}

theorem DepResolved.append (resolved : DepResolved root pkgDir dep events) (more : List (Event Machine)) :
    DepResolved root pkgDir dep (events ++ more) := by
  obtain ⟨text, json, t, member, known⟩ := resolved
  exact ⟨text, json, t, List.mem_append_left _ member, known⟩

theorem PackageResolved.append (resolved : PackageResolved root pkgDir events)
    (more : List (Event Machine)) : PackageResolved root pkgDir (events ++ more) := by
  obtain ⟨text, pkg, t, member, known, all⟩ := resolved
  exact ⟨text, pkg, t, List.mem_append_left _ member, known, fun dep listed => (all dep listed).append more⟩

/-- What `verify` has found in the midst of a package, which it has read. -/
def Checking (root pkgDir : String) (text : Option String) (t : Nat) (done checked : List String)
    (problems : List Deps.Problem) (events : List (Event Machine)) : Prop :=
  problems = [] → (∀ other ∈ done, PackageResolved root other events) ∧
    (⟨.readFile (joinPath (joinPath root pkgDir) "package.json") false, .ok text, t⟩ : Event Machine) ∈
      events ∧ ∀ dep ∈ checked, DepResolved root pkgDir dep events

theorem Checking.append {text : Option String} {t : Nat} {done checked : List String}
    {problems : List Deps.Problem} (checking : Checking root pkgDir text t done checked problems events)
    (more : List (Event Machine)) : Checking root pkgDir text t done checked problems (events ++ more) := by
  intro none
  obtain ⟨packages, read, deps⟩ := checking none
  exact ⟨fun other member => (packages other member).append more, List.mem_append_left _ read,
    fun dep member => (deps dep member).append more⟩

theorem meets_verifyOne :
    Meets env (Since base fun _ _ => True) (Deps.verifyOne root pkgDir dep)
      (fun problem => Since base fun more _ => problem = none → DepResolved root pkgDir dep more)
      (fun _ => Since base fun _ _ => True) := by
  unfold Deps.verifyOne
  refine meets_reject_then (fun found answer t read => ?_) fun _ _ _ w _ => Since.onward
  obtain rfl : answer = .ok found := read
  split
  · exact meets_pure fun w since => since.mono fun _ _ _ none => nomatch none
  · rename_i text
    split
    · exact meets_pure fun w since => since.mono fun _ _ _ none => nomatch none
    · exact meets_throw fun w => Since.onward
    · rename_i json _ parsed
      split
      · rename_i name named
        split
        · rename_i same
          subst same
          refine meets_pure fun w since => since.mono ?_
          rintro _ _ ⟨before, rfl, -⟩ -
          exact ⟨text, json, t, by simp, parsed, named⟩
        · exact meets_pure fun w since => since.mono fun _ _ _ none => nomatch none
      · exact meets_pure fun w since => since.mono fun _ _ _ none => nomatch none

/-- Where `verify` finds no problem, every declared dependency resolves. -/
theorem meets_verify (pkgDirs : List String) :
    Meets env (Since base fun _ _ => True) (Deps.verify root pkgDirs)
      (fun problems => Since base fun more _ => problems = [] →
        ∀ pkgDir ∈ pkgDirs, PackageResolved root pkgDir more)
      (fun _ => Since base fun _ _ => True) := by
  unfold Deps.verify
  refine (meets_fold_upto (I := fun done problems => Since base fun more _ => problems = [] →
    ∀ pkgDir ∈ done, PackageResolved root pkgDir more) fun done pkgDir problems _ => ?_).weaken
      (fun w since => since.mono fun _ _ _ _ _ member => nomatch member) (fun _ _ => id) fun _ _ => id
  refine meets_reject_then (fun text answer t read => ?_) fun _ _ _ w _ => Since.onward
  obtain rfl : answer = .ok text := read
  split
  · refine meets_pure fun w since => since.mono fun _ _ _ none => ?_
    simp at none
  · exact meets_throw fun w => Since.onward
  · rename_i pkg _ parsed
    refine (meets_fold_upto (I := fun checked problems => Since base fun more _ =>
      Checking root pkgDir text t done checked problems more) fun checked dep problems _ => ?_).weaken
        (fun w since => since.mono ?_) (fun problems w since => since.mono ?_) fun _ _ => id
    · have one := (@meets_verifyOne env base root pkgDir dep).with_kept
        (K := Checking root pkgDir text t done checked problems) fun more later kept => kept.append later
      refine meets_bind (one.weaken (fun _ => id) (fun _ _ => id) fun _ _ => Since.onward) fun problem => ?_
      refine meets_pure fun w since => since.mono fun more _ ⟨kept, found⟩ none => ?_
      obtain ⟨earlier, last⟩ := List.append_eq_nil_iff.mp none
      obtain ⟨packages, read, deps⟩ := kept earlier
      refine ⟨packages, read, fun d member => ?_⟩
      obtain known | rfl := by simpa using member
      · exact deps d known
      · exact found (by simpa using last)
    · rintro _ _ ⟨before, rfl, kept⟩ none
      exact ⟨fun p member => (kept none p member).append _, by simp, fun _ member => nomatch member⟩
    · intro more _ kept none p member
      obtain ⟨packages, read, deps⟩ := kept none
      obtain known | rfl := by simpa using member
      · exact packages p known
      · exact ⟨text, pkg, t, read, parsed, deps⟩

theorem meets_verifyAndRepair (svc : Service) (g : Checkout) (restoreLockfile : Bool)
    (pkgDirs : List String) :
    Meets env (Since base fun _ _ => True) (Deps.verifyAndRepair svc g root restoreLockfile pkgDirs)
      (fun v => Since base fun more _ => v.problems = [] →
        ∀ pkgDir ∈ pkgDirs, PackageResolved root pkgDir more)
      (fun _ => Since base fun _ _ => True) := by
  unfold Deps.verifyAndRepair
  refine meets_bind (meets_verify pkgDirs) fun problems => ?_
  split
  · rename_i none
    exact meets_pure fun w since => since.mono fun _ _ all _ => all none
  · refine meets_bind (M := fun _ => Since base fun _ _ => True) ((meets_onward _).weaken (fun _ => id)
      (fun _ _ => id) fun _ _ => id) fun repaired => meets_bind (meets_verify pkgDirs) fun problems => ?_
    exact meets_pure fun w => id

/-- Every dependency of the packages that the inventory names was found to resolve. -/
def DepsResolve (env : Environment Machine) (svc : Service) (events : List (Event Machine)) : Prop :=
  ∃ pkgDirs, RanIn env (Deps.expandPackages svc svc.repo) pkgDirs events ∧
    ∀ pkgDir ∈ pkgDirs, PackageResolved svc.repo pkgDir events

theorem DepsResolve.append {svc : Service} (resolve : DepsResolve env svc events)
    (more : List (Event Machine)) : DepsResolve env svc (events ++ more) := by
  obtain ⟨pkgDirs, ran, all⟩ := resolve
  exact ⟨pkgDirs, ran.append more, fun pkgDir member => (all pkgDir member).append more⟩

theorem meets_verifyDeps {svc : Service} :
    Meets env (Since base fun _ _ => True) (verifyDeps svc)
      (fun v => Since base fun more _ => v.problems = [] → DepsResolve env svc more)
      (fun _ => Since base fun _ _ => True) := by
  unfold verifyDeps
  refine meets_bind (meets_ranIn _) fun pkgDirs => ?_
  have verified := (@meets_verifyAndRepair env base svc.repo svc svc.checkout
    svc.install.restoreLockfile pkgDirs).with_kept
    (K := RanIn env (Deps.expandPackages svc svc.repo) pkgDirs) fun more later ran => ran.append later
  refine meets_bind (verified.weaken (fun _ => id) (fun _ _ => id) fun _ _ => Since.onward) fun v => ?_
  exact meets_pure fun w since => since.mono fun _ _ ⟨ran, all⟩ none => ⟨pkgDirs, ran, all none⟩

end

/-! ### Where the checkout is -/

/-- Where a call moves the checkout of the service, if it succeeds. -/
def movedBy (svc : Service) (event : Event Machine) : Option String :=
  match event with
  | ⟨.git dir _ _ (.ffMerge sha), r, _⟩ | ⟨.git dir _ _ (.resetHard sha), r, _⟩ =>
    if dir = svc.repo ∧ r.code = 0 then some sha else none
  | _ => none

/-- Where the checkout was moved to last. -/
def movedTo (svc : Service) (events : List (Event Machine)) : Option String :=
  events.foldl (fun place event => (movedBy svc event).or place) none

/-- Every call but a merge or a reset. -/
def noMove (call : Machine.Call) : Bool := decide (Call.kind call ≠ .move)

section
variable {svc : Service} {events more : List (Event Machine)} {event : Event Machine}

theorem allows_noMove {kind : Kind} (other : kind ≠ .move) : Allows noMove kind := by
  rintro call rfl
  exact decide_eq_true other

theorem quiet_noMove {call : Machine.Call} (quiet : quietCalls call = true) : noMove call = true := by
  refine decide_eq_true fun move => ?_
  unfold quietCalls at quiet
  rw [move] at quiet
  exact nomatch quiet

theorem movedTo_snoc (svc : Service) (events : List (Event Machine)) (event : Event Machine) :
    movedTo svc (events ++ [event]) = (movedBy svc event).or (movedTo svc events) := by
  simp [movedTo, List.foldl_append]

theorem movedBy_none (stays : noMove event.call = true) : movedBy svc event = none := by
  unfold movedBy
  split
  · exact absurd rfl (of_decide_eq_true stays)
  · exact absurd rfl (of_decide_eq_true stays)
  · rfl

theorem movedTo_append (stay : ∀ event ∈ more, noMove event.call = true) :
    movedTo svc (events ++ more) = movedTo svc events := by
  induction more using List.reverseRecOn with
  | nil => rw [List.append_nil]
  | append_singleton more event ih =>
    rw [← List.append_assoc, movedTo_snoc, movedBy_none (stay event (by simp)), Option.none_or]
    exact ih fun earlier member => stay earlier (List.mem_append_left _ member)

end

/-! ### Putting a release back -/

/-- The packages of a checkout were installed, with success. -/
def InstalledIn (svc : Service) (root pkg : String) (events : List (Event Machine)) : Prop :=
  ∃ r t, (⟨.run svc.install.command svc.install.arguments
    { asUser := some svc.owner, cwd := some (joinPath root pkg) }, r, t⟩ : Event Machine) ∈ events ∧
      RunResult.code r = 0

theorem InstalledIn.append {svc : Service} {root pkg : String} {events : List (Event Machine)}
    (installed : InstalledIn svc root pkg events) (more : List (Event Machine)) :
    InstalledIn svc root pkg (events ++ more) := by
  obtain ⟨r, t, member, ok⟩ := installed
  exact ⟨r, t, List.mem_append_left _ member, ok⟩

/-- What follows the reset in `restoreCheckout`. -/
def reinstall (svc : Service) (sha : String) : Ops Unit := do
  let g := svc.checkout
  let record := (← own).record
  forEach record.installed fun pkg =>
    liftM (Deps.install svc g svc.repo svc.install.restoreLockfile pkg)
  let v ← verifyDeps svc
  if v.problems ≠ [] then
    throw (.plain ("after restoring " ++ sha12 sha ++ " these dependencies still do not resolve"))
  else if record.built then liftM (runBuild svc)
  else pure ()

theorem restoreCheckout_eq (svc : Service) (sha : String) :
    restoreCheckout svc sha =
      liftM (Git.mustRun svc.checkout (.resetHard sha)) >>= fun _ => reinstall svc sha := rfl

/-- The packages in `installed` were installed again, and the dependencies found to resolve. -/
def Reinstalled (env : Environment Machine) (svc : Service) (installed : List String)
    (events : List (Event Machine)) : Prop :=
  (∀ pkg ∈ installed, InstalledIn svc svc.repo pkg events) ∧ DepsResolve env svc events

theorem Reinstalled.append {env : Environment Machine} {svc : Service} {installed : List String}
    {events : List (Event Machine)} (again : Reinstalled env svc installed events)
    (more : List (Event Machine)) : Reinstalled env svc installed (events ++ more) :=
  ⟨fun pkg member => (again.1 pkg member).append more, again.2.append more⟩

/-- The checkout was reset to a commit, and what was installed put back. -/
def Restored (env : Environment Machine) (svc : Service) (sha : String) (installed : List String)
    (events : List (Event Machine)) : Prop :=
  ∃ r t rest, events = ⟨.git svc.repo false svc.owner (.resetHard sha), r, t⟩ :: rest ∧
    RunResult.code r = 0 ∧ (∀ event ∈ rest, noMove event.call = true) ∧
      Reinstalled env svc installed rest

section
variable {env : Environment Machine} {base : List (Event Machine)} {svc : Service}

theorem meets_install (g : Checkout) (root pkg : String) (restoreLockfile : Bool) :
    Meets env (Since base fun _ _ => True) (Deps.install svc g root restoreLockfile pkg)
      (fun _ => Since base fun more _ => InstalledIn svc root pkg more)
      (fun _ => Since base fun _ _ => True) := by
  unfold Deps.install
  refine meets_bind (meets_onward _) fun _ => meets_since_ask_then fun r t => ?_
  by_cases failed : RunResult.code r ≠ 0
  · rw [if_pos failed]
    exact meets_throw fun w => Since.onward
  · rw [if_neg failed]
    have begun : ∀ w : World Machine Unit, Since base (fun more _ => ∃ before, more = before ++
        [⟨.run svc.install.command svc.install.arguments
          { asUser := some svc.owner, cwd := some (joinPath root pkg) }, r, t⟩] ∧ True) w →
        Since base (fun more _ => InstalledIn svc root pkg more) w := by
      refine fun w since => since.mono ?_
      rintro _ _ ⟨before, rfl, -⟩
      exact ⟨r, t, by simp, not_not.mp failed⟩
    refine Meets.weaken ((meets_onward _).with_kept (K := InstalledIn svc root pkg)
      fun more later installed => installed.append later) begun (fun _ w since => ?_) fun _ _ => Since.onward
    exact since.mono fun _ _ now => now.1

/-- What was installed is installed again, and everything resolves. -/
theorem meets_reinstall (sha : String) (s : Deploy) :
    Meets env (Since base fun more s' => more = [] ∧ s' = s) (reinstall svc sha)
      (fun _ => Since base fun more _ => Reinstalled env svc s.record.installed more)
      (fun _ => Since base fun _ _ => True) := by
  unfold reinstall
  dsimp only
  refine meets_bind (M := fun s' => Since base fun _ _ => s' = s) (meets_since_own fun _ _ now => now.2)
    fun s' => meets_given (fun w ⟨_, _, same⟩ => same) fun same => ?_
  subst same
  have installs : Meets env (Since base fun _ _ => s' = s')
      (forEach s'.record.installed fun pkg =>
        liftM (Deps.install svc svc.checkout svc.repo svc.install.restoreLockfile pkg) : Ops Unit)
      (fun _ => Since base fun more _ => ∀ pkg ∈ s'.record.installed, InstalledIn svc svc.repo pkg more)
      (fun _ => Since base fun _ _ => True) := by
    refine (meets_forEach_upto (I := fun done => Since base fun more _ =>
      ∀ pkg ∈ done, InstalledIn svc svc.repo pkg more) fun done pkg _ => ?_).weaken
        (fun w since => since.mono fun _ _ _ _ member => nomatch member) (fun _ _ => id) fun _ _ => id
    refine meets_since_liftM fun _ => ((meets_install _ _ pkg _).with_kept (K := fun more =>
      ∀ pkg ∈ done, InstalledIn svc svc.repo pkg more) fun more later kept other member =>
        (kept other member).append later).weaken (fun _ => id) (fun _ w since => since.mono ?_)
          fun _ _ => Since.onward
    intro more _ ⟨kept, last⟩ other member
    obtain known | rfl := by simpa using member
    · exact kept other known
    · exact last
  refine meets_bind installs fun _ => ?_
  have verified : Meets env (Since base fun _ _ => True) (liftM (verifyDeps svc) : Ops VerifiedDeps)
      (fun v => Since base fun more _ => v.problems = [] → DepsResolve env svc more)
      (fun _ => Since base fun _ _ => True) := meets_since_liftM fun _ => meets_verifyDeps
  refine meets_bind ((verified.with_kept (K := fun more => ∀ pkg ∈ s'.record.installed,
    InstalledIn svc svc.repo pkg more) fun more later kept other member =>
      (kept other member).append later).weaken (fun _ => id) (fun _ _ => id) fun _ _ => Since.onward)
        fun v => ?_
  split
  · exact meets_throw fun w => Since.onward
  · rename_i none
    have last (p : Ops Unit) : Meets env (Since base fun more _ =>
        (∀ pkg ∈ s'.record.installed, InstalledIn svc svc.repo pkg more) ∧
          (v.problems = [] → DepsResolve env svc more)) p
        (fun _ => Since base fun more _ => Reinstalled env svc s'.record.installed more)
        (fun _ => Since base fun _ _ => True) := by
      refine ((meets_onward p).with_kept (K := Reinstalled env svc s'.record.installed)
        fun more later again => again.append later).weaken (fun w since => since.mono ?_)
          (fun _ w since => since.mono fun _ _ now => now.1) fun _ _ => Since.onward
      exact fun _ _ now => ⟨now.1, now.2 (not_not.mp none)⟩
    split <;> exact last _

theorem frame_reinstall (sha : String) : Frame noMove Deploy.core (reinstall svc sha) := by
  have look : Allows noMove .look := allows_noMove (by decide)
  have change : Allows noMove .change := allows_noMove (by decide)
  unfold reinstall
  dsimp only
  refine frame_bind frame_own fun s => frame_bind (frame_forEach fun pkg _ => ?_) fun _ => ?_
  · exact frame_liftM (emits_install look change _ _ _ _ _)
  · refine frame_bind (frame_liftM (emits_verifyDeps look change svc)) fun v => ?_
    split
    · exact frame_throw _
    · split
      · exact frame_liftM (emits_runBuild change svc)
      · exact frame_pure _

/-- `restoreCheckout` that does not throw. -/
theorem meets_restoreCheckout (sha : String) (s : Deploy) :
    Meets env (Since base fun more s' => more = [] ∧ s' = s) (restoreCheckout svc sha)
      (fun _ => Since base fun more _ => Restored env svc sha s.record.installed more)
      (fun _ => Since base fun _ _ => True) := by
  rw [restoreCheckout_eq]
  refine meets_bind (M := fun _ => Since base fun more s' => (∃ r t, more =
    [⟨.git svc.repo false svc.owner (.resetHard sha), r, t⟩] ∧ RunResult.code r = 0) ∧ s' = s) ?_ fun _ => ?_
  · refine meets_since_liftM fun s' => ?_
    unfold Git.mustRun Git.tryRun
    refine meets_since_ask_then fun r t => ?_
    split
    · exact meets_throw fun w => Since.onward
    · rename_i ok
      refine meets_pure fun w since => since.mono ?_
      rintro _ _ ⟨_, rfl, rfl, same⟩
      exact ⟨⟨r, t, rfl, not_not.mp ok⟩, same⟩
  · refine ((frame_reinstall sha).emits.meets_from fun base s => meets_reinstall sha s).weaken
      (fun _ => id) (fun _ w since => since.mono ?_) fun _ _ => Since.onward
    rintro _ _ ⟨_, rest, _, rfl, ⟨⟨r, t, rfl, ok⟩, rfl⟩, stay, again⟩
    exact ⟨r, t, rest, rfl, ok, stay, again⟩

end

/-! ### Units restarted -/

/-- The unit was restarted, with success. -/
def UnitRestarted (unit : String) (events : List (Event Machine)) : Prop :=
  ∃ r t, (⟨.systemctl .restart (some unit), r, t⟩ : Event Machine) ∈ events ∧ RunResult.code r = 0

theorem UnitRestarted.append {unit : String} {events : List (Event Machine)}
    (restarted : UnitRestarted unit events) (more : List (Event Machine)) :
    UnitRestarted unit (events ++ more) := by
  obtain ⟨r, t, member, ok⟩ := restarted
  exact ⟨r, t, List.mem_append_left _ member, ok⟩

/-- The units were restarted, and after that the ready URL answered ok, if there is one. -/
def Served (svc : Service) (units : List String) (events : List (Event Machine)) : Prop :=
  ∃ restarts ready, events = restarts ++ ready ∧ (∀ unit ∈ units, UnitRestarted unit restarts) ∧
    Responded svc ready

section
variable {env : Environment Machine} {base : List (Event Machine)} {svc : Service}

theorem meets_restart (unit : String) :
    Meets env (Since base fun _ _ => True) (Systemd.restart unit)
      (fun _ => Since base fun more _ => UnitRestarted unit more)
      (fun _ => Since base fun _ _ => True) := by
  unfold Systemd.restart Systemd.systemctl
  rw [if_neg (by decide)]
  dsimp only
  split
  · exact meets_throw fun w => id
  · refine meets_since_ask_then fun r t => ?_
    unfold Systemd.must
    split
    · exact meets_throw fun w => Since.onward
    · rename_i ok
      refine meets_pure fun w since => since.mono ?_
      rintro _ _ ⟨before, rfl, -⟩
      exact ⟨r, t, by simp, not_not.mp ok⟩

/-- Where `restartAndWait` is answered ok, the service serves. -/
theorem meets_restartAndWait (opts : Options) (units : List String) (expectSha : String) :
    Meets env (Since base fun _ _ => True) (restartAndWait svc opts units expectSha)
      (fun r => Since base fun more _ => r.ok = true → Served svc units more)
      (fun _ => Since base fun _ _ => True) := by
  unfold restartAndWait
  refine meets_bind (meets_onward _) fun _ => ?_
  refine meets_bind (M := fun _ => Since base fun more _ => ∀ unit ∈ units, UnitRestarted unit more)
    ?_ fun _ => ?_
  · refine (meets_forEach_upto (I := fun done => Since base fun more _ =>
      ∀ unit ∈ done, UnitRestarted unit more) fun done unit _ => ?_).weaken
        (fun w since => since.mono fun _ _ _ _ member => nomatch member) (fun _ _ => id) fun _ _ => id
    refine ((meets_restart unit).with_kept (K := fun more => ∀ unit ∈ done, UnitRestarted unit more)
      fun more later kept other member => (kept other member).append later).weaken (fun _ => id)
        (fun _ w since => since.mono ?_) fun _ _ => Since.onward
    intro more _ ⟨kept, last⟩ other member
    obtain known | rfl := by simpa using member
    · exact kept other known
    · exact last
  · have waits (base : List (Event Machine)) : Meets env (Since base fun more _ => more = [])
        (waitReady svc opts.readyTimeout (some expectSha) units)
        (fun r => Since base fun more _ => r.ok = true → Responded svc more)
        (fun _ => Since base fun _ _ => True) :=
      meets_waitReady.weaken (fun _ => Since.onward)
        (fun _ w since => since.mono fun _ _ ready => ready.1) fun _ _ => id
    refine ((emits_any _).meets_split (K := fun more => ∀ unit ∈ units, UnitRestarted unit more)
      waits).weaken (fun _ => id) (fun r w since => since.mono ?_) fun _ _ => Since.onward
    rintro _ _ ⟨restarts, ready, rfl, restarted, -, responded⟩ ok
    exact ⟨restarts, ready, rfl, restarted, responded ok⟩

end

end OpenVibeHost.ReleaseOps
