import OpenVibeHost.ReadinessFacts

/-! Where the `current` link of a service points in the course of a run, and how
`switchCurrent` moves it: all at once, or not at all. -/
namespace OpenVibeHost.ReleaseLayout
open Effects Program Releases ReleaseOps

/-! ### The link -/

/-- Where `current` points, and where the temporary link beside it does, if it is there. -/
structure Links where
  temporary : Option String
  current : String

/-- What a call that succeeds makes of the two links. -/
def Links.after (rel : ReleaseConfig) (links : Links) (event : Event Machine) : Links :=
  match event with
  | ⟨.symlink target path true, .ok _, _⟩ =>
    if path = temporaryLink rel then { links with temporary := some target } else links
  | ⟨.removeFile path true, .ok _, _⟩ =>
    if path = temporaryLink rel then { links with temporary := none } else links
  | ⟨.run "mv" ["-T", "-f", tmp, link] options, r, _⟩ =>
    if options.privileged ∧ r.code = 0 ∧ tmp = temporaryLink rel ∧ link = rel.current then
      { temporary := none, current := links.temporary.getD links.current }
    else links
  | _ => links

/-- The links after `events`, where `current` pointed to `dir` before. -/
def linksAfter (rel : ReleaseConfig) (dir : String) (events : List (Event Machine)) : Links :=
  events.foldl (Links.after rel) { temporary := none, current := dir }

/-- Where `current` points after `events`. -/
def pointsTo (rel : ReleaseConfig) (dir : String) (events : List (Event Machine)) : String :=
  (linksAfter rel dir events).current

theorem linksAfter_snoc (rel : ReleaseConfig) (dir : String) (events : List (Event Machine))
    (event : Event Machine) :
    linksAfter rel dir (events ++ [event]) = (linksAfter rel dir events).after rel event := by
  simp [linksAfter, List.foldl_append]

/-- Every call but one that renames a link over another. -/
def noSwitch (call : Machine.Call) : Bool := decide (Call.kind call ≠ .switch)

theorem Links.after_current {rel : ReleaseConfig} {links : Links} {event : Event Machine}
    (stays : noSwitch event.call = true) : (links.after rel event).current = links.current := by
  unfold Links.after
  split
  · split <;> rfl
  · split <;> rfl
  · rename_i tmp link options r clock
    have other := of_decide_eq_true stays
    have unprivileged : ¬ (options.privileged = true ∧ r.code = 0 ∧ tmp = temporaryLink rel ∧
        link = rel.current) := fun ⟨privileged, _⟩ => other (by simp [Call.kind, switches, privileged])
    rw [if_neg unprivileged]
  · rfl

theorem pointsTo_snoc {rel : ReleaseConfig} {dir : String} {events : List (Event Machine)}
    {event : Event Machine} (stays : noSwitch event.call = true) :
    pointsTo rel dir (events ++ [event]) = pointsTo rel dir events := by
  unfold pointsTo
  rw [linksAfter_snoc, Links.after_current stays]

theorem pointsTo_append {rel : ReleaseConfig} {dir : String} {before after : List (Event Machine)}
    (stay : ∀ event ∈ after, noSwitch event.call = true) :
    pointsTo rel dir (before ++ after) = pointsTo rel dir before := by
  induction after using List.reverseRecOn with
  | nil => rw [List.append_nil]
  | append_singleton after event ih =>
    rw [← List.append_assoc, pointsTo_snoc (stay event (by simp))]
    exact ih fun earlier member => stay earlier (List.mem_append_left _ member)

theorem allows_noSwitch {kind : Kind} (other : kind ≠ .switch) : Allows noSwitch kind := by
  rintro call rfl
  exact decide_eq_true other

/-! ### Switching -/

section
variable {env : Environment Machine} {base : List (Event Machine)} {rel : ReleaseConfig} {start : String}

/-- `current` points to `dir`, since it pointed to `start` at `base`. -/
abbrev Points (base : List (Event Machine)) (rel : ReleaseConfig) (start dir : String)
    {σ : Type} : World Machine σ → Prop :=
  Since base fun more _ => pointsTo rel start more = dir

theorem after_symlink (rel : ReleaseConfig) (links : Links) (dir : String) (clock : Nat) :
    links.after rel ⟨.symlink dir (temporaryLink rel) true, .ok (), clock⟩ =
      { links with temporary := some dir } := by
  simp only [Links.after, if_true]

theorem after_move (rel : ReleaseConfig) (links : Links) (r : RunResult) (clock : Nat) :
    links.after rel ⟨.run "mv" ["-T", "-f", temporaryLink rel, rel.current] { privileged := true },
        r, clock⟩ =
      if r.code = 0 then { temporary := none, current := links.temporary.getD links.current }
      else links := by
  have moves : (true = true ∧ r.code = 0 ∧ temporaryLink rel = temporaryLink rel ∧
      rel.current = rel.current) ↔ r.code = 0 := by simp
  exact if_congr moves rfl rfl

/-- What the three calls of `switchCurrent` come to. -/
theorem pointsTo_moved (more : List (Event Machine)) (dir : String) (removed : Except String Unit)
    (r : RunResult) (c c' t : Nat) :
    pointsTo rel start (more ++ [⟨.removeFile (temporaryLink rel) true, removed, c⟩] ++
        [⟨.symlink dir (temporaryLink rel) true, .ok (), c'⟩] ++
        [⟨.run "mv" ["-T", "-f", temporaryLink rel, rel.current] { privileged := true }, r, t⟩]) =
      if r.code = 0 then dir else pointsTo rel start more := by
  have before : pointsTo rel start (more ++ [⟨.removeFile (temporaryLink rel) true, removed, c⟩]) =
      pointsTo rel start more := pointsTo_snoc rfl
  generalize more ++ [(⟨.removeFile (temporaryLink rel) true, removed, c⟩ : Event Machine)] = gone at before ⊢
  have moved := after_move rel (linksAfter rel start
    (gone ++ [⟨.symlink dir (temporaryLink rel) true, .ok (), c'⟩])) r t
  have linked := (linksAfter_snoc rel start gone _).trans (after_symlink rel (linksAfter rel start gone) dir c')
  rw [linked] at moved
  unfold pointsTo
  rw [linksAfter_snoc, linked]
  refine (congrArg Links.current moved).trans ?_
  by_cases done : r.code = 0
  · rw [if_pos done, if_pos done]
    rfl
  · rw [if_neg done, if_neg done]
    exact before

/-- `switchCurrent` makes `current` point to a directory by its last call, or leaves it as
it is. -/
theorem meets_switchCurrent (before dir : String) :
    Meets env (Since base fun more _ => pointsTo rel start more = before) (switchCurrent rel dir)
      (fun _ => Since base fun more _ => pointsTo rel start more = dir ∧
        ∃ earlier switch, more = earlier ++ [switch] ∧ Call.kind switch.call = .switch)
      (fun _ => Since base fun more _ => pointsTo rel start more = before) := by
  unfold switchCurrent
  dsimp only
  refine meets_reject_then (fun _ removed clock _ => ?_) fun _ _ _ w _ since => ?_
  · refine meets_reject_then (fun _ made clock' ok => ?_) fun _ _ _ w _ since => ?_
    · obtain rfl : made = .ok () := ok
      refine meets_since_ask_then fun r t => ?_
      split
      · rename_i failed
        refine meets_throw fun w since => since.mono ?_
        rintro _ _ ⟨_, rfl, _, rfl, more, rfl, points⟩
        exact (pointsTo_moved more dir removed r clock clock' t).trans ((if_neg failed).trans points)
      · rename_i done
        refine meets_pure fun w since => since.mono ?_
        rintro _ _ ⟨_, rfl, _, rfl, more, rfl, points⟩
        refine ⟨(pointsTo_moved more dir removed r clock clock' t).trans (if_pos (not_not.mp done)), ?_⟩
        exact ⟨_, _, rfl, rfl⟩
    · refine since.mono ?_
      rintro _ _ ⟨_, rfl, more, rfl, points⟩
      exact (pointsTo_snoc rfl).trans ((pointsTo_snoc rfl).trans points)
  · refine since.mono ?_
    rintro _ _ ⟨more, rfl, points⟩
    exact (pointsTo_snoc rfl).trans points

/-- The link is read where a plan is made: that is the directory a run leaves. -/
theorem current_answered {first last : World Machine Unit} {svc : Service} {cur : Current}
    (answered : Answered env first last (currentRelease svc rel) (.ok cur)) :
    ∃ past target, env.answer past (.readlink rel.current) = some target ∧
      cur.dir = resolvePath (dirName rel.current) target ∧ cur.id = baseName cur.dir := by
  obtain ⟨w, w', ran, -, -⟩ := answered
  unfold currentRelease at ran
  obtain ⟨link, w1, asked, ran⟩ := run_bind_ok.mp ran
  obtain ⟨linked, -⟩ := Prod.mk.inj asked
  obtain rfl := Except.ok.inj linked
  split at ran
  · exact nomatch ran
  · exact nomatch ran
  · rename_i target _ pointed
    obtain ⟨st, w2, -, ran⟩ := run_bind_ok.mp ran
    split at ran
    · exact nomatch ran
    · obtain ⟨sha, w3, -, ran⟩ := run_bind_ok.mp ran
      obtain ⟨same, -⟩ := Prod.mk.inj ran
      obtain rfl := Except.ok.inj (Except.ok.inj same)
      exact ⟨w.trace, target, pointed, rfl, rfl⟩

end

end OpenVibeHost.ReleaseLayout
