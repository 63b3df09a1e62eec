import OpenVibeHost.Reconcile
import OpenVibeHost.Runs
import OpenVibeHost.JsonRoundTrip

/-! The verdict of `ciStatus` on a commit with any number of check runs. GitHub answers in pages,
and one page of a hundred is read. -/
namespace OpenVibeHost.Reconcile
open Effects Program

/-- A check run of a commit; the conclusion is there once it is completed. -/
structure CheckRun where
  name : String
  status : String
  conclusion : Option String := none
  deriving DecidableEq, Repr

/-- The check is over, and does not speak against the commit. -/
def CheckRun.Passed (run : CheckRun) : Prop :=
  run.status = "completed" ∧ run.conclusion ∈ [some "success", some "skipped", some "neutral"]

instance (run : CheckRun) : Decidable run.Passed := inferInstanceAs (Decidable (_ ∧ _))

def CheckRun.json (run : CheckRun) : Json :=
  .obj [("name", .str run.name), ("status", .str run.status), ("conclusion", Json.ofText run.conclusion)]

/-- How many check runs a page has. -/
def perPage : Nat := 100

/-- What the answer shows of a check run, among other fields. -/
structure Shows (run : CheckRun) (shown : Json) : Prop where
  status : Releases.textField shown "status" = some run.status
  conclusion : Releases.textField shown "conclusion" = run.conclusion

/-- GitHub, where a commit has these check runs: what it answers, if it answers, is their first page. -/
def Pages (env : Environment Machine) (slug sha : String) (runs : List CheckRun) : Prop :=
  ∀ past headers, HttpAnswer.status (env.answer past (.request (checksUrl slug sha) headers)) = 200 →
    ∃ body page, Json.parse (HttpAnswer.body (env.answer past (.request (checksUrl slug sha) headers))) = some body ∧
      body.field "check_runs" = some (.arr page) ∧ List.Forall₂ Shows (runs.take perPage) page

section
variable {env : Environment Machine} {slug sha : String} {token : Option String} {runs : List CheckRun}
  {w w' : World Machine Unit}

theorem Shows.not_null {run : CheckRun} {shown : Json} (shows' : Shows run shown) : shown ≠ .null := by
  rintro rfl
  exact nomatch shows'.status

theorem page_not_null {page : List Json} (shown : List.Forall₂ Shows runs page) : ∀ item ∈ page, item ≠ .null := by
  induction shown with
  | nil => exact nofun
  | cons first rest ih => exact List.forall_mem_cons.mpr ⟨first.not_null, ih⟩

/-- What is read of a field of the runs of a page. -/
theorem runsField_page {page : List Json} (shown : List.Forall₂ Shows runs page) (key : String) :
    runsField page key = .ok (page.map (Releases.textField · key)) := by
  refine if_neg fun null => ?_
  obtain ⟨item, member, is⟩ := List.any_eq_true.mp null
  have there := page_not_null shown item member
  cases item with
  | null => exact there rfl
  | _ => exact nomatch is

theorem map_status {page : List Json} (shown : List.Forall₂ Shows runs page) :
    page.map (Releases.textField · "status") = runs.map fun run => some run.status := by
  induction shown with
  | nil => rfl
  | cons first rest ih => rw [List.map_cons, List.map_cons, first.status, ih]

theorem map_conclusion {page : List Json} (shown : List.Forall₂ Shows runs page) :
    page.map (Releases.textField · "conclusion") = runs.map (·.conclusion) := by
  induction shown with
  | nil => rfl
  | cons first rest ih => rw [List.map_cons, List.map_cons, first.conclusion, ih]

/-- The verdict on a page. -/
theorem runsVerdict_page {page : List Json} (shown : List.Forall₂ Shows runs page) :
    runsVerdict page = .ok .green ↔ runs ≠ [] ∧ ∀ run ∈ runs, run.Passed := by
  have empty : page = [] ↔ runs = [] := by rw [← List.length_eq_zero_iff, ← shown.length_eq, List.length_eq_zero_iff]
  unfold runsVerdict
  rw [runsField_page shown, runsField_page shown, map_status shown, map_conclusion shown]
  simp only [bind, Except.bind, empty]
  by_cases none' : runs = []
  · simp [none', pure, Except.pure]
  rw [if_neg none']
  by_cases done : ∀ run ∈ runs, run.status = "completed"
  · have states : (runs.map fun run => some run.status).any (· ≠ some "completed") = false := by simpa using done
    rw [states, if_neg Bool.false_ne_true]
    by_cases well : ∀ run ∈ runs, run.conclusion ∈ [some "success", some "skipped", some "neutral"]
    · have conclusions : (runs.map (·.conclusion)).any
          (· ∉ [some "success", some "skipped", some "neutral"]) = false := by
        rw [List.any_map, List.any_eq_false]
        exact fun run member bad => of_decide_eq_true bad (well run member)
      rw [conclusions, if_neg Bool.false_ne_true]
      exact ⟨fun _ => ⟨none', fun run member => ⟨done run member, well run member⟩⟩, fun _ => rfl⟩
    · have conclusions : (runs.map (·.conclusion)).any
          (· ∉ [some "success", some "skipped", some "neutral"]) = true := by
        obtain ⟨run, member, bad⟩ : ∃ run ∈ runs,
          run.conclusion ∉ [some "success", some "skipped", some "neutral"] := by simpa only [not_forall, exists_prop] using well
        rw [List.any_map]
        exact List.any_eq_true.mpr ⟨run, member, decide_eq_true bad⟩
      rw [conclusions, if_pos rfl]
      exact ⟨nofun, fun passed => absurd (fun run member => (passed.2 run member).2) well⟩
  · have states : (runs.map fun run => some run.status).any (· ≠ some "completed") = true := by simpa using done
    rw [states, if_pos rfl]
    exact ⟨nofun, fun passed => absurd (fun run member => (passed.2 run member).1) done⟩

/-- The headers of the request. -/
def requestHeaders (token : Option String) : List (String × String) :=
  [("accept", "application/vnd.github+json"), ("user-agent", "openvibe-host-reconcile"),
    ("x-github-api-version", "2022-11-28")] ++ (token.map fun t => ("authorization", "Bearer " ++ t)).toList

/-- The verdict is the one on the answer. -/
theorem run_ciStatus (v : Verdict) : (∃ next, Program.run (ciStatus slug sha token) env w = (.ok v, next)) ↔
    ciVerdict (env.answer w.trace (.request (checksUrl slug sha) (requestHeaders token))) = .ok v := by
  have runs' : (Program.run (ciStatus slug sha token) env w).1 =
      ciVerdict (env.answer w.trace (.request (checksUrl slug sha) (requestHeaders token))) := by
    change (Program.run (orThrow (ciVerdict (env.answer w.trace (.request (checksUrl slug sha) (requestHeaders token)))))
      env _).1 = _
    cases ciVerdict (env.answer w.trace (.request (checksUrl slug sha) (requestHeaders token))) <;> rfl
  rw [← runs']
  exact ⟨fun ⟨next, ran⟩ => by rw [ran], fun same => ⟨_, Prod.ext same rfl⟩⟩

/-- The verdict on an answer is green where the answer came and its page is good. -/
theorem ciVerdict_green {r : HttpAnswer} {body : Json} {page : List Json} (parsed : Json.parse r.body = some body)
    (listed : body.field "check_runs" = some (.arr page)) (shown : List.Forall₂ Shows runs page) :
    ciVerdict r = .ok .green ↔ r.status = 200 ∧ runs ≠ [] ∧ ∀ run ∈ runs, run.Passed := by
  unfold ciVerdict
  by_cases came : r.status = 200
  · rw [if_neg (not_not.mpr came), parsed]
    cases body with
    | null => exact nomatch listed
    | _ =>
      dsimp only
      rw [listed]
      exact (runsVerdict_page shown).trans (by simp [came])
  · rw [if_pos came]
    exact ⟨nofun, fun green => absurd green.1 came⟩

end

/-! ### GitHub with a page -/

/-- The first page of some check runs. -/
def firstPage (runs : List CheckRun) : Json :=
  .obj [("total_count", .num runs.length), ("check_runs", .arr ((runs.take perPage).map CheckRun.json))]

/-- A host whose requests GitHub answers with the first page of some check runs. -/
def github (runs : List CheckRun) : Environment Machine := hostOf fun
  | .request _ _ => ({ status := 200, body := Json.stringify (firstPage runs) } : HttpAnswer)
  | other => steady other

theorem shows_json (run : CheckRun) : Shows run run.json := by
  refine ⟨rfl, ?_⟩
  cases given : run.conclusion <;> simp [CheckRun.json, Releases.textField, Json.field, Json.ofText, given]

theorem forall₂_shows (runs : List CheckRun) : List.Forall₂ Shows runs (runs.map CheckRun.json) := by
  induction runs with
  | nil => exact .nil
  | cons run rest ih => exact .cons (shows_json run) ih

theorem parse_firstPage (runs : List CheckRun) : Json.parse (Json.stringify (firstPage runs)) = some (firstPage runs) := by
  refine Json.parse_written _ ⟨Nat.dvd_trans (by simp) (Nat.one_dvd _), Json.decimal_item_of_mem ?_, trivial⟩
  intro item member
  obtain ⟨run, -, rfl⟩ := List.mem_map.mp member
  cases given : run.conclusion <;> simp [CheckRun.json, Json.ofText, Json.Decimal, Json.DecimalFields, given]

theorem github_pages (slug sha : String) (runs : List CheckRun) : Pages (github runs) slug sha runs :=
  fun _ _ _ => ⟨_, _, parse_firstPage runs, rfl, forall₂_shows _⟩

/-- The verdict where GitHub answers. -/
theorem github_green {slug sha : String} {token : Option String} {runs : List CheckRun} {w : World Machine Unit}
    (some' : runs ≠ []) (passed : ∀ run ∈ runs.take perPage, run.Passed) :
    ∃ next, Program.run (ciStatus slug sha token) (github runs) w = (.ok .green, next) := by
  have first : runs.take perPage ≠ [] := by simpa [perPage] using some'
  have answered : (github runs).answer w.trace (.request (checksUrl slug sha) (requestHeaders token)) =
      ({ status := 200, body := Json.stringify (firstPage runs) } : HttpAnswer) := rfl
  have listed : (firstPage runs).field "check_runs" = some (.arr ((runs.take perPage).map CheckRun.json)) := rfl
  have green := (ciVerdict_green (r := { status := 200, body := Json.stringify (firstPage runs) }) (parse_firstPage runs)
    listed (forall₂_shows _)).mpr ⟨rfl, first, passed⟩
  rw [← answered] at green
  exact (run_ciStatus .green).mpr green

/-- `ciStatus` says green of checked commits only, where the first hundred check runs have one that has
not passed, or the later ones have all passed. -/
theorem green_where_first_page_tells (slug sha : String) (token : Option String) (runs : List CheckRun) :
    (∀ env, Pages env slug sha runs → ∀ w w' : World Machine Unit,
      Program.run (ciStatus slug sha token) env w = (.ok .green, w') → ∀ run ∈ runs, run.Passed) ↔
      (∃ run ∈ runs.take perPage, ¬ run.Passed) ∨ ∀ run ∈ runs.drop perPage, run.Passed := by
  constructor
  · intro sound
    by_cases first : ∀ run ∈ runs.take perPage, run.Passed
    · refine .inr fun run later => ?_
      have some' : runs ≠ [] := by
        rintro rfl
        exact nomatch later
      obtain ⟨next, ran⟩ := @github_green slug sha token runs ⟨(), 0, []⟩ some' first
      exact sound _ (github_pages slug sha runs) _ _ ran run (List.mem_of_mem_drop later)
    · exact .inl (by simpa only [not_forall, exists_prop] using first)
  · rintro tells env pages w w' ran
    have verdict := (run_ciStatus .green).mp ⟨w', ran⟩
    have came : HttpAnswer.status (env.answer w.trace (.request (checksUrl slug sha) (requestHeaders token))) = 200 := by
      by_contra none'
      unfold ciVerdict at verdict
      rw [if_pos none'] at verdict
      exact nomatch verdict
    obtain ⟨body, page, parsed, listed, shown⟩ := pages _ _ came
    obtain ⟨-, -, first⟩ := (ciVerdict_green parsed listed shown).mp verdict
    obtain ⟨run, member, bad⟩ | later := tells
    · exact absurd (first run member) bad
    · intro run member
      rw [← List.take_append_drop perPage runs] at member
      exact (List.mem_append.mp member).elim (first run) (later run)

/-- A hundred checks have passed, and the next one has failed. -/
def hundredAndOne : List CheckRun :=
  List.replicate 100 { name := "test", status := "completed", conclusion := some "success" } ++
    [{ name := "e2e", status := "completed", conclusion := some "failure" }]

/-- The commit is green. -/
theorem failed_check_unseen : Pages (github hundredAndOne) "o/r" "c1" hundredAndOne ∧
    (∃ next, Program.run (ciStatus "o/r" "c1" none) (github hundredAndOne) ⟨(), 0, []⟩ = (.ok .green, next)) ∧
    ∃ run ∈ hundredAndOne, ¬ run.Passed :=
  ⟨github_pages _ _ _, github_green (by simp [hundredAndOne]) (by decide), by decide⟩

end OpenVibeHost.Reconcile
