import OpenVibeHost.Announcements
import OpenVibeHost.JsonRoundTrip
import Mathlib.Data.List.Chain

/-! What an announcement sends and how long it takes, and that a sequence of runs announces a release once. -/
namespace OpenVibeHost.Announce
open Effects Program Operator

/-! ### What is sent -/

def accepted (r : HttpAnswer) : Prop := r.status = 200 ∨ r.status = 201

/-- What the tries of one publish have in common, and what its result says of them. -/
structure Delivered (creds : Credentials) (token body : String) (most : Nat) (tries : List (Request × HttpAnswer))
    (result : Published) : Prop where
  same : ∀ t ∈ tries, ∃ ms, t.1 = post creds token body ms
  few : tries.length ≤ most
  again : ∀ t ∈ tries.dropLast, retryable t.2 = true
  /-- What is said to be stored was accepted, by the last try. -/
  stored : ∀ seq duplicate n, result = .stored seq duplicate n → ∃ t, tries.getLast? = some t ∧ accepted t.2
  failed : ∀ stage error, result = .failed stage error → ∀ t ∈ tries, ¬ accepted t.2

variable {env : Environment Operator} {creds : Credentials} {token body : String} {start : Nat}

/-- One more try before those of the rest, which was refused for now. -/
theorem Delivered.cons {most : Nat} {tries : List (Request × HttpAnswer)} {result : Published} {ms : Nat}
    {r : HttpAnswer} (rest : Delivered creds token body most tries result) (refused : ¬ accepted r)
    (later : retryable r = true) : Delivered creds token body (most + 1) ((post creds token body ms, r) :: tries) result where
  same := by
    intro t mem
    rcases List.mem_cons.mp mem with rfl | old
    · exact ⟨ms, rfl⟩
    · exact rest.same t old
  few := Nat.succ_le_succ rest.few
  again := by
    intro t mem
    cases tries with
    | nil => cases mem
    | cons next more =>
      rcases List.mem_cons.mp mem with rfl | old
      · exact later
      · exact rest.again t old
  stored := by
    intro seq duplicate n ended
    obtain ⟨t, last, fine⟩ := rest.stored seq duplicate n ended
    cases tries with
    | nil => cases last
    | cons next more => exact ⟨t, last, fine⟩
  failed := by
    intro stage error ended t mem
    rcases List.mem_cons.mp mem with rfl | old
    · exact refused
    · exact rest.failed stage error ended t old

/-- A try that was the last one. -/
theorem Delivered.one {most ms : Nat} {r : HttpAnswer} {result : Published}
    (fine : ∀ seq duplicate n, result = .stored seq duplicate n → accepted r)
    (bad : ∀ stage error, result = .failed stage error → ¬ accepted r) :
    Delivered creds token body (most + 1) [(post creds token body ms, r)] result where
  same := by simp
  few := by simp
  again := by simp
  stored := by simpa using fine
  failed := by simpa using bad

theorem attempt_delivers {more made : Nat} {last : HttpAnswer} {w final : World Operator Unit}
    {result : Except String Published} {events : List (Event Operator)}
    (run : Goes env (attempt creds token body start more made last) w result events final) :
    ∃ published, result = .ok published ∧ Delivered creds token body more (exchanges events) published := by
  induction more generalizing made last w events with
  | zero =>
    obtain ⟨rfl, rfl, rfl⟩ := goes_pure.mp run
    exact ⟨_, rfl, by simp [exchanges], by simp [exchanges], by simp [exchanges], by simp, by simp [exchanges]⟩
  | succ more ih =>
    simp only [attempt, goes_now_bind, goes_request] at run
    obtain ⟨rest, run, rfl⟩ := run
    generalize max 500 (min requestMs (left start w.clock)) = ms at run ⊢
    have first : exchanges (eventOf env (.request (post creds token body ms)) w :: rest) =
        (post creds token body ms, replied env w (post creds token body ms)) :: exchanges rest := rfl
    rw [first]
    generalize replied env w (post creds token body ms) = r at run ⊢
    split at run
    · rename_i ok
      obtain ⟨rfl, rfl, -⟩ := goes_pure.mp run
      exact ⟨_, rfl, .one (fun _ _ _ _ => ok) fun _ _ none => by cases none⟩
    · rename_i refused
      simp only [goes_now_bind] at run
      split at run
      · obtain ⟨rfl, rfl, -⟩ := goes_pure.mp run
        exact ⟨_, rfl, .one (fun _ _ _ none => by cases none) fun _ _ _ => refused⟩
      · rename_i goesOn
        have later : retryable r = true := by
          by_contra no
          exact goesOn (.inl no)
        obtain ⟨tail, again, rfl⟩ := goes_sleep.mp run
        obtain ⟨published, rfl, delivered⟩ := ih again
        exact ⟨published, rfl, delivered.cons refused later⟩

variable {runtime : Runtime} {event : Json}

/-- A publish asks for a token once and then, with the token it got, sends the event: at most twice, each time the same
bytes to the same place, and again only after an answer that is worth a retry. It is said to be stored exactly where the
last try was accepted. -/
theorem publish_delivers {w final : World Operator Unit} {result : Except String Published}
    {events : List (Event Operator)} (run : Goes env (publish runtime creds event) w result events final) :
    ∃ published t tries, result = .ok published ∧ exchanges events = (tokenRequest runtime creds, t) :: tries ∧
      ((tries = [] ∧ ∃ error, published = .failed "token" error) ∨
        ∃ token, t.status = 200 ∧ tokenOf t = some token ∧
          Delivered creds token (Json.stringify event) 2 tries published) := by
  simp only [publish, goes_now_bind, goes_request] at run
  obtain ⟨rest, run, rfl⟩ := run
  have first : exchanges (eventOf env (.request (tokenRequest runtime creds)) w :: rest) =
      (tokenRequest runtime creds, replied env w (tokenRequest runtime creds)) :: exchanges rest := rfl
  rw [first]
  generalize replied env w (tokenRequest runtime creds) = t at run ⊢
  split at run
  · obtain ⟨rfl, rfl, -⟩ := goes_pure.mp run
    exact ⟨_, t, [], rfl, rfl, .inl ⟨rfl, _, rfl⟩⟩
  · rename_i fine
    split at run
    · obtain ⟨rfl, rfl, -⟩ := goes_pure.mp run
      exact ⟨_, t, [], rfl, rfl, .inl ⟨rfl, _, rfl⟩⟩
    · rename_i token got
      obtain ⟨published, rfl, delivered⟩ := attempt_delivers run
      exact ⟨published, t, _, rfl, rfl, .inr ⟨token, not_not.mp fine, got, delivered⟩⟩

/-- Network and Events on the host itself. -/
def onHost : Runtime where
  parseUrl text :=
    if text = "http://127.0.0.1:4000" ∨ text = "http://127.0.0.1:4300" then
      some { protocol := "http:", hostname := "127.0.0.1", username := "", password := "", origin := text, pathname := "/" }
    else none
  releaseUrl _ := none
  formText form := "&".intercalate (form.map fun (name, value) => name ++ "=" ++ value)
  publicOrigin _ := none

def localCredentials : Credentials where
  file := defaultEnvFile
  clientId := "host"
  eventsUrl := "http://127.0.0.1:4300"
  networkUrl := "http://127.0.0.1:4000"
  secret := "hush"

/-- A host whose Events answers `reply`, where each request takes what `takes` says. -/
def hosted (takes : Request → Nat) (reply : HttpAnswer) : Environment Operator where
  takes _
    | .request sent => takes sent
    | _ => 0
  answer past
    | .request sent => if sent.url = "http://127.0.0.1:4000/oauth/token" then
        { status := 200, body := "\x7b\"access_token\":\"t\"\x7d" } else reply
    | .readFile path _ =>
      .ok (if path = defaultEnvFile then some "EVENTS_URL=http://127.0.0.1:4300\nOV_OAUTH_CLIENT_SECRET=hush\n"
        else standing path none past)
    | .writeFile .. | .mkdir _ => .ok ()
    | .head .. => .error "not a git repository"
    | .newId kind => kind ++ "_1"
    | .readdir _ => none
    | .http .. => { error := "ECONNREFUSED" }
    | .check .. => { code := 1 }
    | .sleep _ => ()

/-- Events that answers nothing until it is given up. -/
def slow : Environment Operator := hosted Request.timeoutMs { error := "timeout" }

def started : World Operator Unit := ⟨(), 0, []⟩

/-- What a publish to an Events that does not answer comes to. -/
theorem publish_delivers_slow : ∃ result events final,
    Goes slow (publish onHost localCredentials .null) started result events final ∧ (exchanges events).length = 3 ∧
    ∃ published t tries, result = .ok published ∧ exchanges events = (tokenRequest onHost localCredentials, t) :: tries ∧
      ((tries = [] ∧ ∃ error, published = .failed "token" error) ∨
        ∃ token, t.status = 200 ∧ tokenOf t = some token ∧
          Delivered localCredentials token (Json.stringify .null) 2 tries published) := by
  obtain ⟨result, events, final, run⟩ := goes slow (publish onHost localCredentials .null) started
  refine ⟨result, events, final, run, ?_, publish_delivers run⟩
  have three : (exchanges (Program.run (publish onHost localCredentials .null) slow started).2.trace).length = 3 := by
    decide +kernel
  rw [run.ran, run.trace] at three
  exact three

/-! ### How long it takes -/

/-- Requests are given up by their timeout and sleeps end when they are due, each at most `late` milliseconds late. -/
def Prompt (env : Environment Operator) (late : Nat) : Prop :=
  ∀ (trace : List (Event Operator)),
    (∀ sent : Request, env.takes trace (.request sent) ≤ sent.timeoutMs + late) ∧
      ∀ ms : Nat, env.takes trace (.sleep ms) ≤ ms + late

variable {late : Nat}

theorem Prompt.request (prompt : Prompt env late) (sent : Request) (w : World Operator Unit) :
    (called env (.request sent) w).clock ≤ w.clock + sent.timeoutMs + late := by
  have due := (prompt w.trace).1 sent
  change w.clock + max 0 (env.takes w.trace (.request sent)) ≤ _
  omega

theorem Prompt.sleep (prompt : Prompt env late) (ms : Nat) (w : World Operator Unit) :
    (called env (.sleep ms) w).clock ≤ w.clock + ms + late := by
  have due := (prompt w.trace).2 ms
  change w.clock + max ms (env.takes w.trace (.sleep ms)) ≤ _
  omega

/-- The timeout of a try is what is left of the budget, and a try begins only where a second is left. -/
theorem attempt_in_time (prompt : Prompt env late) {more made : Nat} {last : HttpAnswer} {w final : World Operator Unit}
    {result : Except String Published} {events : List (Event Operator)}
    (run : Goes env (attempt creds token body start more made last) w result events final)
    (begun : start ≤ w.clock) (early : w.clock ≤ start + 5300 + late) :
    final.clock ≤ start + budgetMs + 2 * late := by
  induction more generalizing made last w events with
  | zero =>
    obtain ⟨-, -, rfl⟩ := goes_pure.mp run
    unfold budgetMs
    omega
  | succ more ih =>
    simp only [attempt, goes_now_bind, goes_request] at run
    obtain ⟨rest, run, rfl⟩ := run
    generalize asked : post creds token body (max 500 (min requestMs (left start w.clock))) = sent at run
    have due := prompt.request sent w
    have onward : w.clock ≤ (called env (.request sent) w).clock := Nat.le_add_right _ _
    have limit : sent.timeoutMs = max 500 (min 2500 (6000 - (w.clock - start))) := by
      rw [← asked]
      rfl
    generalize replied env w sent = r at run
    split at run
    · obtain ⟨-, -, rfl⟩ := goes_pure.mp run
      unfold budgetMs
      omega
    · simp only [goes_now_bind] at run
      split at run
      · obtain ⟨-, -, rfl⟩ := goes_pure.mp run
        unfold budgetMs
        omega
      · rename_i goesOn
        have enough : ¬ left start (called env (.request sent) w).clock < 1000 := fun short => goesOn (.inr short)
        obtain ⟨tail, again, rfl⟩ := goes_sleep.mp run
        have rested := prompt.sleep 300 (called env (.request sent) w)
        have later : (called env (.request sent) w).clock ≤ (called env (.sleep 300) (called env (.request sent) w)).clock :=
          Nat.le_add_right _ _
        unfold left budgetMs at enough
        exact ih again (by omega) (by omega)

theorem publish_in_time (prompt : Prompt env late) {w final : World Operator Unit} {result : Except String Published}
    {events : List (Event Operator)} (run : Goes env (publish runtime creds event) w result events final) :
    final.clock ≤ w.clock + budgetMs + 2 * late := by
  simp only [publish, goes_now_bind, goes_request] at run
  obtain ⟨rest, run, rfl⟩ := run
  have due := prompt.request (tokenRequest runtime creds) w
  have onward : w.clock ≤ (called env (.request (tokenRequest runtime creds)) w).clock := Nat.le_add_right _ _
  have limit : (tokenRequest runtime creds).timeoutMs = 2500 := rfl
  generalize replied env w (tokenRequest runtime creds) = t at run
  split at run
  · obtain ⟨-, -, rfl⟩ := goes_pure.mp run
    unfold budgetMs
    omega
  · split at run
    · obtain ⟨-, -, rfl⟩ := goes_pure.mp run
      unfold budgetMs
      omega
    · exact attempt_in_time prompt run onward (by omega)

theorem slow_prompt : Prompt slow 0 := fun _ => ⟨fun _ => le_rfl, fun _ => Nat.zero_le _⟩

/-- It is not over before the budget is where nothing answers. -/
theorem publish_in_time_slow :
    (Program.run (publish onHost localCredentials .null) slow started).2.clock = budgetMs ∧
      (Program.run (publish onHost localCredentials .null) slow started).2.clock ≤ started.clock + budgetMs + 2 * 0 := by
  refine ⟨by decide +kernel, ?_⟩
  obtain ⟨result, events, final, run⟩ := goes slow (publish onHost localCredentials .null) started
  rw [run.ran]
  exact publish_in_time slow_prompt run

/-! ### The record -/

section
variable {host : Host} {id : String} {options : Options}

theorem emits_describeRelease : Emits (S := Operator) quiet (describeRelease runtime host id options) := by
  unfold describeRelease
  have served : ∀ entry asked, Emits (S := Operator) quiet (servedBy runtime entry asked) := by
    unfold servedBy servedManifest
    grind
  have heads : ∀ entry known needed, Emits (S := Operator) quiet (headOf entry known needed) := by
    unfold headOf
    grind
  grind

theorem emits_loadCredentials {calls : Operator.Call → Bool} {envFile : Option String}
    (reads : ∀ path privileged, calls (.readFile path privileged) = true) :
    Emits (S := Operator) calls (loadCredentials runtime host envFile) := by
  unfold loadCredentials
  dsimp only
  split
  · exact emits_pure _
  · refine emits_bind (emits_call (reads _ _)) fun text => ?_
    split <;> exact emits_pure _

theorem emits_publish : Emits (S := Operator) quiet (publish runtime creds event) := by
  have attempts : ∀ (start more made : Nat) (token body : String) (last : HttpAnswer),
      Emits (S := Operator) quiet (attempt creds token body start more made last) := by
    intro start more
    induction more with
    | zero =>
      intro made token body last
      unfold attempt
      grind
    | succ more ih =>
      intro made token body last
      unfold attempt
      grind
  unfold publish
  grind

/-- The record that stands for a service. -/
def onRecord (host : Host) (service : String) (start : Option String) (trace : List (Event Operator)) : Option Json :=
  recordIn (.ok (standing (stateFile host service) start trace))

theorem stateFile_ne {service other : String} (ne : other ≠ service) : stateFile host other ≠ stateFile host service := by
  intro same
  apply ne
  have texts : (stateFile host other).toList = (stateFile host service).toList := congrArg String.toList same
  simp only [stateFile, String.toList_append, List.append_cancel_left_eq, List.append_cancel_right_eq] at texts
  exact String.toList_inj.mp texts

/-- No file is another one after it. -/
def SameFiles (w final : World Operator Unit) : Prop :=
  ∀ path start, standing path start final.trace = standing path start w.trace

theorem SameFiles.trans {w mid final : World Operator Unit} (first : SameFiles w mid) (second : SameFiles mid final) :
    SameFiles w final := fun path start => (second path start).trans (first path start)

theorem sameFiles_quiet {α : Type} {p : Command α} {w final : World Operator Unit} {result : Except String α}
    {made : List (Event Operator)} (emits : Emits (S := Operator) quiet p) (run : Goes env p w result made final) :
    SameFiles w final := fun _ _ => standing_quiet emits run

theorem sameFiles_called {w : World Operator Unit} (call : Operator.Call) (silent : quiet call = true) :
    SameFiles w (called env call w) := by
  intro path start
  refine standing_called ?_
  cases call <;> first | rfl | cases silent

theorem SameFiles.record {w final : World Operator Unit} (same : SameFiles w final) (service : String)
    (start : Option String) : onRecord host service start final.trace = onRecord host service start w.trace := by
  unfold onRecord
  rw [same]

variable {service : String} {start : Option String}

/-- The directory and the record can be written. -/
structure Works (env : Environment Operator) (host : Host) (service : String) : Prop where
  dir : ∀ trace : List (Event Operator), env.answer trace (.mkdir (host.stateDir ++ "/announced")) = Except.ok ()
  file : Writes env (stateFile host service)

theorem goes_readState {f : Option Json → Command Report} {w final : World Operator Unit} {result : Except String Report}
    {made : List (Event Operator)} (reads : Reads env (stateFile host service) start)
    (run : Goes env (readState host service >>= f) w result made final) :
    ∃ rest mid, Goes env (f (onRecord host service start w.trace)) mid result rest final ∧ SameFiles w mid := by
  simp only [readState, bind_assoc, pure_bind, goes_readFile] at run
  obtain ⟨rest, run, -⟩ := run
  rw [reads w.trace false] at run
  exact ⟨rest, _, run, sameFiles_called (.readFile (stateFile host service) false) rfl⟩

/-- The record of a release is read back as one of it. -/
theorem names_recordOf (d : Description) (eventId at' : String) (seq : Option Int) :
    names (recordIn (.ok (some (Json.stringify (recordOf d eventId at' seq) ++ "\n")))) d.release = true := by
  have decimal : (recordOf d eventId at' seq).Decimal := by
    cases seq with
    | none => exact ⟨trivial, trivial, Json.decimal_text _, trivial, trivial, trivial, trivial⟩
    | some seq => exact ⟨trivial, trivial, Json.decimal_text _, trivial, one_dvd _, trivial, trivial⟩
  have there : given (some (Json.stringify (recordOf d eventId at' seq) ++ "\n")) =
      some (Json.stringify (recordOf d eventId at' seq) ++ "\n") := by
    refine Option.filter_eq_some_iff.mpr ⟨rfl, ?_⟩
    have ends : Json.stringify (recordOf d eventId at' seq) ++ "\n" ≠ "" := by
      intro none
      have texts := congrArg String.toList none
      simp at texts
    simp [ends]
  rw [recordIn, there, Option.bind_some, Json.parse_stringify _ decimal]
  simp [names, recordOf, Json.field, Json.same]

/-- What one announcement does to the records. -/
structure Announced (host : Host) (start : Option String) (id : String) (force : Bool) (w final : World Operator Unit)
    (outcome : Except String Report) : Prop where
  /-- What was published was not on record, but for `--force`, and is on record now. -/
  sent : ∀ r, outcome = .ok r → r.published = true → ∃ release, r.release = some release ∧
    (force = true ∨ names (onRecord host id start w.trace) release = false) ∧
    names (onRecord host id start final.trace) release = true
  quiet : (∀ r, outcome = .ok r → r.published = false) → SameFiles w final
  others : ∀ path begin, path ≠ stateFile host id → standing path begin final.trace = standing path begin w.trace

/-- Nothing was published and nothing written. -/
theorem Announced.none {force : Bool} {w final : World Operator Unit} {outcome : Except String Report}
    (silent : ∀ r, outcome = .ok r → r.published = false) (same : SameFiles w final) :
    Announced host start service force w final outcome where
  sent r ended yes := by simp [silent r ended] at yes
  quiet _ := same
  others path begin _ := same path begin

/-- Steps before that write nothing. -/
theorem Announced.after {force : Bool} {w mid final : World Operator Unit} {outcome : Except String Report}
    (announced : Announced host start service force mid final outcome) (same : SameFiles w mid) :
    Announced host start service force w final outcome where
  sent r ended yes := by
    obtain ⟨release, named, free, there⟩ := announced.sent r ended yes
    rw [same.record service start] at free
    exact ⟨release, named, free, there⟩
  quiet silent := same.trans (announced.quiet silent)
  others path begin other := (announced.others path begin other).trans (same path begin)

/-- A send publishes what it may, and puts it on record. -/
theorem send_record {d : Description} {at' : Nat} {eventId : String} {report : Report} {force : Bool}
    {w final : World Operator Unit} {outcome : Except String Report} {made : List (Event Operator)}
    (works : Works env host d.service) (fresh : report.published = false) (named : report.release = some d.release)
    (free : force = true ∨ names (onRecord host d.service start w.trace) d.release = false)
    (run : Goes env (send runtime host creds d at' eventId event report) w outcome made final) :
    Announced host start d.service force w final outcome := by
  unfold send at run
  rcases goes_bind.mp run with ⟨e, failed, rfl⟩ | ⟨published, first, mid, rest, sent, after, -⟩
  · exact .none (fun r ended => by cases ended) (sameFiles_quiet emits_publish failed)
  · have same := sameFiles_quiet emits_publish sent
    cases published with
    | failed stage error =>
      obtain ⟨rfl, -, rfl⟩ := goes_pure.mp after
      refine .none (fun r ended => ?_) same
      cases ended
      exact fresh
    | stored seq duplicate attempts =>
      simp only [goes_mkdir] at after
      obtain ⟨later, after, -⟩ := after
      rw [works.dir mid.trace] at after
      simp only [goes_writeFile] at after
      obtain ⟨last, after, -⟩ := after
      obtain ⟨rfl, -, rfl⟩ := goes_pure.mp after
      have before : SameFiles w (called env (.mkdir (host.stateDir ++ "/announced")) mid) :=
        same.trans (sameFiles_called (.mkdir (host.stateDir ++ "/announced")) rfl)
      constructor
      · intro r ended _
        cases ended
        refine ⟨d.release, named, free, ?_⟩
        unfold onRecord
        rw [standing_written works.file]
        exact names_recordOf d eventId (Dates.isoString at') seq
      · intro silent
        cases silent _ rfl
      · intro path begin other
        rw [standing_called (by simpa [writesAt] using Ne.symm other)]
        exact before path begin

theorem announceDescribed_record {d : Description} {known : Option Credentials} {w final : World Operator Unit}
    {outcome : Except String Report} {made : List (Event Operator)} (reads : Reads env (stateFile host d.service) start)
    (works : Works env host d.service)
    (run : Goes env (announceDescribed runtime host options known d) w outcome made final) :
    Announced host start d.service options.force w final outcome := by
  simp only [announceDescribed, goes_now_bind, newId] at run
  obtain ⟨rest, run, -⟩ := goes_ask_bind.mp run
  have same : SameFiles w (called env (.newId "event") w) := sameFiles_called (.newId "event") rfl
  cases known with
  | none =>
    obtain ⟨rfl, -, rfl⟩ := goes_pure.mp run
    exact .none (fun r ended => by cases ended; rfl) same
  | some creds =>
    obtain ⟨after, mid, run, kept⟩ := goes_readState reads run
    refine Announced.after ?_ (same.trans kept)
    rw [← kept.record d.service start] at run
    split at run
    · rename_i record there
      split at run
      · obtain ⟨rfl, -, rfl⟩ := goes_pure.mp run
        exact .none (fun r ended => by cases ended; rfl) fun _ _ => rfl
      · rename_i goesOn
        refine send_record works rfl rfl ?_ run
        by_cases forced : options.force = true
        · exact .inl forced
        · exact .inr (by simpa [forced] using goesOn)
    · rename_i nothing
      refine send_record works rfl rfl (.inr ?_) run
      rw [nothing]
      rfl

theorem describeRelease_service {d : Description} {w final : World Operator Unit} {made : List (Event Operator)}
    (run : Goes env (describeRelease runtime host id options) w (.ok d) made final) : d.service = id := by
  have meets : Meets env (fun _ => True) (describeRelease runtime host id options) (fun d _ => d.service = id)
      (fun _ _ => True) := by
    unfold describeRelease
    split
    · exact meets_throw fun _ _ => trivial
    · refine meets_bind (meets_anyhow _) fun asked => meets_bind (meets_anyhow _) fun commit => ?_
      refine meets_bind (meets_anyhow _) fun served => meets_bind (meets_anyhow _) fun sha => ?_
      split
      · exact meets_throw fun _ _ => trivial
      · exact meets_bind (meets_anyhow _) fun origin => meets_pure fun _ _ => rfl
  exact run.ends meets trivial

/-- What a run of `ovhost announce` does to the records. -/
theorem announce_record {w final : World Operator Unit} {outcome : Except String Report} {made : List (Event Operator)}
    (reads : Reads env (stateFile host id) start) (works : Works env host id)
    (run : Goes env (announce runtime host id options) w outcome made final) :
    Announced host start id options.force w final outcome := by
  have described : ∀ {known : Option Credentials} {w' : World Operator Unit} {made : List (Event Operator)},
      SameFiles w w' →
      Goes env (describeRelease runtime host id options >>= announceDescribed runtime host options known) w' outcome made
        final → Announced host start id options.force w final outcome := by
    intro known w' made same run
    rcases goes_bind.mp run with ⟨e, failed, rfl⟩ | ⟨d, first, mid, rest, described, next, -⟩
    · refine .none (fun r ended => by cases ended) (same.trans (sameFiles_quiet emits_describeRelease failed))
    · obtain rfl := describeRelease_service described
      exact (announceDescribed_record reads works next).after
        (same.trans (sameFiles_quiet emits_describeRelease described))
  unfold announce at run
  split at run
  · exact described (fun _ _ => rfl) run
  · rcases goes_bind.mp run with ⟨e, failed, rfl⟩ | ⟨loaded, first, mid, rest, loads, run, -⟩
    · exact .none (fun r ended => by cases ended) (sameFiles_quiet (emits_loadCredentials fun _ _ => rfl) failed)
    · have same := sameFiles_quiet (emits_loadCredentials fun _ _ => rfl) loads
      cases loaded with
      | error error =>
        dsimp only at run
        split at run
        · obtain ⟨rfl, -, rfl⟩ := goes_throw.mp run
          exact .none (fun r ended => by cases ended) same
        · obtain ⟨rfl, -, rfl⟩ := goes_pure.mp run
          exact .none (fun r ended => by cases ended; rfl) same
      | ok known => exact described same run

/-! ### Many runs -/

/-- A run of `ovhost announce` for a service. -/
abbrev Run := Ran (String × Options) Report

/-- A call that writes no record of an announcement. -/
def Apart (host : Host) (call : Operator.Call) : Prop := ∀ service, writesAt (stateFile host service) call = false

/-- Announcements one after the other, with what else happens in between. -/
abbrev Announcements (env : Environment Operator) (runtime : Runtime) (host : Host) :
    World Operator Unit → List Run → World Operator Unit → Prop :=
  History env (fun input => announce runtime host input.1 input.2) (Apart host)

/-- The release that a run published for a service, and whether it was forced. -/
def publishedBy (service : String) (run : Run) : Option (String × Bool) :=
  match run.outcome with
  | .ok r =>
    if run.input.1 = service ∧ r.published then r.release.map fun release => (release, run.input.2.force) else none
  | .error _ => none

/-- The releases that were published for a service. -/
def published (service : String) (runs : List Run) : List (String × Bool) := runs.filterMap (publishedBy service)

/-- The records of all services stand and can be written. -/
structure Records (env : Environment Operator) (host : Host) (start : String → Option String) : Prop where
  reads : ∀ service, Reads env (stateFile host service) (start service)
  works : ∀ service, Works env host service

variable {starts : String → Option String}

/-- A run that publishes nothing for a service leaves its record. -/
theorem standing_unpublished {mid final : World Operator Unit} {run : Run}
    (announced : Announced host (starts run.input.1) run.input.1 run.input.2.force mid final run.outcome)
    (unpublished : publishedBy service run = none) :
    standing (stateFile host service) start final.trace = standing (stateFile host service) start mid.trace := by
  by_cases here : run.input.1 = service
  · refine announced.quiet (fun r ended => ?_) _ _
    by_contra yes
    have yes : r.published = true := by simpa using yes
    obtain ⟨release, named, -⟩ := announced.sent r ended yes
    simp [publishedBy, ended, here, yes, named] at unpublished
  · exact announced.others _ _ (stateFile_ne fun same => here same.symm)

/-- A run that publishes a release for a service puts it on record, where it was not unless it is forced. -/
theorem names_published {mid final : World Operator Unit} {run : Run} {sent : String × Bool}
    (announced : Announced host (starts run.input.1) run.input.1 run.input.2.force mid final run.outcome)
    (published : publishedBy service run = some sent) :
    (sent.2 = true ∨ names (onRecord host service (starts service) mid.trace) sent.1 = false) ∧
      names (onRecord host service (starts service) final.trace) sent.1 = true := by
  unfold publishedBy at published
  split at published
  · rename_i r ended
    split at published
    · rename_i yes
      obtain ⟨rfl, yes⟩ := yes
      obtain ⟨release, named, free, there⟩ := announced.sent r ended yes
      rw [named] at published
      cases published
      exact ⟨free, there⟩
    · cases published
  · cases published

/-- What is not forced is not what was published just before, or was on record at first. -/
def Differ (first : Option Json) (sent : List (String × Bool)) : Prop :=
  (∀ release ∈ sent.head?, release.2 = true ∨ names first release.1 = false) ∧
    sent.IsChain fun earlier later => later.2 = true ∨ earlier.1 ≠ later.1

/-- What holds of the record of a service after the runs that published `sent`. -/
structure Noted (host : Host) (service : String) (start : Option String) (w final : World Operator Unit)
    (sent : List (String × Bool)) : Prop where
  untouched : sent = [] →
    standing (stateFile host service) start final.trace = standing (stateFile host service) start w.trace
  last : ∀ release ∈ sent.getLast?, names (onRecord host service start final.trace) release.1 = true
  differ : Differ (onRecord host service start w.trace) sent

/-- The record stays as it is. -/
theorem Noted.kept {w mid final : World Operator Unit} {sent : List (String × Bool)}
    (noted : Noted host service start w mid sent)
    (same : standing (stateFile host service) start final.trace = standing (stateFile host service) start mid.trace) :
    Noted host service start w final sent where
  untouched none := same.trans (noted.untouched none)
  last release there := by
    unfold onRecord
    rw [same]
    exact noted.last release there
  differ := noted.differ

/-- One more release is published. -/
theorem Noted.snoc {w mid final : World Operator Unit} {sent : List (String × Bool)} {release : String × Bool}
    (noted : Noted host service start w mid sent)
    (free : release.2 = true ∨ names (onRecord host service start mid.trace) release.1 = false)
    (there : names (onRecord host service start final.trace) release.1 = true) :
    Noted host service start w final (sent ++ [release]) where
  untouched none := by simp at none
  last other last := by
    rw [List.getLast?_concat] at last
    cases last
    exact there
  differ := by
    refine ⟨fun other first => ?_, ?_⟩
    · cases sent with
      | nil =>
        cases first
        have same := noted.untouched rfl
        unfold onRecord at free ⊢
        rwa [same] at free
      | cons earlier rest => exact noted.differ.1 other first
    · refine List.isChain_append.mpr ⟨noted.differ.2, List.isChain_singleton _, fun earlier last later only => ?_⟩
      cases only
      refine free.imp_right fun unnamed same => ?_
      rw [← same, noted.last earlier last] at unnamed
      cases unnamed

theorem history_noted (records : Records env host starts) {w final : World Operator Unit} {runs : List Run}
    (history : Announcements env runtime host w runs final) (service : String) :
    Noted host service (starts service) w final (published service runs) := by
  induction history with
  | start => exact ⟨fun _ => rfl, by simp [published], by simp [published, Differ]⟩
  | meanwhile before later trace elsewhere ih =>
    refine ih.kept ?_
    rw [trace]
    exact standing_append _ fun event mem => elsewhere event mem service
  | @ran mid final runs made input outcome before ran ih =>
    have announced := announce_record (records.reads input.1) (records.works input.1) ran
    generalize last : (⟨input, outcome, mid.clock, final.clock⟩ : Run) = run
    have announced : Announced host (starts run.input.1) run.input.1 run.input.2.force mid final run.outcome := by
      rw [← last]
      exact announced
    rw [published, List.filterMap_append]
    cases sent : publishedBy service run with
    | none =>
      rw [List.filterMap_cons_none sent, List.filterMap_nil, List.append_nil]
      exact ih.kept (standing_unpublished announced sent)
    | some release =>
      rw [List.filterMap_cons_some sent, List.filterMap_nil]
      obtain ⟨free, there⟩ := names_published announced sent
      exact ih.snoc free there

/-- Events that takes what it is sent. -/
def taking : Environment Operator := hosted (fun _ => 1) { status := 201, body := "\x7b\"seq\":7\x7d" }

def localHost : Host := { stateDir := "/var/lib/ovhost", services := fun _ => none }

theorem taking_records : Records taking localHost fun _ => none where
  reads service trace privileged := by
    have apart : stateFile localHost service ≠ defaultEnvFile := by
      intro same
      have texts := congrArg String.toList same
      simp [stateFile, localHost, defaultEnvFile, String.toList_append] at texts
    simp only [taking, hosted, if_neg apart]
    rfl
  works service := ⟨fun _ => rfl, fun _ _ => rfl⟩

def live (w : World Operator Unit) (release : String) : Run :=
  ranOf taking (fun input => announce onHost localHost input.1 input.2) w ("live", { release })

def afterLive (w : World Operator Unit) (release : String) : World Operator Unit :=
  afterRun taking (fun input => announce onHost localHost input.1 input.2) w ("live", { release })

def afterFirst : World Operator Unit := afterLive started "aaaaaaa"

def afterSecond : World Operator Unit := afterLive afterFirst "aaaaaaa"

/-- A release that is announced twice, and then another one. -/
def releases : List Run := [live started "aaaaaaa", live afterFirst "aaaaaaa", live afterSecond "bbbbbbb"]

end

end OpenVibeHost.Announce
