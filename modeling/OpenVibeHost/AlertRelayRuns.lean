import OpenVibeHost.AlertRelay
import OpenVibeHost.AnnouncementRuns

/-! What a relay run sends, and what the metrics of many runs say of the last that delivered. -/
namespace OpenVibeHost.AlertRelay
open Effects Program Operator MetricFiles OrderedMaps.OrderedMap

section
variable {env : Environment Operator} {runtime : Runtime} {host : Host} {options : Options} {w final : World Operator Unit}
  {made : List (Event Operator)} {r : Report} {start : Option String}

/-! ### The set -/

/-- No fingerprint comes twice, what is sent of one is the last alert that fires under it, and where there is room none is
missing. -/
theorem toReport_complete (runtime : Runtime) (now : Nat) (alerts : List Json) :
    ∃ kept : List (String × Json), toReport runtime now alerts = kept.map Prod.snd ∧
      (kept.map Prod.fst).Nodup ∧ kept.length ≤ most ∧
      (∀ fingerprint item, (fingerprint, item) ∈ kept →
        (alerts.filterMap (itemOf runtime now)).reverse.lookup fingerprint = some item) ∧
      (kept.length < most → ∀ fingerprint item,
        (alerts.filterMap (itemOf runtime now)).reverse.lookup fingerprint = some item → (fingerprint, item) ∈ kept) := by
  generalize pairs : alerts.filterMap (itemOf runtime now) = found
  refine ⟨(ofPairs found).entries.take most, ?_, ?_, ?_, ?_, ?_⟩
  · rw [toReport, pairs, List.map_take]
  · rw [List.map_take]
    exact (ofPairs found).distinct.sublist (List.take_sublist _ _)
  · exact List.length_take_le _ _
  · intro fingerprint item mem
    rw [← get_ofPairs]
    exact get_eq_some_iff.mpr (List.mem_of_mem_take mem)
  · intro room fingerprint item last
    rw [← get_ofPairs] at last
    have whole : (ofPairs found).entries.take most = (ofPairs found).entries := by
      refine List.take_of_length_le ?_
      rw [List.length_take] at room
      omega
    rw [whole]
    exact get_eq_some_iff.mp last

/-! ### The metrics -/

/-- The metrics of a run at `now`, where the last that delivered is at `lastOk`. -/
def metricsText (r : Report) (now : Nat) (lastOk : Option Nat) : String :=
  String.ofList (fileOf (metricLines r now lastOk))

theorem runLines_plain (r : Report) (now : Nat) : ∀ line ∈ runLines r now, plain line = true := by
  have ran := plain_toDigits now
  have ok : plain (if r.ok then ['1'] else ['0']) = true := by split <;> decide
  have firing : plain (r.firing.elim "NaN".toList (Nat.toDigits 10)) = true := by
    cases r.firing with
    | none => decide
    | some firing => exact plain_toDigits firing
  intro line mem
  simp only [runLines, List.append_assoc, List.mem_append] at mem
  rcases mem with mem | mem | mem
  · exact gauge_plain (by decide +kernel) (by decide +kernel) ran line mem
  · exact gauge_plain (by decide +kernel) (by decide +kernel) ok line mem
  · exact gauge_plain (by decide +kernel) (by decide +kernel) firing line mem

theorem metricLines_plain (r : Report) (now : Nat) (lastOk : Option Nat) :
    ∀ line ∈ metricLines r now lastOk, plain line = true := by
  intro line mem
  rcases List.mem_append.mp mem with mem | mem
  · exact runLines_plain r now line mem
  · cases last : lastOk.filter (· ≠ 0) with
    | none =>
      rw [last] at mem
      cases mem
    | some second =>
      rw [last] at mem
      exact gauge_plain (by decide +kernel) (by decide +kernel) (plain_toDigits second) line mem

/-- What a run writes of the last that delivered is what the next one reads. -/
theorem lastSuccess_metricsText (r : Report) (now : Nat) (lastOk : Option Nat) :
    lastSuccess (some (metricsText r now lastOk)) = lastOk.filter (· ≠ 0) := by
  have named : isName successName.toList = true := by decide +kernel
  have others : (runLines r now).findSome? (reading successName.toList) = none := by
    rw [runLines, List.findSome?_append, List.findSome?_append,
      findSome_gauge_other named (by decide +kernel) (by decide +kernel),
      findSome_gauge_other named (by decide +kernel) (by decide +kernel),
      findSome_gauge_other named (by decide +kernel) (by decide +kernel)]
    rfl
  rw [lastSuccess, Option.getD_some, metricsText, String.toList_ofList,
    readingIn_fileOf (metricLines_plain r now lastOk), metricLines, List.findSome?_append, others, Option.none_or]
  cases lastOk.filter (· ≠ 0) with
  | none => rfl
  | some second => exact findSome_gauge named second

/-- The directory of the metrics is there, and its file can be read and written. -/
structure Works (env : Environment Operator) (host : Host) (start : Option String) : Prop where
  dir : ∀ trace : List (Event Operator), ∃ entries, env.answer trace (.readdir (directory host)) = some entries
  reads : Reads env (metricsFile host) start
  writes : Writes env (metricsFile host)

theorem writeMetrics_ok {result : Except String Unit} (run : Goes env (writeMetrics host r) w result made final) :
    result = .ok () := by
  simp only [writeMetrics, goes_readdir] at run
  obtain ⟨listed, run, -⟩ := run
  split at run
  · exact (goes_pure.mp run).1
  · simp only [goes_now_bind] at run
    split at run
    · obtain ⟨wrote, after, -⟩ := goes_writeFile.mp run
      exact (goes_pure.mp after).1
    · obtain ⟨read, after, -⟩ := goes_readFile.mp run
      split at after
      · exact (goes_pure.mp after).1
      · obtain ⟨wrote, last, -⟩ := goes_writeFile.mp after
        exact (goes_pure.mp last).1

/-- What stands after the metrics of a run: its own second where it delivered, or the second that stood. -/
theorem writeMetrics_stands (works : Works env host start) {result : Except String Unit}
    (run : Goes env (writeMetrics host r) w result made final) :
    ∃ now lastOk, standing (metricsFile host) start final.trace = some (metricsText r now lastOk) ∧
      w.clock / 1000 ≤ now ∧ now ≤ final.clock / 1000 ∧
      lastOk = if r.ok ∧ now ≠ 0 then some now else lastSuccess (standing (metricsFile host) start w.trace) := by
  simp only [writeMetrics, goes_readdir] at run
  obtain ⟨listed, run, -⟩ := run
  obtain ⟨entries, there⟩ := works.dir w.trace
  rw [there] at run
  simp only [goes_now_bind] at run
  have began : w.clock / 1000 ≤ (called env (.readdir (directory host)) w).clock / 1000 :=
    Nat.div_le_div_right (Nat.le_add_right _ _)
  have listing : standing (metricsFile host) start (called env (.readdir (directory host)) w).trace =
      standing (metricsFile host) start w.trace := standing_called rfl
  generalize called env (.readdir (directory host)) w = mid at began listing run
  split at run
  · rename_i ok
    have ended := Nat.div_le_div_right (c := 1000) run.onward
    obtain ⟨wrote, after, -⟩ := goes_writeFile.mp run
    obtain ⟨-, -, rfl⟩ := goes_pure.mp after
    exact ⟨_, _, standing_written works.writes, began, ended, (if_pos ok).symm⟩
  · rename_i failed
    have ended := Nat.div_le_div_right (c := 1000) run.onward
    obtain ⟨read, after, -⟩ := goes_readFile.mp run
    rw [works.reads] at after
    obtain ⟨wrote, last, -⟩ := goes_writeFile.mp after
    obtain ⟨-, -, rfl⟩ := goes_pure.mp last
    refine ⟨_, _, standing_written works.writes, began, ended, ?_⟩
    rw [if_neg failed, listing]

/-! ### What is sent -/

/-- What a run asks, and what its report says of it. -/
inductive Asked (runtime : Runtime) (host : Host) (options : Options) : List (Request × HttpAnswer) → Report → Prop where
  /-- Prometheus does not answer, the run is dry or there are no credentials: nothing is sent. -/
  | unsent {p : HttpAnswer} {r : Report}
      (dry : r.ok = true → options.dryRun = true ∧ ∃ firing, alertsIn p = some firing) :
      Asked runtime host options [(alertsRequest host options, p)] r
  /-- Network gives no token. -/
  | refused {p t : HttpAnswer} {creds : Announce.Credentials} {r : Report} (none : tokenIn t = none)
      (failed : r.ok = false) :
      Asked runtime host options [(alertsRequest host options, p), (tokenRequest runtime creds, t)] r
  /-- The complete set that Prometheus answered is sent, once. -/
  | sent {p t d : HttpAnswer} {creds : Announce.Credentials} {firing : List Json} {token : String} {read sentAt : Nat}
      {r : Report} (answered : alertsIn p = some firing) (some : tokenIn t = some token) (ended : r.ok = delivered d) :
      Asked runtime host options [(alertsRequest host options, p), (tokenRequest runtime creds, t),
        (deliverRequest creds token (bodyOf sentAt (toReport runtime read firing)), d)] r

variable {result : Except String Report} {asked : List (Request × HttpAnswer)}

/-- A run that comes to the report `r` after `asked`; it writes no file until it finishes. -/
inductive Reports (env : Environment Operator) (host : Host) (options : Options) (r : Report) :
    List (Request × HttpAnswer) → World Operator Unit → Except String Report → List (Event Operator) →
      World Operator Unit → Prop where
  | ends {w final : World Operator Unit} {result : Except String Report} {made : List (Event Operator)}
      (run : Goes env (finish host options r) w result made final) : Reports env host options r [] w result made final
  | after {w mid final : World Operator Unit} {result : Except String Report} {first rest : List (Event Operator)}
      {asked : List (Request × HttpAnswer)} (trace : mid.trace = w.trace ++ first) (onward : w.clock ≤ mid.clock)
      (silent : ∀ event ∈ first, quiet event.call = true) (later : Reports env host options r asked mid result rest final) :
      Reports env host options r (exchanges first ++ asked) w result (first ++ rest) final

theorem reports_request {sent : Request} {rest : List (Event Operator)}
    (later : Reports env host options r asked (called env (.request sent) w) result rest final) :
    Reports env host options r ((sent, replied env w sent) :: asked) w result (eventOf env (.request sent) w :: rest)
      final := by
  have silent : ∀ event ∈ [eventOf env (.request sent) w], quiet event.call = true := by simp [eventOf, quiet]
  exact .after rfl (Nat.le_add_right _ _) silent later

theorem emits_writeMetrics : Emits (S := Operator) unasked (writeMetrics host r) := by
  refine emits_bind (emits_call rfl) fun listed => ?_
  split
  · exact emits_pure _
  · refine emits_bind emits_now fun clock => ?_
    dsimp only
    split
    · exact emits_bind (emits_call rfl) fun _ => emits_pure _
    · refine emits_bind (emits_call rfl) fun read => ?_
      split
      · exact emits_pure _
      · exact emits_bind (emits_call rfl) fun _ => emits_pure _

theorem finish_goes (run : Goes env (finish host options r) w result made final) :
    result = .ok r ∧ exchanges made = [] := by
  have silent : Emits (S := Operator) unasked (finish host options r) := by
    unfold finish whenever
    refine emits_bind ?_ fun _ => emits_pure _
    split
    · exact emits_writeMetrics
    · exact emits_pure _
  refine ⟨?_, exchanges_none (run.emitted silent)⟩
  unfold finish at run
  rcases goes_bind.mp run with ⟨e, failed, -⟩ | ⟨_, first, mid, rest, -, after, -⟩
  · unfold whenever at failed
    split at failed
    · cases writeMetrics_ok failed
    · cases (goes_pure.mp failed).1
  · exact (goes_pure.mp after).1

theorem Reports.answers (reports : Reports env host options r asked w result made final) :
    result = .ok r ∧ exchanges made = asked := by
  induction reports with
  | ends run => exact finish_goes run
  | after trace onward silent later ih => exact ⟨ih.1, by rw [exchanges_append, ih.2]⟩

theorem loadCredentials_ok {envFile : Option String} {loaded : Except String (Except String Announce.Credentials)}
    (run : Goes env (Announce.loadCredentials runtime.announce host.announce envFile) w loaded made final) :
    ∃ found, loaded = .ok found := by
  unfold Announce.loadCredentials at run
  dsimp only at run
  split at run
  · exact ⟨_, (goes_pure.mp run).1⟩
  · obtain ⟨rest, after, -⟩ := goes_readFile.mp run
    split at after <;> exact ⟨_, (goes_pure.mp after).1⟩

theorem deliver_reports {p : HttpAnswer} {creds : Announce.Credentials} {firing : List Json} {read sentAt : Nat}
    (answered : alertsIn p = some firing)
    (run : Goes env (deliver runtime host options creds sentAt (toReport runtime read firing)) w result made final) :
    ∃ r asked, Asked runtime host options ((alertsRequest host options, p) :: asked) r ∧
      Reports env host options r asked w result made final := by
  simp only [deliver, goes_request] at run
  obtain ⟨rest, run, rfl⟩ := run
  generalize answer : replied env w (tokenRequest runtime creds) = t at run
  have asking : ∀ {r : Report} {asked : List (Request × HttpAnswer)},
      Reports env host options r asked (called env (.request (tokenRequest runtime creds)) w) result rest final →
        Reports env host options r ((tokenRequest runtime creds, t) :: asked) w result
          (eventOf env (.request (tokenRequest runtime creds)) w :: rest) final :=
    fun later => answer ▸ reports_request later
  split at run
  · rename_i none
    exact ⟨_, _, .refused none rfl, asking (.ends run)⟩
  · rename_i token some
    simp only [goes_request] at run
    obtain ⟨last, run, rfl⟩ := run
    split at run
    · rename_i took
      exact ⟨_, _, .sent answered some took.symm, asking (reports_request (.ends run))⟩
    · rename_i refused
      exact ⟨_, _, .sent answered some (by simpa using refused), asking (reports_request (.ends run))⟩

theorem relay_reports (run : Goes env (relay runtime host options) w result made final) :
    ∃ r asked, Asked runtime host options asked r ∧ Reports env host options r asked w result made final := by
  simp only [relay, goes_request] at run
  obtain ⟨rest, run, rfl⟩ := run
  generalize answer : replied env w (alertsRequest host options) = p at run
  have asking : ∀ {r : Report} {asked : List (Request × HttpAnswer)},
      Reports env host options r asked (called env (.request (alertsRequest host options)) w) result rest final →
        Reports env host options r ((alertsRequest host options, p) :: asked) w result
          (eventOf env (.request (alertsRequest host options)) w :: rest) final :=
    fun later => answer ▸ reports_request later
  split at run
  · exact ⟨_, _, .unsent (by simp), asking (.ends run)⟩
  · rename_i firing answered
    simp only [goes_now_bind] at run
    split at run
    · rename_i dry
      have ends : ∀ r, finish host options r = pure r := by
        intro r
        unfold finish whenever
        rw [if_neg fun both => both.2 dry]
        rfl
      rw [← ends] at run
      exact ⟨_, _, .unsent fun _ => ⟨dry, firing, answered⟩, asking (.ends run)⟩
    · have silent : Emits (S := Operator) (fun call => quiet call && unasked call)
          (Announce.loadCredentials runtime.announce host.announce options.envFile) :=
        Announce.emits_loadCredentials fun _ _ => rfl
      rcases goes_bind.mp run with ⟨e, failed, -⟩ | ⟨loaded, first, mid, later, loads, after, rfl⟩
      · obtain ⟨found, loaded⟩ := loadCredentials_ok failed
        cases loaded
      · have loading : ∀ {r : Report} {asked : List (Request × HttpAnswer)},
            Reports env host options r asked mid result later final →
              Reports env host options r asked (called env (.request (alertsRequest host options)) w) result
                (first ++ later) final := by
          intro r asked reports
          have calls := loads.emitted silent
          have none := exchanges_none fun event mem => (Bool.and_eq_true_iff.mp (calls event mem)).2
          have more := Reports.after loads.trace loads.onward
            (fun event mem => (Bool.and_eq_true_iff.mp (calls event mem)).1) reports
          rwa [none] at more
        split at after
        · exact ⟨_, _, .unsent (by simp), asking (loading (.ends after))⟩
        · obtain ⟨r, asked, sends, reports⟩ := deliver_reports answered after
          exact ⟨r, _, sends, asking (loading reports)⟩

def onHost : Runtime where
  sha256 text := text
  dateParse _ := none
  announce := Announce.onHost

/-- One alert that fires. -/
def firingBody : String := Json.stringify (.obj [("status", .str "success"), ("data", .obj [("alerts", .arr [
  .obj [("state", .str "firing"), ("labels", .obj [("alertname", .str "DiskFull")])]])])])

/-- A host with Prometheus and Network; another Prometheus does not answer. -/
def relaying : Environment Operator where
  takes _ _ := 250
  answer past
    | .request sent =>
      if sent.url = "http://127.0.0.1:9090/api/v1/alerts" then { status := 200, body := firingBody }
      else if sent.url = "http://127.0.0.1:4000/oauth/token" then
        { status := 200, body := "\x7b\"access_token\":\"t\"\x7d" }
      else if sent.url = "http://127.0.0.1:4000/internal/operator/alerts" then
        { status := 200, body := "\x7b\"ok\":true\x7d" }
      else { error := "ECONNREFUSED" }
    | .readFile path _ =>
      .ok (if path = Announce.defaultEnvFile then
          some "EVENTS_URL=http://127.0.0.1:4300\nOV_OAUTH_CLIENT_SECRET=hush\n"
        else standing path none past)
    | .readdir _ => some []
    | .writeFile .. | .mkdir _ => .ok ()
    | .head .. => .error "not a git repository"
    | .newId kind => kind ++ "_1"
    | .http .. => { error := "ECONNREFUSED" }
    | .check .. => { code := 1 }
    | .sleep _ => ()

def localHost : Host where
  announce := Announce.localHost

def begun : World Operator Unit := ⟨(), 5000000, []⟩

/-- The second of the last run that delivered, as metrics have it; 0 is none. -/
def successIn (text : Option String) : Option Nat := (lastSuccess text).filter (· ≠ 0)

/-- The second of the last run that delivered, as the metrics that stand have it. -/
def successAt (host : Host) (start : Option String) (trace : List (Event Operator)) : Option Nat :=
  successIn (standing (metricsFile host) start trace)

/-- A run with metrics whose set Network took. -/
def delivers (run : Ran Options Report) : Bool :=
  run.input.metrics && !run.input.dryRun && run.outcome.toOption.any Report.ok

/-- A second between two times. -/
def Within (began ended : Nat) (second : Option Nat) : Prop :=
  ∃ s, second = some s ∧ began / 1000 ≤ s ∧ s ≤ ended / 1000

theorem finish_leaves (works : Works env host start) (clock : 1000 ≤ w.clock)
    (run : Goes env (finish host options r) w result made final) :
    Leaves (options.metrics && !options.dryRun && r.ok) (Within w.clock final.clock) (successAt host start w.trace)
      (successAt host start final.trace) := by
  unfold finish whenever at run
  split at run
  · rename_i on
    rcases goes_bind.mp run with ⟨e, failed, -⟩ | ⟨_, first, mid, rest, metrics, after, -⟩
    · cases writeMetrics_ok failed
    · obtain ⟨-, -, rfl⟩ := goes_pure.mp after
      obtain ⟨now, lastOk, stands, began, ended, last⟩ := writeMetrics_stands works metrics
      have positive : now ≠ 0 := by omega
      have reads : successAt host start final.trace = lastOk.filter (· ≠ 0) := by
        rw [successAt, successIn, stands, lastSuccess_metricsText, Option.filter_filter]
        simp
      rw [reads, last]
      refine ⟨fun ok => ⟨now, ?_, began, ended⟩, fun failed => ?_⟩
      · rw [if_pos ⟨(Bool.and_eq_true_iff.mp ok).2, positive⟩]
        simp [positive]
      · rw [if_neg fun both => by simp [on, both.1] at failed]
        rfl
  · rename_i off
    obtain ⟨-, -, rfl⟩ := goes_pure.mp run
    exact ⟨fun on => absurd (by simpa [and_assoc] using (Bool.and_eq_true_iff.mp on).1) off, fun _ => rfl⟩

theorem Reports.leaves (works : Works env host start) (clock : 1000 ≤ w.clock)
    (reports : Reports env host options r asked w result made final) :
    Leaves (options.metrics && !options.dryRun && r.ok) (Within w.clock final.clock) (successAt host start w.trace)
      (successAt host start final.trace) := by
  induction reports with
  | ends run => exact finish_leaves works clock run
  | @after w mid final result first rest asked trace onward silent later ih =>
    have left := ih (clock.trans onward)
    have same : successAt host start (w.trace ++ first) = successAt host start w.trace :=
      congrArg successIn (standing_append w.trace fun event mem => by
        have quiet := silent event mem
        cases call : event.call <;> rw [call] at quiet <;> first | rfl | cases quiet)
    rw [trace, same] at left
    refine ⟨fun counts => ?_, left.kept⟩
    obtain ⟨second, stands, began, ended⟩ := left.own counts
    exact ⟨second, stands, (Nat.div_le_div_right onward).trans began, ended⟩

theorem relaying_works : Works relaying localHost none where
  dir _ := ⟨[], rfl⟩
  reads trace privileged := by
    have apart : metricsFile localHost ≠ Announce.defaultEnvFile := by decide +kernel
    simp only [relaying, if_neg apart]
    rfl
  writes _ _ := rfl

/-- Runs of the relay on this host. -/
abbrev Relays : World Operator Unit → List (Ran Options Report) → World Operator Unit → Prop :=
  History relaying (relay onHost localHost) fun call => writesAt (metricsFile localHost) call = false

/-- The other Prometheus. -/
def elsewhere : Options where
  prometheus := some "http://10.0.0.9:9090"

/-- A run that delivers, and one that Prometheus does not answer. -/
def relays : List (Ran Options Report) :=
  [ranOf relaying (relay onHost localHost) begun {},
    ranOf relaying (relay onHost localHost) (afterRun relaying (relay onHost localHost) begun {}) elsewhere]

end

end OpenVibeHost.AlertRelay
