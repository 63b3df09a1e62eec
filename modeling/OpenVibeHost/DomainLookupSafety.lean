import OpenVibeHost.DomainLookups

/-! What holds of lookups at the registries however they interleave: one load of the directory at a time, what an answer
rests on, and what is kept of the answers. -/
namespace OpenVibeHost.Rdap
open Transition OrderedMaps

/-! ### The log -/

/-- Whether the load of the directory that was asked for last goes on. -/
def fetching : List Event → Bool
  | [] => false
  | .directoryAsked _ :: _ => true
  | .directoryOver :: _ => false
  | _ :: earlier => fetching earlier

/-- When the directory was loaded last. -/
def lastLoaded : List Event → Option Int
  | [] => none
  | .directoryLoaded time _ :: _ => some time
  | _ :: earlier => lastLoaded earlier

/-- A server that a directory which was loaded lists for the ending of a name. -/
def Listed (log : List Event) (name base : String) : Prop :=
  ∃ time servers, .directoryLoaded time servers ∈ log ∧ servers.map.get (tldOf name) = some base

variable (runtime : Runtime)

/-- The registry that the directory names for a name's ending was asked for it, and said this. -/
def Said (log : List Event) (name : String) (answer : Answer) : Prop :=
  ∃ base code body, Listed log name base ∧ .registryAsked name (target runtime base name) ∈ log ∧
    .registryAnswered name (target runtime base name) code body ∈ log ∧
    answer = verdict runtime (runtime.hostname base) code body

/-- What has to be in the log before an event comes. -/
def grounds (earlier : List Event) : Event → Prop
  | .directoryAsked time => fetching earlier = false ∧ ∀ last, lastLoaded earlier = some last → bootstrapTtl ≤ time - last
  | .registryAsked name url => ∃ base, Listed earlier name base ∧ Secure base ∧ url = target runtime base name
  | .replied time name answer true =>
    ∃ before, .replied before name answer false ∈ earlier ∧ time - before < answerTtl ∧ answer.status ≠ .unknown
  | .replied _ name answer false => answer.status ≠ .unknown → Said runtime earlier name answer
  | _ => True

/-! ### What every action keeps -/

/-- What the log says of where a call waits. -/
def Phase.Known (log : List Event) : Phase → Prop
  | .resuming _ (some servers) => ∃ time, .directoryLoaded time servers ∈ log
  | .vetting name base => Listed log name base
  | .asking name base => Listed log name base ∧ .registryAsked name (target runtime base name) ∈ log
  | .reading name base code =>
    Listed log name base ∧ .registryAsked name (target runtime base name) ∈ log ∧
      judgeStatus (runtime.hostname base) code = none
  | .answered name answer => answer.status ≠ .unknown → Said runtime log name answer
  | _ => True

theorem Listed.mono {log more : List Event} {name base : String} (listed : Listed log name base) (sub : log ⊆ more) :
    Listed more name base := by
  obtain ⟨time, servers, loaded, got⟩ := listed
  exact ⟨time, servers, sub loaded, got⟩

variable {runtime}

theorem Said.mono {log more : List Event} {name : String} {answer : Answer} (said : Said runtime log name answer)
    (sub : log ⊆ more) : Said runtime more name answer := by
  obtain ⟨base, code, body, listed, asked, answered, same⟩ := said
  exact ⟨base, code, body, listed.mono sub, sub asked, sub answered, same⟩

theorem Phase.Known.mono {log more : List Event} {phase : Phase} (known : phase.Known runtime log) (sub : log ⊆ more) :
    phase.Known runtime more := by
  cases phase with
  | resuming name outcome =>
    cases outcome with
    | none => trivial
    | some servers =>
      obtain ⟨time, loaded⟩ := known
      exact ⟨time, sub loaded⟩
  | vetting name base => exact Listed.mono known sub
  | asking name base => exact ⟨known.1.mono sub, sub known.2⟩
  | reading name base code => exact ⟨known.1.mono sub, sub known.2.1, known.2.2⟩
  | answered name answer => exact fun spoken => (known spoken).mono sub
  | _ => trivial

/-- A load is under way. -/
def Loading.inFlight : Loading → Bool
  | .fetching | .reading => true
  | .settled _ => false

structure Kept (runtime : Runtime) (state : State) : Prop where
  fetching : fetching state.log = state.loading.any Loading.inFlight
  last : lastLoaded state.log = state.bootstrap.map (·.time)
  loaded : ∀ d, state.bootstrap = some d → .directoryLoaded d.time d.servers ∈ state.log
  settled : ∀ servers, state.loading = some (.settled (some servers)) → ∃ time, .directoryLoaded time servers ∈ state.log
  calls : ∀ id, (state.calls id).Known runtime state.log
  cached : ∀ name kept, (name, kept) ∈ state.answers.entries →
    .replied kept.time name kept.answer false ∈ state.log ∧ kept.answer.status ≠ .unknown
  bounded : state.answers.size ≤ maxCached
  grounded : Grounded (grounds runtime) state.log

theorem kept_initial : Kept runtime initial where
  fetching := rfl
  last := rfl
  loaded := by simp [initial]
  settled := by simp [initial]
  calls := by simp [initial, Phase.Known]
  cached := by simp [initial, OrderedMap.empty]
  bounded := Nat.zero_le _
  grounded := trivial

variable {state : State}

theorem Kept.goto (kept : Kept runtime state) (id : Nat) {phase : Phase} (known : phase.Known runtime state.log) :
    Kept runtime (state.goto id phase) where
  fetching := kept.fetching
  last := kept.last
  loaded := kept.loaded
  settled := kept.settled
  calls := by
    intro other
    by_cases same : other = id
    · simpa [State.goto, same] using known
    · simpa [State.goto, same] using kept.calls other
  cached := kept.cached
  bounded := kept.bounded
  grounded := kept.grounded

/-- An event of a registry, or an answer: neither is about the directory. -/
def Event.apart : Event → Bool
  | .directoryAsked _ | .directoryOver | .directoryLoaded .. => false
  | _ => true

theorem Kept.note (kept : Kept runtime state) (event : Event) (apart : event.apart = true)
    (founded : grounds runtime state.log event) : Kept runtime (state.note event) where
  fetching := by
    have same : Rdap.fetching (event :: state.log) = Rdap.fetching state.log := by
      cases event <;> first | rfl | cases apart
    exact same.trans kept.fetching
  last := by
    have same : lastLoaded (event :: state.log) = lastLoaded state.log := by
      cases event <;> first | rfl | cases apart
    exact same.trans kept.last
  loaded d there := List.mem_cons_of_mem _ (kept.loaded d there)
  settled servers ended := by
    obtain ⟨time, loaded⟩ := kept.settled servers ended
    exact ⟨time, List.mem_cons_of_mem _ loaded⟩
  calls id := (kept.calls id).mono (List.subset_cons_self _ _)
  cached name found there :=
    ⟨List.mem_cons_of_mem _ (kept.cached name found there).1, (kept.cached name found there).2⟩
  bounded := kept.bounded
  grounded := ⟨founded, kept.grounded⟩

/-! ### The directory -/

/-- A load begins where none is under way and the directory there is has grown old. -/
theorem kept_ask (kept : Kept runtime state) {now : Int} (free : state.loading = none)
    (stale : fresh state now = none) :
    Kept runtime ({ state with loading := some .fetching }.note (.directoryAsked now)) where
  fetching := rfl
  last := kept.last
  loaded d there := List.mem_cons_of_mem _ (kept.loaded d there)
  settled servers ended := by cases ended
  calls id := (kept.calls id).mono (List.subset_cons_self _ _)
  cached name found there :=
    ⟨List.mem_cons_of_mem _ (kept.cached name found there).1, (kept.cached name found there).2⟩
  bounded := kept.bounded
  grounded := by
    refine ⟨⟨?_, fun last loaded => ?_⟩, kept.grounded⟩
    · rw [kept.fetching, free]
      rfl
    · change lastLoaded state.log = some last at loaded
      rw [kept.last] at loaded
      cases there : state.bootstrap with
      | none => simp [there] at loaded
      | some directory =>
        simp only [there, Option.map_some, Option.some.injEq] at loaded
        simp only [fresh, there, Option.bind_some, ite_eq_right_iff, reduceCtorEq, imp_false] at stale
        omega

/-- A load ends; what it came to is in the log. -/
theorem kept_settle (kept : Kept runtime state) (outcome : Option Servers)
    (loaded : ∀ servers, outcome = some servers → ∃ time, .directoryLoaded time servers ∈ state.log) :
    Kept runtime (settle state outcome) where
  fetching := rfl
  last := kept.last
  loaded d there := List.mem_cons_of_mem _ (kept.loaded d there)
  settled servers ended := by
    have same : outcome = some servers := by simpa [settle, State.note] using ended
    obtain ⟨time, there⟩ := loaded servers same
    exact ⟨time, List.mem_cons_of_mem _ there⟩
  calls id := (kept.calls id).mono (List.subset_cons_self _ _)
  cached name found there :=
    ⟨List.mem_cons_of_mem _ (kept.cached name found there).1, (kept.cached name found there).2⟩
  bounded := kept.bounded
  grounded := ⟨trivial, kept.grounded⟩

/-- A directory that was read replaces the one there was. -/
theorem kept_load (kept : Kept runtime state) (now : Int) (servers : Servers) :
    Kept runtime ({ state with bootstrap := some ⟨now, servers⟩ }.note (.directoryLoaded now servers)) where
  fetching := kept.fetching
  last := rfl
  loaded d there := by
    have same : (⟨now, servers⟩ : Directory) = d := by simpa [State.note] using there
    subst same
    exact List.mem_cons_self
  settled servers ended := by
    obtain ⟨time, there⟩ := kept.settled servers ended
    exact ⟨time, List.mem_cons_of_mem _ there⟩
  calls id := (kept.calls id).mono (List.subset_cons_self _ _)
  cached name found there :=
    ⟨List.mem_cons_of_mem _ (kept.cached name found there).1, (kept.cached name found there).2⟩
  bounded := kept.bounded
  grounded := ⟨trivial, kept.grounded⟩

/-- Whoever waited for a load goes on with what it came to. -/
theorem kept_clear (kept : Kept runtime state) {outcome : Option Servers}
    (ended : state.loading = some (.settled outcome)) :
    Kept runtime { state with loading := none, calls := fun id => (state.calls id).wake outcome } where
  fetching := by
    have still := kept.fetching
    rw [ended] at still
    exact still
  last := kept.last
  loaded := kept.loaded
  settled servers ended := by cases ended
  calls id := by
    have known := kept.calls id
    dsimp only
    generalize state.calls id = phase at known
    cases phase with
    | waiting name =>
      cases outcome with
      | none => trivial
      | some servers => exact kept.settled servers ended
    | _ => exact known
  cached := kept.cached
  bounded := kept.bounded
  grounded := kept.grounded

theorem kept_askServers (kept : Kept runtime state) (id : Nat) (name : String) (now : Int) :
    Kept runtime (askServers state id name now) := by
  unfold askServers
  cases recent : fresh state now with
  | some servers =>
    refine kept.goto id ?_
    unfold fresh at recent
    obtain ⟨directory, there, same⟩ := Option.bind_eq_some_iff.mp recent
    have held : directory.servers = servers := (Option.ite_none_right_eq_some.mp same).2 |> Option.some.inj
    exact ⟨directory.time, held ▸ kept.loaded directory there⟩
  | none =>
    cases free : state.loading with
    | some _ => exact kept.goto id trivial
    | none => exact (kept_ask kept free recent).goto id trivial

/-! ### The registries -/

/-- The server that is chosen is one the directory lists for the name, over https. -/
theorem known_chooseServer {log : List Event} {name : String} {outcome : Option Servers}
    (loaded : ∀ servers, outcome = some servers → ∃ time, .directoryLoaded time servers ∈ log) :
    (chooseServer name outcome).Known runtime log := by
  cases outcome with
  | none => exact fun known => absurd rfl known
  | some servers =>
    simp only [chooseServer]
    cases found : servers.map.get (tldOf name) with
    | none => exact fun known => absurd rfl known
    | some base =>
      obtain ⟨time, there⟩ := loaded servers rfl
      exact ⟨time, servers, there, found⟩

theorem Listed.secure {log : List Event} {name base : String} (listed : Listed log name base) : Secure base := by
  obtain ⟨time, servers, loaded, got⟩ := listed
  exact servers.secure _ (OrderedMap.mem_of_get got)

/-- An answer that is known is kept, in place of the oldest one where there are as many as may be. -/
theorem kept_finish (kept : Kept runtime state) {id : Nat} {name : String} {answer : Answer}
    (waits : state.calls id = .answered name answer) (now : Int) : Kept runtime (step runtime state (.finish id now)) := by
  have known := kept.calls id
  rw [waits] at known
  have noted := kept.note (.replied now name answer false) rfl known
  have calmed : Kept runtime ((state.note (.replied now name answer false)).goto id .idle) := noted.goto id trivial
  simp only [step, waits]
  by_cases unknown : answer.status = .unknown
  · simpa only [unknown, if_true] using calmed
  · simp only [unknown, if_false]
    refine { calmed with cached := ?_, bounded := ?_ }
    · intro other found there
      rcases OrderedMap.mem_put there with new | old
      · cases new
        exact ⟨List.mem_cons_self, unknown⟩
      · exact calmed.cached other found old
    · exact OrderedMap.size_put_le (by decide) kept.bounded

theorem kept_step (kept : Kept runtime state) (action : Action) : Kept runtime (step runtime state action) := by
  cases action with
  | call id name now later =>
    simp only [step]
    split
    · split
      · rename_i answer found
        refine kept.note _ rfl ?_
        unfold hit at found
        obtain ⟨entry, there, same⟩ := Option.bind_eq_some_iff.mp found
        obtain ⟨young, same⟩ := Option.ite_none_right_eq_some.mp same
        cases same
        obtain ⟨before, known⟩ := kept.cached name entry (OrderedMap.mem_of_get there)
        exact ⟨entry.time, before, young, known⟩
      · exact kept_askServers kept id name later
    · exact kept
  | directoryAnswers code =>
    simp only [step]
    split
    · rename_i under
      split
      · exact { kept with
          fetching := kept.fetching.trans (by rw [under]; rfl)
          settled := fun servers ended => by cases ended }
      · exact kept_settle kept none fun servers none => by cases none
    · exact kept
  | directoryFails =>
    simp only [step]
    split
    · exact kept_settle kept none fun servers none => by cases none
    · exact kept_settle kept none fun servers none => by cases none
    · exact kept
  | directoryReads body now =>
    simp only [step]
    split
    · split
      · exact kept_settle kept none fun servers none => by cases none
      · rename_i servers read
        refine kept_settle (kept_load kept now servers) (some servers) fun other same => ?_
        cases same
        exact ⟨now, List.mem_cons_self⟩
    · exact kept
  | directoryClears =>
    simp only [step]
    split
    · rename_i outcome ended
      exact kept_clear kept ended
    · exact kept
  | resume id =>
    simp only [step]
    split
    · rename_i name outcome waits
      have known := kept.calls id
      rw [waits] at known
      refine kept.goto id (known_chooseServer fun servers chosen => ?_)
      cases outcome with
      | some loaded =>
        cases chosen
        exact known
      | none =>
        obtain ⟨directory, there, same⟩ := Option.map_eq_some_iff.mp (by simpa using chosen)
        exact ⟨directory.time, same ▸ kept.loaded directory there⟩
    · exact kept
  | vetted id reachable =>
    simp only [step]
    split
    · rename_i name base waits
      have listed := kept.calls id
      rw [waits] at listed
      split
      · have asked := kept.note (.registryAsked name (target runtime base name)) rfl
          ⟨base, listed, Listed.secure listed, rfl⟩
        exact asked.goto id ⟨Listed.mono listed (List.subset_cons_self _ _), List.mem_cons_self⟩
      · exact kept.goto id fun known => absurd rfl known
    · exact kept
  | fails id aborted =>
    simp only [step]
    split
    · exact kept.goto id fun known => absurd rfl known
    · exact kept
  | answers id code =>
    simp only [step]
    split
    · rename_i name base waits
      have known := kept.calls id
      rw [waits] at known
      split
      · rename_i answer judged
        refine (kept.note (.registryAnswered name (target runtime base name) code none) rfl trivial).goto id
          fun _ => ⟨base, code, none, known.1.mono (List.subset_cons_self _ _), List.mem_cons_of_mem _ known.2,
            List.mem_cons_self, ?_⟩
        rw [verdict, judged]
        rfl
      · rename_i open'
        exact kept.goto id ⟨known.1, known.2, open'⟩
    · exact kept
  | reads id body =>
    simp only [step]
    split
    · rename_i name base code waits
      have known := kept.calls id
      rw [waits] at known
      refine (kept.note (.registryAnswered name (target runtime base name) code body) rfl trivial).goto id
        fun _ => ⟨base, code, body, known.1.mono (List.subset_cons_self _ _), List.mem_cons_of_mem _ known.2.1,
          List.mem_cons_self, ?_⟩
      rw [verdict, known.2.2]
      rfl
    · exact kept
  | finish id now =>
    by_cases waits : ∃ name answer, state.calls id = .answered name answer
    · obtain ⟨name, answer, waits⟩ := waits
      exact kept_finish kept waits now
    · have stays : step runtime state (.finish id now) = state := by
        simp only [step]
        split
        · rename_i name answer at_end
          exact absurd ⟨name, answer, at_end⟩ waits
        · rfl
      rw [stays]
      exact kept

/-- Whatever calls are made and however they interleave. -/
theorem kept_run (runtime : Runtime) (schedule : List Action) : Kept runtime (run (step runtime) initial schedule) :=
  always_last schedule (always_of_preserved (fun _ action kept => kept_step kept action) schedule kept_initial)

/-! ### What every run shows -/

theorem verdict_unregistered {server : String} {code : Nat} {body : Option Json} :
    (verdict runtime server code body).status = .unregistered ↔ code = 404 := by
  unfold verdict judgeStatus judgeBody
  by_cases missing : code = 404
  · simp [missing]
  · simp only [missing, if_false, iff_false]
    split
    · simp
    · split
      · simp
      · cases body with
        | none => simp
        | some body =>
          simp only [Option.getD_none]
          split <;> simp

theorem verdict_registered {server : String} {code : Nat} {body : Option Json} :
    (verdict runtime server code body).status = .registered ↔
      (200 ≤ code ∧ code < 300) ∧ body.any isDomain = true := by
  unfold verdict judgeStatus judgeBody
  by_cases missing : code = 404
  · simp [missing]
  · by_cases busy : code = 429
    · simp [busy]
    · by_cases fine : 200 ≤ code ∧ code < 300
      · cases body with
        | none => simp [missing, busy, fine]
        | some body => by_cases domain : isDomain body = true <;> simp [missing, busy, fine, domain]
      · simp [missing, busy, fine]

/-- A load of the directory begins only where none goes on and the directory loaded last, if there is one, is a day
old. -/
def SingleLoads (log : List Event) : Prop :=
  ∀ later time earlier, log = later ++ .directoryAsked time :: earlier →
    fetching earlier = false ∧ ∀ last, lastLoaded earlier = some last → bootstrapTtl ≤ time - last

/-- Every answer that is not from the kept ones and says more than "unknown" was said by a registry that was asked
before: one that a directory lists for the name's ending, over https. A name is free where it answered 404, and taken
where it answered a domain record. -/
def VerdictsSaid (runtime : Runtime) (log : List Event) : Prop :=
  ∀ later time name answer earlier, log = later ++ .replied time name answer false :: earlier →
    answer.status ≠ .unknown → ∃ base code body, Listed earlier name base ∧ Secure base ∧
      .registryAsked name (target runtime base name) ∈ earlier ∧
      .registryAnswered name (target runtime base name) code body ∈ earlier ∧
      (answer.status = .unregistered ↔ code = 404) ∧
      (answer.status = .registered ↔ (200 ≤ code ∧ code < 300) ∧ body.any isDomain = true)

/-- An answer from the kept ones repeats one that was given for the same name less than ten minutes before, and that was
not "unknown". -/
def KeptRepeat (log : List Event) : Prop :=
  ∀ later time name answer earlier, log = later ++ .replied time name answer true :: earlier →
    ∃ before, .replied before name answer false ∈ earlier ∧ time - before < answerTtl ∧ answer.status ≠ .unknown

theorem loads_single (runtime : Runtime) (schedule : List Action) :
    SingleLoads (run (step runtime) initial schedule).log := by
  intro later time earlier split
  have grounded := (kept_run runtime schedule).grounded
  rw [split] at grounded
  exact grounded.entry

theorem verdicts_said (runtime : Runtime) (schedule : List Action) :
    VerdictsSaid runtime (run (step runtime) initial schedule).log := by
  intro later time name answer earlier split known
  have grounded := (kept_run runtime schedule).grounded
  rw [split] at grounded
  obtain ⟨base, code, body, listed, asked, answered, same⟩ := grounded.entry known
  refine ⟨base, code, body, listed, listed.secure, asked, answered, ?_, ?_⟩
  · rw [same]
    exact verdict_unregistered
  · rw [same]
    exact verdict_registered

theorem kept_answers_repeat (runtime : Runtime) (schedule : List Action) :
    KeptRepeat (run (step runtime) initial schedule).log ∧
      (run (step runtime) initial schedule).answers.size ≤ maxCached := by
  refine ⟨?_, (kept_run runtime schedule).bounded⟩
  intro later time name answer earlier split
  have grounded := (kept_run runtime schedule).grounded
  rw [split] at grounded
  exact grounded.entry

/-! ### Nothing waits for ever -/

/-- Who waits for a load of the directory waits for one that is there. -/
def Awaited (state : State) : Prop := ∀ id name, state.calls id = .waiting name → state.loading ≠ none

theorem awaited_goto (awaited : Awaited state) (id : Nat) {phase : Phase}
    (fine : ∀ name, phase = .waiting name → state.loading ≠ none) : Awaited (state.goto id phase) := by
  intro other name waits
  by_cases same : other = id
  · exact fine name (by simpa [State.goto, same] using waits)
  · exact awaited other name (by simpa [State.goto, same] using waits)

theorem awaited_step (awaited : Awaited state) (action : Action) : Awaited (step runtime state action) := by
  have settled : ∀ (s : State) (outcome : Option Servers), Awaited (settle s outcome) :=
    fun s outcome id name waits none => by cases none
  cases action with
  | call id name now later =>
    simp only [step]
    split
    · split
      · exact awaited
      · unfold askServers
        split
        · exact awaited_goto awaited id fun _ no => by cases no
        · split
          · rename_i _ loading there
            exact awaited_goto awaited id fun _ _ none => by simp [there] at none
          · refine awaited_goto ?_ id fun _ _ none => by cases none
            exact fun _ _ _ none => by cases none
    · exact awaited
  | directoryAnswers code =>
    simp only [step]
    split
    · split
      · exact fun _ _ _ none => by cases none
      · exact settled _ _
    · exact awaited
  | directoryFails =>
    simp only [step]
    split
    · exact settled _ _
    · exact settled _ _
    · exact awaited
  | directoryReads body now =>
    simp only [step]
    split
    · split
      · exact settled _ _
      · exact settled _ _
    · exact awaited
  | directoryClears =>
    simp only [step]
    split
    · intro id name waits
      simp only at waits
      cases phase : state.calls id <;> simp [phase, Phase.wake] at waits
    · exact awaited
  | resume id =>
    simp only [step]
    split
    · rename_i name outcome waits
      refine awaited_goto awaited id fun other no => ?_
      unfold chooseServer at no
      split at no
      · cases no
      · split at no <;> cases no
    · exact awaited
  | vetted id reachable =>
    simp only [step]
    split
    · split
      · exact awaited_goto awaited id fun _ no => by cases no
      · exact awaited_goto awaited id fun _ no => by cases no
    · exact awaited
  | fails id aborted =>
    simp only [step]
    split
    · exact awaited_goto awaited id fun _ no => by cases no
    · exact awaited
  | answers id code =>
    simp only [step]
    split
    · split
      · exact awaited_goto awaited id fun _ no => by cases no
      · exact awaited_goto awaited id fun _ no => by cases no
    · exact awaited
  | reads id body =>
    simp only [step]
    split
    · exact awaited_goto awaited id fun _ no => by cases no
    · exact awaited
  | finish id now =>
    simp only [step]
    split
    · exact awaited_goto awaited id fun _ no => by cases no
    · exact awaited

theorem awaited_run (runtime : Runtime) (schedule : List Action) :
    Awaited (run (step runtime) initial schedule) :=
  always_last schedule (always_of_preserved (fun _ action awaited => awaited_step awaited action) schedule
    fun id name waits none => by cases waits)

/-- The call can come to its end. -/
def Ends (runtime : Runtime) (state : State) (id : Nat) : Prop :=
  ∃ more, (run (step runtime) state more).calls id = .idle

theorem ends_of_step {id : Nat} (action : Action) (ends : Ends runtime (step runtime state action) id) :
    Ends runtime state id := by
  obtain ⟨more, idle⟩ := ends
  exact ⟨action :: more, idle⟩

theorem goto_at (state : State) (id : Nat) (phase : Phase) : (state.goto id phase).calls id = phase := by
  simp [State.goto]

theorem ends_answered {id : Nat} {name : String} {answer : Answer} (waits : state.calls id = .answered name answer) :
    Ends runtime state id := by
  refine ⟨[.finish id 0], ?_⟩
  simp only [run, List.foldl_cons, List.foldl_nil, step, waits]
  exact goto_at _ id _

/-- An action that answers the call lets it come to its end. -/
theorem ends_by {id : Nat} (action : Action)
    (reached : ∃ name answer, (step runtime state action).calls id = .answered name answer) : Ends runtime state id := by
  obtain ⟨name, answer, there⟩ := reached
  exact ends_of_step action (ends_answered there)

theorem ends_reading {id code : Nat} {name base : String} (waits : state.calls id = .reading name base code) :
    Ends runtime state id := by
  refine ends_by (.reads id none) ?_
  simp only [step, waits]
  exact ⟨_, _, goto_at _ id _⟩

theorem ends_vetting {id : Nat} {name base : String} (waits : state.calls id = .vetting name base) :
    Ends runtime state id := by
  refine ends_by (.vetted id false) ?_
  simp only [step, waits]
  exact ⟨_, _, goto_at _ id _⟩

theorem ends_asking {id : Nat} {name base : String} (waits : state.calls id = .asking name base) :
    Ends runtime state id := by
  refine ends_by (.fails id true) ?_
  simp only [step, waits]
  exact ⟨_, _, goto_at _ id _⟩

theorem ends_resuming {id : Nat} {name : String} {outcome : Option Servers}
    (waits : state.calls id = .resuming name outcome) : Ends runtime state id := by
  refine ends_of_step (.resume id) ?_
  have there : (step runtime state (.resume id)).calls id =
      chooseServer name (outcome.or (state.bootstrap.map (·.servers))) := by
    simp only [step, waits]
    exact goto_at _ id _
  unfold chooseServer at there
  split at there
  · exact ends_answered there
  · split at there
    · exact ends_answered there
    · exact ends_vetting there

theorem ends_waiting {id : Nat} {name : String} (waits : state.calls id = .waiting name)
    (awaited : state.loading ≠ none) : Ends runtime state id := by
  have clears : ∀ (s : State) (outcome : Option Servers), s.calls id = .waiting name →
      s.loading = some (.settled outcome) → Ends runtime s id := by
    intro s outcome waits ended
    have resumed : (step runtime s .directoryClears).calls id = .resuming name outcome := by
      simp only [step, ended, waits, Phase.wake]
    exact ends_of_step .directoryClears (ends_resuming resumed)
  cases under : state.loading with
  | none => exact absurd under awaited
  | some loading =>
    cases loading with
    | settled outcome => exact clears state outcome waits under
    | fetching =>
      refine ends_of_step .directoryFails (clears _ none ?_ ?_)
      · simp only [step, under, settle, State.note, waits]
      · simp only [step, under, settle, State.note]
    | reading =>
      refine ends_of_step .directoryFails (clears _ none ?_ ?_)
      · simp only [step, under, settle, State.note, waits]
      · simp only [step, under, settle, State.note]

/-- However calls have interleaved, each of them can come to its end: none waits for what never comes. -/
theorem lookups_end (runtime : Runtime) (schedule : List Action) (id : Nat) :
    Ends runtime (run (step runtime) initial schedule) id := by
  have awaited := awaited_run runtime schedule
  generalize run (step runtime) initial schedule = state at awaited ⊢
  cases phase : state.calls id with
  | idle => exact ⟨[], phase⟩
  | waiting name => exact ends_waiting phase (awaited id name phase)
  | resuming name outcome => exact ends_resuming phase
  | vetting name base => exact ends_vetting phase
  | asking name base => exact ends_asking phase
  | reading name base code => exact ends_reading phase
  | answered name answer => exact ends_answered phase

-- A name that is free, asked for again a second later.
example : ∃ earlier, (run (step ⟨id, id, fun _ => "rdap.test", fun _ => none⟩) initial
    [.call 0 "free.dev" 0 0, .call 1 "free.dev" 0 0, .directoryAnswers 200,
      .directoryReads (.obj [("services", .arr [.arr [.arr [.str "dev"], .arr [.str "https://rdap.test"]]])]) 5,
      .directoryClears, .resume 0, .vetted 0 true, .answers 0 404, .finish 0 10, .call 2 "free.dev" 1010 1010]).log =
    .replied 1010 "free.dev" { status := .unregistered, server := "rdap.test" } true :: earlier := ⟨_, rfl⟩

end OpenVibeHost.Rdap
