import OpenVibeHost.ConsoleCalls
import OpenVibeHost.Transition

/-! What holds of the console however its calls interleave: whose tokens go where, whose servers a person is shown and acts
on, and that an account that was disconnected is not looked up again. -/
namespace OpenVibeHost.Console
open Transition

open Catalog (Fault)

variable {config : Config} {vault : Vault}

/-! ### Sealed tokens -/

/-- What is documented of base64 and of the cipher: base64 has no dot, and what is sealed opens under the key that sealed
it. -/
structure Vault.Sound (vault : Vault) : Prop where
  plain : ∀ iv, '.' ∉ (vault.encode iv).toList
  plainTag : ∀ iv token, '.' ∉ (vault.encrypt iv token).1.toList
  plainBody : ∀ iv token, '.' ∉ (vault.encrypt iv token).2.toList
  opens : ∀ iv token, vault.decrypt (some (vault.encode iv)) (some (vault.encrypt iv token).1)
    (some (vault.encrypt iv token).2) = .ok token

theorem open_seal (sound : vault.Sound) (iv : List UInt8) (token : String) :
    openToken vault (sealToken vault iv token) = .ok token := by
  have joined : (sealToken vault iv token).toList = ['.'].intercalate
      [['v', '1'], (vault.encode iv).toList, (vault.encrypt iv token).1.toList, (vault.encrypt iv token).2.toList] := by
    simp [sealToken, List.intercalate, String.toList_append]
  have parts : (sealToken vault iv token).toList.splitOn '.' =
      [['v', '1'], (vault.encode iv).toList, (vault.encrypt iv token).1.toList, (vault.encrypt iv token).2.toList] := by
    rw [joined]
    apply List.splitOn_intercalate
    · simp [sound.plain, sound.plainTag, sound.plainBody]
    · simp
  have version : String.ofList ['v', '1'] = "v1" := rfl
  simp [openToken, parts, version, sound.opens, Except.mapError]

/-! ### The log -/

/-- What was connected, as the row of it has it. -/
def Owned (vault : Vault) (log : List Event) (row : Account) : Prop :=
  ∃ iv token, row.tokenSealed = sealToken vault iv token ∧
    .connected row.ownerSubject row.id row.provider token ∈ log

/-- The servers are none, or all that a provider listed for the account. -/
def From (log : List Event) (id : String) (servers : List Listed) : Prop :=
  servers = [] ∨ ∃ provider token list, .listed id provider token list ∈ log ∧
    servers = list.map fun server => ⟨server, provider, id⟩

/-- The servers are none, or all that its provider listed for an account of the person. -/
def Theirs (log : List Event) (subject id : String) (servers : List Listed) : Prop :=
  ∃ provider token, .connected subject id provider token ∈ log ∧
    (servers = [] ∨ ∃ list, .listed id provider token list ∈ log ∧
      servers = list.map fun server => ⟨server, provider, id⟩)

def actions : List String := ["start", "stop", "reboot"]

/-- What has to be in the log before an event comes. -/
def grounds (earlier : List Event) : Event → Prop
  | .connected subject _ provider token => .verifyAsked subject provider token ∈ earlier
  | .looked _ subject id => .removed id ∉ earlier ∧ ∃ provider token, .connected subject id provider token ∈ earlier
  | .listAsked call subject id provider token =>
    .looked call subject id ∈ earlier ∧ .connected subject id provider token ∈ earlier
  | .listed id provider token _ => ∃ call subject, .listAsked call subject id provider token ∈ earlier
  | .kept id _ servers => From earlier id servers
  | .acted call subject id provider token serverId action time =>
    .looked call subject id ∈ earlier ∧ .connected subject id provider token ∈ earlier ∧ action ∈ actions ∧
      ∃ before servers, .kept id before servers ∈ earlier ∧ time - before < keptMs ∧
        ∃ listed ∈ servers, listed.server.id = serverId
  | .recorded row => ∃ call token time,
    .acted call row.ownerSubject row.accountId row.provider token row.serverId row.action time ∈ earlier
  | .replied subject (.shown id value) => Theirs earlier subject id value.servers
  | _ => True

theorem Owned.mono {log more : List Event} {row : Account} (owned : Owned vault log row) (sub : log ⊆ more) :
    Owned vault more row := by
  obtain ⟨iv, token, same, connected⟩ := owned
  exact ⟨iv, token, same, sub connected⟩

theorem From.mono {log more : List Event} {id : String} {servers : List Listed} (known : From log id servers)
    (sub : log ⊆ more) : From more id servers := by
  rcases known with none | ⟨provider, token, list, listed, same⟩
  · exact .inl none
  · exact .inr ⟨provider, token, list, sub listed, same⟩

/-! ### What every action keeps -/

/-- The call looked the account up for the person whose it is. -/
def Mine (vault : Vault) (call : Nat) (log : List Event) (row : Account) : Prop :=
  Owned vault log row ∧ .looked call row.ownerSubject row.id ∈ log

def Purpose.Known : Purpose → Prop
  | .show _ => True
  | .act _ action => action ∈ actions

/-- The action was sent. -/
def Sent (call : Nat) (log : List Event) (row : Account) (known : Listed) (action : String) : Prop :=
  ∃ token time, .acted call row.ownerSubject row.id row.provider token known.server.id action time ∈ log

/-- What the log says of where a call waits. -/
def Phase.Known (vault : Vault) (call : Nat) (log : List Event) : Phase → Prop
  | .verifying subject request token => .verifyAsked subject request.provider token ∈ log
  | .inserting row token =>
    (∃ iv, row.tokenSealed = sealToken vault iv token) ∧ .verifyAsked row.ownerSubject row.provider token ∈ log ∧
      .drew row.id ∈ log
  | .looking _ _ purpose => purpose.Known
  | .found row purpose => Mine vault call log row ∧ purpose.Known
  | .listing row purpose token =>
    Mine vault call log row ∧ purpose.Known ∧ .listAsked call row.ownerSubject row.id row.provider token ∈ log
  | .noting row purpose value | .keeping row purpose value =>
    Mine vault call log row ∧ purpose.Known ∧ From log row.id value.servers
  | .acting row known action | .recording row known action _ => Sent call log row known action
  | _ => True

theorem Mine.mono {call : Nat} {log more : List Event} {row : Account} (mine : Mine vault call log row)
    (sub : log ⊆ more) : Mine vault call more row := ⟨mine.1.mono sub, sub mine.2⟩

theorem Phase.Known.mono {call : Nat} {log more : List Event} {phase : Phase} (known : phase.Known vault call log)
    (sub : log ⊆ more) : phase.Known vault call more := by
  cases phase with
  | verifying subject request token => exact sub known
  | inserting row token => exact ⟨known.1, sub known.2.1, sub known.2.2⟩
  | looking subject id purpose => exact known
  | found row purpose => exact ⟨known.1.mono sub, known.2⟩
  | listing row purpose token => exact ⟨known.1.mono sub, known.2.1, sub known.2.2⟩
  | noting row purpose value => exact ⟨known.1.mono sub, known.2.1, known.2.2.mono sub⟩
  | keeping row purpose value => exact ⟨known.1.mono sub, known.2.1, known.2.2.mono sub⟩
  | acting row listed action =>
    obtain ⟨token, time, acted⟩ := known
    exact ⟨token, time, sub acted⟩
  | recording row listed action result =>
    obtain ⟨token, time, acted⟩ := known
    exact ⟨token, time, sub acted⟩
  | _ => trivial

/-- The id of the account that a call is about to insert. -/
def Phase.pending : Phase → Option String
  | .inserting row _ => some row.id
  | _ => none

structure Safe (vault : Vault) (state : State) : Prop where
  rows : ∀ row ∈ state.rows, Owned vault state.log row ∧ .removed row.id ∉ state.log
  cached : ∀ id kept, state.cache id = some kept → .kept id kept.time kept.value.servers ∈ state.log
  calls : ∀ call, (state.calls call).Known vault call state.log
  /-- An id that was drawn is one account's. -/
  once : ∀ id subject provider token subject' provider' token', .connected subject id provider token ∈ state.log →
    .connected subject' id provider' token' ∈ state.log → subject' = subject ∧ provider' = provider ∧ token' = token
  drawn : ∀ id subject provider token, .connected subject id provider token ∈ state.log →
    .drew id ∈ state.log ∧ ∀ call, (state.calls call).pending ≠ some id
  apart : ∀ id call call', (state.calls call).pending = some id → (state.calls call').pending = some id → call = call'
  gone : ∀ id, .removed id ∈ state.log → ∃ subject provider token, .connected subject id provider token ∈ state.log
  grounded : Grounded grounds state.log

theorem safe_initial : Safe vault initial := by
  constructor <;> simp [initial, Phase.Known, Phase.pending, Grounded]

variable {state : State}

/-- A call goes where it inserts nothing. -/
theorem Safe.goto (safe : Safe vault state) {call : Nat} {phase : Phase} (known : phase.Known vault call state.log)
    (calm : phase.pending = none) : Safe vault (state.goto call phase) where
  rows := safe.rows
  cached := safe.cached
  calls := by
    intro other
    by_cases same : other = call
    · subst same
      simpa [State.goto] using known
    · simpa [State.goto, same] using safe.calls other
  once := safe.once
  drawn := by
    intro id subject provider token connected
    refine ⟨(safe.drawn id subject provider token connected).1, fun other => ?_⟩
    by_cases same : other = call
    · simp [State.goto, same, calm]
    · simpa [State.goto, same] using (safe.drawn id subject provider token connected).2 other
  apart := by
    have only : ∀ id other, ((state.goto call phase).calls other).pending = some id →
        (state.calls other).pending = some id := by
      intro id other pending
      by_cases same : other = call
      · simp [State.goto, same, calm] at pending
      · simpa [State.goto, same] using pending
    exact fun id first second one two => safe.apart id first second (only id first one) (only id second two)
  gone := safe.gone
  grounded := safe.grounded

/-- An event that connects and removes no account. -/
def Event.plain : Event → Bool
  | .connected .. | .removed _ => false
  | _ => true

theorem Safe.note (safe : Safe vault state) (event : Event) (plain : event.plain = true)
    (founded : grounds state.log event) : Safe vault (state.note event) := by
  have connected : ∀ {subject id provider token}, Event.connected subject id provider token ∈ event :: state.log →
      .connected subject id provider token ∈ state.log := by
    intro subject id provider token mem
    rcases List.mem_cons.mp mem with rfl | old
    · cases plain
    · exact old
  have removed : ∀ {id}, Event.removed id ∈ event :: state.log → .removed id ∈ state.log := by
    intro id mem
    rcases List.mem_cons.mp mem with rfl | old
    · cases plain
    · exact old
  have sub : state.log ⊆ event :: state.log := List.subset_cons_self _ _
  exact {
    rows := fun row mem => ⟨(safe.rows row mem).1.mono sub, fun gone => (safe.rows row mem).2 (removed gone)⟩
    cached := fun id kept there => sub (safe.cached id kept there)
    calls := fun call => (safe.calls call).mono sub
    once := fun id s p t s' p' t' one two => safe.once id s p t s' p' t' (connected one) (connected two)
    drawn := fun id s p t one => ⟨sub (safe.drawn id s p t (connected one)).1, (safe.drawn id s p t (connected one)).2⟩
    apart := safe.apart
    gone := fun id gone => by
      obtain ⟨s, p, t, there⟩ := safe.gone id (removed gone)
      exact ⟨s, p, t, sub there⟩
    grounded := ⟨founded, safe.grounded⟩ }

theorem Safe.reply (safe : Safe vault state) (call : Nat) (subject : String) {reply : Reply}
    (founded : grounds state.log (.replied subject reply)) : Safe vault (state.reply call subject reply) :=
  (safe.note (.replied subject reply) rfl founded).goto trivial rfl

theorem Safe.forget (safe : Safe vault state) (id : String) : Safe vault (state.forget id) where
  rows := safe.rows
  cached := by
    intro other kept there
    by_cases same : other = id
    · simp [State.forget, same] at there
    · exact safe.cached other kept (by simpa [State.forget, same] using there)
  calls := safe.calls
  once := safe.once
  drawn := safe.drawn
  apart := safe.apart
  gone := safe.gone
  grounded := safe.grounded

/-- What an event that is in the log rests on is there too. -/
theorem Safe.grounds (safe : Safe vault state) {event : Event} (mem : event ∈ state.log) :
    ∃ earlier, earlier ⊆ state.log ∧ Console.grounds earlier event := by
  obtain ⟨later, earlier, split⟩ := List.append_of_mem mem
  have grounded := safe.grounded
  rw [split] at grounded
  refine ⟨earlier, ?_, grounded.entry⟩
  rw [split]
  exact fun other there => List.mem_append_right _ (List.mem_cons_of_mem _ there)

/-- What is listed for an account is listed with its token. -/
theorem Safe.listed_owner (safe : Safe vault state) {subject id provider provider' token token' : String}
    {list : List Server} (listed : .listed id provider' token' list ∈ state.log)
    (connected : .connected subject id provider token ∈ state.log) : provider' = provider ∧ token' = token := by
  obtain ⟨before, sub, call, other, asked⟩ := safe.grounds listed
  obtain ⟨first, sub', -, connected'⟩ := safe.grounds (sub asked)
  exact (safe.once _ _ _ _ _ _ _ connected (sub' connected')).2

/-- What is kept for an account is what its provider listed for it. -/
theorem Safe.theirs (safe : Safe vault state) {row : Account} (owned : Owned vault state.log row) {before : Int}
    {servers : List Listed} (kept : .kept row.id before servers ∈ state.log) :
    Theirs state.log row.ownerSubject row.id servers := by
  obtain ⟨iv, token, -, connected⟩ := owned
  refine ⟨row.provider, token, connected, ?_⟩
  obtain ⟨earlier, sub, known⟩ := safe.grounds kept
  rcases known with none | ⟨provider, token', list, listed, same⟩
  · exact .inl none
  · obtain ⟨rfl, rfl⟩ := safe.listed_owner (sub listed) connected
    exact .inr ⟨list, sub listed, same⟩

/-- What a call does with the list that is kept for an account, where it is less than a minute old. -/
theorem safe_choose (sound : vault.Sound) (safe : Safe vault state) {call : Nat} {row : Account} {purpose : Purpose}
    {value : Listing} {time before : Int} (mine : Mine vault call state.log row) (known : purpose.Known)
    (kept : .kept row.id before value.servers ∈ state.log) (young : time - before < keptMs) :
    Safe vault (choose vault state call row value time purpose) := by
  cases purpose with
  | «show» fresh => exact safe.reply call _ (safe.theirs mine.1 kept)
  | act serverId action =>
    simp only [choose]
    split
    · exact safe.reply call _ trivial
    · rename_i listed there
      have at' : listed.server.id = serverId := by simpa using List.find?_some there
      obtain ⟨iv, token, sealed, connected⟩ := mine.1
      have opened : openToken vault row.tokenSealed = .ok token := sealed ▸ open_seal sound iv token
      simp only [opened]
      have acted := safe.note (.acted call row.ownerSubject row.id row.provider token listed.server.id action time) rfl
        ⟨mine.2, connected, known, before, value.servers, kept, young, listed, List.mem_of_find?_eq_some there, rfl⟩
      exact acted.goto ⟨token, time, List.mem_cons_self⟩ rfl

/-! ### Connecting and disconnecting -/

theorem Phase.Known.drew {call : Nat} {log : List Event} {phase : Phase} {id : String}
    (known : phase.Known vault call log) (pending : phase.pending = some id) : .drew id ∈ log := by
  cases phase with
  | inserting row token =>
    have same : row.id = id := by simpa [Phase.pending] using pending
    exact same ▸ known.2.2
  | _ => cases pending

/-- An id that nobody drew before is drawn. -/
theorem safe_draw (safe : Safe vault state) {call : Nat} {row : Account} {token : String}
    (sealed : ∃ iv, row.tokenSealed = sealToken vault iv token)
    (asked : .verifyAsked row.ownerSubject row.provider token ∈ state.log) (fresh : .drew row.id ∉ state.log) :
    Safe vault ((state.note (.drew row.id)).goto call (.inserting row token)) := by
  have noted := safe.note (.drew row.id) rfl trivial
  have free : ∀ other, (state.calls other).pending ≠ some row.id := fun other pending =>
    fresh ((safe.calls other).drew pending)
  have now : ∀ other id, ((Function.update state.calls call (.inserting row token)) other).pending = some id →
      (other = call ∧ id = row.id) ∨ (other ≠ call ∧ (state.calls other).pending = some id) := by
    intro other id pending
    by_cases same : other = call
    · subst same
      exact .inl ⟨rfl, by simpa [Phase.pending, eq_comm] using pending⟩
    · exact .inr ⟨same, by simpa [same] using pending⟩
  refine { noted with calls := ?_, drawn := ?_, apart := ?_ }
  · intro other
    by_cases same : other = call
    · subst same
      simpa [State.goto, State.note, Phase.Known] using ⟨sealed, asked⟩
    · simpa [State.goto, same] using noted.calls other
  · intro id subject provider token' connected
    refine ⟨(noted.drawn id subject provider token' connected).1, fun other pending => ?_⟩
    rcases now other id pending with ⟨-, rfl⟩ | ⟨-, old⟩
    · have old : .connected subject row.id provider token' ∈ state.log := by
        rcases List.mem_cons.mp connected with no | old
        · cases no
        · exact old
      exact fresh (safe.drawn _ _ _ _ old).1
    · exact (noted.drawn id subject provider token' connected).2 other old
  · intro id first second one two
    rcases now first id one with ⟨rfl, rfl⟩ | ⟨-, old⟩
    · rcases now second row.id two with ⟨same, -⟩ | ⟨-, old⟩
      · exact same.symm
      · exact absurd old (free second)
    · rcases now second id two with ⟨rfl, rfl⟩ | ⟨-, old'⟩
      · exact absurd old (free first)
      · exact safe.apart id first second old old'

theorem insert_ok {row : Account} {rows after : List Account} (inserted : insert row rows = .ok after) :
    after = rows ++ [row] := by
  unfold insert at inserted
  split at inserted
  · cases inserted
  · split at inserted
    · cases inserted
    · cases inserted
      rfl

/-- An account is inserted, with the id that was drawn for it. -/
theorem safe_insert (safe : Safe vault state) {call : Nat} {row : Account} {token : String}
    (waits : state.calls call = .inserting row token) :
    Safe vault (({ state with rows := state.rows ++ [row] }.note
      (.connected row.ownerSubject row.id row.provider token)).goto call (.inserted row)) := by
  have known := safe.calls call
  rw [waits] at known
  obtain ⟨⟨iv, sealed⟩, asked, drew⟩ := known
  have pending : (state.calls call).pending = some row.id := by rw [waits]; rfl
  have unused : ∀ subject provider token', .connected subject row.id provider token' ∉ state.log :=
    fun subject provider token' there => (safe.drawn _ _ _ _ there).2 call pending
  have sub : state.log ⊆ .connected row.ownerSubject row.id row.provider token :: state.log := List.subset_cons_self _ _
  have split : ∀ {s id p t}, Event.connected s id p t ∈ Event.connected row.ownerSubject row.id row.provider token ::
      state.log → (s = row.ownerSubject ∧ id = row.id ∧ p = row.provider ∧ t = token) ∨
        (id ≠ row.id ∧ .connected s id p t ∈ state.log) := by
    intro s id p t mem
    rcases List.mem_cons.mp mem with new | old
    · cases new
      exact .inl ⟨rfl, rfl, rfl, rfl⟩
    · refine .inr ⟨?_, old⟩
      rintro rfl
      exact unused s p t old
  have still : ∀ other id, (Function.update state.calls call (.inserted row) other).pending = some id →
      other ≠ call ∧ (state.calls other).pending = some id := by
    intro other id there
    by_cases same : other = call
    · simp [same, Phase.pending] at there
    · exact ⟨same, by simpa [same] using there⟩
  constructor
  · intro r mem
    rcases List.mem_append.mp mem with old | new
    · refine ⟨(safe.rows r old).1.mono sub, fun gone => (safe.rows r old).2 ?_⟩
      exact (List.mem_cons.mp gone).resolve_left (by rintro ⟨⟩)
    · obtain rfl := List.mem_singleton.mp new
      refine ⟨⟨iv, token, sealed, List.mem_cons_self⟩, fun gone => ?_⟩
      obtain ⟨s, p, t, there⟩ := safe.gone r.id ((List.mem_cons.mp gone).resolve_left (by rintro ⟨⟩))
      exact unused s p t there
  · exact fun id kept there => sub (safe.cached id kept there)
  · intro other
    by_cases same : other = call
    · simp [State.goto, same, Phase.Known]
    · simpa [State.goto, State.note, same] using (safe.calls other).mono sub
  · intro id s p t s' p' t' one two
    rcases split one with ⟨rfl, rfl, rfl, rfl⟩ | ⟨ne, old⟩ <;> rcases split two with ⟨rfl, here, rfl, rfl⟩ | ⟨ne', old'⟩
    · exact ⟨rfl, rfl, rfl⟩
    · exact absurd rfl ne'
    · exact absurd here ne
    · exact safe.once id s p t s' p' t' old old'
  · intro id s p t mem
    rcases split mem with ⟨-, rfl, -, -⟩ | ⟨-, old⟩
    · refine ⟨sub drew, fun other there => ?_⟩
      obtain ⟨ne, there⟩ := still other _ there
      exact ne (safe.apart _ _ _ there pending)
    · refine ⟨sub (safe.drawn id s p t old).1, fun other there => ?_⟩
      exact (safe.drawn id s p t old).2 other (still other _ there).2
  · exact fun id first second one two => safe.apart id first second (still first id one).2 (still second id two).2
  · intro id gone
    obtain ⟨s, p, t, there⟩ := safe.gone id ((List.mem_cons.mp gone).resolve_left (by rintro ⟨⟩))
    exact ⟨s, p, t, sub there⟩
  · exact ⟨asked, safe.grounded⟩

/-- An account that is the person's is removed. -/
theorem safe_remove (safe : Safe vault state) {call : Nat} {subject id : String}
    (there : state.rows.any (isRow subject id) = true) :
    Safe vault (({ state with rows := state.rows.filter fun row => !isRow subject id row }.note (.removed id)).goto call
      (.removed subject id true)) := by
  obtain ⟨row, mem, here⟩ := List.any_eq_true.mp there
  obtain ⟨rfl, rfl⟩ : row.id = id ∧ row.ownerSubject = subject := by simpa [isRow] using here
  obtain ⟨iv, token, -, connected⟩ := (safe.rows row mem).1
  have sub : state.log ⊆ .removed row.id :: state.log := List.subset_cons_self _ _
  have old : ∀ {s i p t}, Event.connected s i p t ∈ Event.removed row.id :: state.log → .connected s i p t ∈ state.log :=
    fun mem => (List.mem_cons.mp mem).resolve_left (by rintro ⟨⟩)
  have removed : Safe vault ({ state with rows := state.rows.filter fun r => !isRow row.ownerSubject row.id r }.note
      (.removed row.id)) := by
    constructor
    · intro r kept
      obtain ⟨mem', other⟩ := List.mem_filter.mp kept
      refine ⟨(safe.rows r mem').1.mono sub, fun gone => ?_⟩
      rcases List.mem_cons.mp gone with same | before
      · obtain ⟨iv', token', -, connected'⟩ := (safe.rows r mem').1
        have same := Event.removed.inj same
        rw [same] at connected'
        have owner := (safe.once _ _ _ _ _ _ _ connected connected').1
        simp [isRow, same, owner] at other
      · exact (safe.rows r mem').2 before
    · exact fun id kept there => sub (safe.cached id kept there)
    · exact fun other => (safe.calls other).mono sub
    · exact fun id s p t s' p' t' one two => safe.once id s p t s' p' t' (old one) (old two)
    · exact fun id s p t one => ⟨sub (safe.drawn id s p t (old one)).1, (safe.drawn id s p t (old one)).2⟩
    · exact safe.apart
    · intro id gone
      rcases List.mem_cons.mp gone with same | before
      · cases same
        exact ⟨_, _, _, sub connected⟩
      · obtain ⟨s, p, t, there⟩ := safe.gone id before
        exact ⟨s, p, t, sub there⟩
    · exact ⟨trivial, safe.grounded⟩
  exact removed.goto trivial rfl

/-! ### Every action -/

/-- A listing that is noted leaves whose accounts they are, and their tokens. -/
theorem noted_owned {value : Listing} {now : Int} {log : List Event} {row : Account} (owned : Owned vault log row) :
    Owned vault log (noted value now row) := by
  unfold noted
  split <;> exact owned

theorem noted_id (value : Listing) (now : Int) (row : Account) : (noted value now row).id = row.id := by
  unfold noted
  split <;> rfl

theorem safe_noted (safe : Safe vault state) (id : String) (value : Listing) (now : Int) :
    Safe vault { state with rows := state.rows.map fun other => if other.id = id then noted value now other else other }
    where
  rows row mem := by
    obtain ⟨old, there, same⟩ := List.mem_map.mp mem
    split at same
    · rw [← same, noted_id]
      exact ⟨noted_owned (safe.rows old there).1, (safe.rows old there).2⟩
    · rw [← same]
      exact safe.rows old there
  cached := safe.cached
  calls := safe.calls
  once := safe.once
  drawn := safe.drawn
  apart := safe.apart
  gone := safe.gone
  grounded := safe.grounded

/-- A list is kept. -/
theorem safe_keep (safe : Safe vault state) (id : String) (value : Listing) (now : Int)
    (founded : From state.log id value.servers) :
    Safe vault ({ state with cache := Function.update state.cache id (some ⟨value, now⟩) }.note
      (.kept id now value.servers)) := by
  have noted := safe.note (.kept id now value.servers) rfl founded
  refine { noted with cached := ?_ }
  intro other kept there
  by_cases same : other = id
  · subst same
    have new : (⟨value, now⟩ : Kept) = kept := by simpa [State.note] using there
    subst new
    exact List.mem_cons_self
  · exact noted.cached other kept (by simpa [State.note, same] using there)

/-- An id that is drawn was not drawn before. -/
def Fresh (state : State) : Action → Prop
  | .verified _ _ id _ _ => .drew id ∉ state.log
  | _ => True

theorem safe_step (sound : vault.Sound) (safe : Safe vault state) (action : Action) (fresh : Fresh state action) :
    Safe vault (step config vault state action) := by
  cases action with
  | connect call subject request =>
    simp only [step]
    split
    · split
      · rename_i fault refused
        exact safe.note (.replied subject (.refused fault)) rfl trivial
      · exact safe.goto trivial rfl
    · exact safe
  | counts call =>
    simp only [step]
    split
    · rename_i subject request token waits
      split
      · exact safe.reply call _ trivial
      · have asked := safe.note (.verifyAsked subject request.provider token) rfl trivial
        exact asked.goto List.mem_cons_self rfl
    · exact safe
  | verified call answer id iv now =>
    simp only [step]
    split
    · rename_i subject request token waits
      have asked := safe.calls call
      rw [waits] at asked
      split
      · exact safe.reply call _ trivial
      · exact safe_draw safe ⟨iv, rfl⟩ asked fresh
    · exact safe
  | inserts call =>
    simp only [step]
    split
    · rename_i row token waits
      split
      · exact safe.reply call _ trivial
      · rename_i rows inserted
        rw [insert_ok inserted]
        exact safe_insert safe waits
    · exact safe
  | disconnect call subject id =>
    simp only [step]
    split
    · exact safe.goto trivial rfl
    · exact safe
  | removes call =>
    simp only [step]
    split
    · split
      · rename_i there
        exact safe_remove safe there
      · exact safe.goto trivial rfl
    · exact safe
  | «show» call subject id fresh =>
    simp only [step]
    split
    · exact safe.goto trivial rfl
    · exact safe
  | act call subject id serverId action =>
    simp only [step]
    split
    · split
      · exact safe.note _ rfl trivial
      · split
        · exact safe.note _ rfl trivial
        · rename_i known
          exact safe.goto (not_not.mp known) rfl
    · exact safe
  | looks call =>
    simp only [step]
    split
    · rename_i subject id purpose waits
      have known := safe.calls call
      rw [waits] at known
      split
      · rename_i row there
        have mem := List.mem_of_find?_eq_some there
        obtain ⟨rfl, rfl⟩ : row.id = id ∧ row.ownerSubject = subject := by simpa [isRow] using List.find?_some there
        obtain ⟨owned, standing⟩ := safe.rows row mem
        obtain ⟨iv, token, -, connected⟩ := id owned
        have looked := safe.note (.looked call row.ownerSubject row.id) rfl ⟨standing, _, _, connected⟩
        exact looked.goto ⟨⟨owned.mono (List.subset_cons_self _ _), List.mem_cons_self⟩, known⟩ rfl
      · refine safe.reply call _ ?_
        cases purpose <;> trivial
    · exact safe
  | proceeds call now =>
    simp only [step]
    split
    · rename_i row purpose waits
      have known := safe.calls call
      rw [waits] at known
      obtain ⟨mine, known⟩ := known
      split
      · rename_i value found
        obtain ⟨kept, there, young, rfl⟩ : ∃ kept, state.cache row.id = some kept ∧
            now - kept.time < keptMs ∧ kept.value = value := by
          unfold hit at found
          split at found
          · cases found
          · simpa [Option.bind_eq_some_iff] using found
        exact safe_choose sound safe mine known (safe.cached _ _ there) young
      · split
        · rename_i fault failed
          exact safe.goto ⟨mine, known, .inl rfl⟩ rfl
        · rename_i token opened
          obtain ⟨iv, token', sealed, connected⟩ := id mine.1
          have same : token' = token := by
            rw [sealed, open_seal sound] at opened
            exact Except.ok.inj opened
          subst same
          have asked := safe.note (.listAsked call row.ownerSubject row.id row.provider token') rfl ⟨mine.2, connected⟩
          exact asked.goto ⟨mine.mono (List.subset_cons_self _ _), known, List.mem_cons_self⟩ rfl
    · exact safe
  | lists call answer =>
    simp only [step]
    split
    · rename_i row purpose token waits
      have known := safe.calls call
      rw [waits] at known
      obtain ⟨mine, known, asked⟩ := known
      split
      · exact safe.goto ⟨mine, known, .inl rfl⟩ rfl
      · rename_i servers
        have listed := safe.note (.listed row.id row.provider token servers) rfl ⟨call, _, asked⟩
        exact listed.goto ⟨mine.mono (List.subset_cons_self _ _), known,
          .inr ⟨_, _, servers, List.mem_cons_self, rfl⟩⟩ rfl
    · exact safe
  | notes call now =>
    simp only [step]
    split
    · rename_i row purpose value waits
      have known := safe.calls call
      rw [waits] at known
      exact (safe_noted safe row.id value now).goto known rfl
    · exact safe
  | keeps call now =>
    simp only [step]
    split
    · rename_i row purpose value waits
      have known := safe.calls call
      rw [waits] at known
      obtain ⟨mine, known, founded⟩ := known
      refine safe_choose sound (safe_keep safe row.id value now founded) (mine.mono (List.subset_cons_self _ _)) known
        List.mem_cons_self ?_
      rw [sub_self]
      decide
    · exact safe
  | acts call failed =>
    simp only [step]
    split
    · rename_i row listed action waits
      have known := safe.calls call
      rw [waits] at known
      exact safe.goto known rfl
    · exact safe
  | records call now =>
    simp only [step]
    split
    · rename_i row listed action result waits
      have known := safe.calls call
      rw [waits] at known
      obtain ⟨token, time, acted⟩ := known
      have recorded := safe.note (.recorded (actionRow row listed action result now)) rfl ⟨call, token, time, acted⟩
      have written : Safe vault ({ state with actions := state.actions ++ [actionRow row listed action result now] }.note
          (.recorded (actionRow row listed action result now))) := { recorded with }
      exact written.goto trivial rfl
    · exact safe
  | ends call =>
    simp only [step]
    split
    · exact (safe.forget _).reply call _ trivial
    · exact (safe.forget _).reply call _ trivial
    · rename_i row listed action result waits
      refine (safe.forget _).reply call _ ?_
      split <;> trivial
    · exact safe

/-- Whatever calls are made and however they interleave. -/
theorem safe_run (sound : vault.Sound) {schedule : List Action}
    (fresh : Along (step config vault) Fresh initial schedule) : Safe vault (run (step config vault) initial schedule) :=
  always_last schedule
    (always_of_invariant (fun _ action safe fresh => safe_step sound safe action fresh) schedule safe_initial fresh)

/-- A token goes to the provider that its owner gave it for, and for its owner only; the servers that a person is shown
are those that the provider listed with the person's own token. An account is one person's. -/
structure Isolated (log : List Event) : Prop where
  asked : ∀ later call subject id provider token earlier,
    log = later ++ .listAsked call subject id provider token :: earlier → .connected subject id provider token ∈ earlier
  acted : ∀ later call subject id provider token serverId action time earlier,
    log = later ++ .acted call subject id provider token serverId action time :: earlier →
      .connected subject id provider token ∈ earlier
  shown : ∀ later subject id value earlier, log = later ++ .replied subject (.shown id value) :: earlier →
    Theirs earlier subject id value.servers
  given : ∀ later subject id provider token earlier, log = later ++ .connected subject id provider token :: earlier →
    .verifyAsked subject provider token ∈ earlier
  once : ∀ id subject provider token subject' provider' token', .connected subject id provider token ∈ log →
    .connected subject' id provider' token' ∈ log → subject' = subject ∧ provider' = provider ∧ token' = token

/-- What is done to a server: start, stop or reboot, where the account's provider listed the server less than a minute
before; what is written down was done. -/
structure ActsListed (log : List Event) : Prop where
  acted : ∀ later call subject id provider token serverId action time earlier,
    log = later ++ .acted call subject id provider token serverId action time :: earlier → action ∈ actions ∧
      ∃ before servers list, .kept id before servers ∈ earlier ∧ time - before < keptMs ∧
        .listed id provider token list ∈ earlier ∧ serverId ∈ list.map (·.id)
  recorded : ∀ later row earlier, log = later ++ .recorded row :: earlier → ∃ call token time,
    .acted call row.ownerSubject row.accountId row.provider token row.serverId row.action time ∈ earlier

/-- The call found the account, and it was not disconnected then. -/
def FoundStanding (earlier : List Event) (call : Nat) (subject id : String) : Prop :=
  ∃ between before, earlier = between ++ .looked call subject id :: before ∧ .removed id ∉ before

/-- Whoever reaches a provider found the account before it was disconnected. -/
structure Standing (log : List Event) : Prop where
  asked : ∀ later call subject id provider token earlier,
    log = later ++ .listAsked call subject id provider token :: earlier → FoundStanding earlier call subject id
  acted : ∀ later call subject id provider token serverId action time earlier,
    log = later ++ .acted call subject id provider token serverId action time :: earlier →
      FoundStanding earlier call subject id

/-- What an event rests on, where it stands in the log. -/
theorem Safe.entry (safe : Safe vault state) {later earlier : List Event} {event : Event}
    (split : state.log = later ++ event :: earlier) : Console.grounds earlier event := by
  have grounded := safe.grounded
  rw [split] at grounded
  exact grounded.entry

theorem Safe.found (safe : Safe vault state) {later earlier : List Event} {event : Event} {call : Nat}
    {subject id : String} (split : state.log = later ++ event :: earlier) (looked : .looked call subject id ∈ earlier) :
    FoundStanding earlier call subject id := by
  obtain ⟨between, before, rfl⟩ := List.append_of_mem looked
  have split' : state.log = (later ++ event :: between) ++ .looked call subject id :: before := by simp [split]
  exact ⟨between, before, rfl, (safe.entry split').1⟩

/-! ### A visit -/

/-- A text without its dots. -/
def escape : List Char → List Char
  | [] => []
  | c :: rest => (if c = '.' then ['-', 'd'] else if c = '-' then ['-', '-'] else [c]) ++ escape rest

def unescape : List Char → List Char
  | '-' :: 'd' :: rest => '.' :: unescape rest
  | '-' :: '-' :: rest => '-' :: unescape rest
  | c :: rest => c :: unescape rest
  | [] => []

theorem escape_dotless (text : List Char) : '.' ∉ escape text := by
  induction text with
  | nil => simp [escape]
  | cons c rest ih =>
    unfold escape
    split
    · simp [ih]
    · split
      · simp [ih]
      · rename_i dot dash
        simp [ih, Ne.symm dot]

theorem unescape_escape (text : List Char) : unescape (escape text) = text := by
  induction text with
  | nil => rfl
  | cons c rest ih =>
    unfold escape
    split
    · rename_i dot
      simp [unescape, ih, dot]
    · split
      · rename_i dash
        simp [unescape, ih, dash]
      · rename_i dot dash
        rw [List.singleton_append, unescape, ih]
        · exact fun other same _ => dash same
        · exact fun other same _ => dash same

/-- A vault that hides nothing. -/
def openVault : Vault where
  encode _ := ""
  encrypt _ token := ("", String.ofList (escape token.toList))
  decrypt _ _ body := .ok (String.ofList (unescape (body.getD "").toList))

theorem openVault_sound : openVault.Sound where
  plain _ := by simp [openVault]
  plainTag _ _ := by simp [openVault]
  plainBody _ token := by simpa [openVault] using escape_dotless token.toList
  opens _ token := by simp [openVault, unescape_escape]

/-- An account is connected, a server of it started, and the account disconnected. -/
def visit : List Action := [
  .connect 0 "usr_a" ⟨"linode", "0123456789abcdef", "mine"⟩, .counts 0, .verified 0 (.ok "me") "hca_1" [] 5, .inserts 0,
  .ends 0, .act 1 "usr_a" "hca_1" "7" "start", .looks 1, .proceeds 1 10, .lists 1 (.ok [⟨"7", "web"⟩]), .notes 1 11,
  .keeps 1 12, .acts 1 none, .records 1 14, .ends 1, .disconnect 2 "usr_a" "hca_1", .removes 2, .ends 2]

def openConfig : Config := ⟨true, 10⟩

def visited : List Event := (run (step openConfig openVault) initial visit).log

theorem visit_fresh : Along (step openConfig openVault) Fresh initial visit := by
  have asked : (run (step openConfig openVault) initial (visit.take 2)).log =
      [.verifyAsked "usr_a" "linode" "0123456789abcdef"] := rfl
  refine ⟨trivial, trivial, ?_, trivial, trivial, trivial, trivial, trivial, trivial, trivial, trivial, trivial, trivial,
    trivial, trivial, trivial, trivial, trivial⟩
  change .drew "hca_1" ∉ (run (step openConfig openVault) initial (visit.take 2)).log
  rw [asked]
  simp

/-- Whatever calls are under way when an account is disconnected. -/
theorem disconnected_unused (sound : vault.Sound) {schedule : List Action}
    (fresh : Along (step config vault) Fresh initial schedule) :
    Standing (run (step config vault) initial schedule).log := by
  have safe := safe_run sound fresh
  exact {
    asked := fun later call subject id provider token earlier split => safe.found split (safe.entry split).1
    acted := fun later call subject id provider token serverId action time earlier split =>
      safe.found split (safe.entry split).1 }

theorem disconnected_unused_visit : Standing visited ∧ .removed "hca_1" ∈ visited :=
  ⟨disconnected_unused openVault_sound visit_fresh, List.mem_of_getElem? (i := 1) rfl⟩

end OpenVibeHost.Console
