import Mathlib.Logic.Function.Basic
import OpenVibeHost.Console

/-! The console's calls as they run together (server/console/console.js): accounts that are connected and disconnected,
the servers of an account with the list that is kept for a minute, and what is done to a server. What the overview makes
of the lists (totals, cheaper plans) is left out, and so are failures of the database. -/
namespace OpenVibeHost.Console

open Catalog (Fault)

/-! ### Sealed tokens -/

/-- AES-256-GCM under the console's key, its parts in base64. -/
structure Vault where
  encode : List UInt8 → String
  /-- The tag and the body. -/
  encrypt : List UInt8 → String → String × String
  /-- From the base64 of the vector, the tag and the body, each of which may be missing. -/
  decrypt : Option String → Option String → Option String → Except String String

def sealToken (vault : Vault) (iv : List UInt8) (token : String) : String :=
  "v1." ++ vault.encode iv ++ "." ++ (vault.encrypt iv token).1 ++ "." ++ (vault.encrypt iv token).2

/-- `open`. -/
def openToken (vault : Vault) (sealed : String) : Except Fault String :=
  let parts := (sealed.toList.splitOn '.').map String.ofList
  if parts[0]? ≠ some "v1" then .error (refusal 500 "console.sealed" "a stored token is in an unknown format")
  else (vault.decrypt parts[1]? parts[2]? parts[3]?).mapError .thrown

/-! ### Servers -/

/-- What is read of a server that a provider lists. -/
structure Server where
  id : String
  name : String := ""
  deriving DecidableEq

/-- A server with the account that it was listed for. -/
structure Listed where
  server : Server
  provider : String
  accountId : String
  deriving DecidableEq

/-- What is made of a provider's list. -/
structure Listing where
  servers : List Listed
  error : Option String := none

structure Kept where
  value : Listing
  time : Int

/-- How long a list is kept. -/
def keptMs : Int := 60000

def serversFor (row : Account) (servers : List Server) : List Listed :=
  servers.map fun server => ⟨server, row.provider, row.id⟩

/-- `err.message` of what listing an account's servers threw. -/
def messageOf : Fault → String
  | .api error => error.message
  | .thrown message => message
  | .database name => name

def unlisted (fault : Fault) : Listing :=
  { servers := [], error := if messageOf fault = "" then "the provider did not answer" else messageOf fault }

/-- The start of a text, for `slice(0, count)`. -/
def clipped (count : Nat) (text : String) : String := String.ofList (Catalog.slice count text.toList)

/-! ### Connecting -/

/-- The token of a request that may go to its provider. -/
def requestToken (config : Config) (request : Request) : Except Fault String := do
  need config
  let token := trimmed request.token
  if request.provider ∉ providers then .error (refusal 422 "console.provider" "pick one of the listed providers")
  else if Catalog.units token < 16 ∨ 512 < Catalog.units token ∨ token.toList.any Json.blank then
    .error (refusal 422 "console.token" "paste the whole API token (no spaces)")
  else .ok token

def countOf (subject : String) (rows : List Account) : Nat := rows.countP (·.ownerSubject = subject)

def tooMany (config : Config) : Fault :=
  refusal 429 "console.too_many" s!"you can connect {config.maxAccounts} accounts"

def unverified (err : ProviderError) : Fault :=
  refusal (if err.status = 401 then 422 else 502) "console.verify" err.message

/-- The row of an account that its provider answered `found` for. -/
def rowOf (subject : String) (request : Request) (found token id sealed : String) (now : Int) : Account where
  id
  ownerSubject := subject
  provider := request.provider
  label := if clipped 60 (trimmed request.label) = "" then clipped 60 found else clipped 60 (trimmed request.label)
  tokenSealed := sealed
  tokenHint := lastChars 4 token
  createdAt := now
  lastOkAt := some now
  lastError := none

/-- The steps of `connect` in the order in which it makes them. -/
theorem connect_eq (config : Config) (subject : String) (request : Request) (outside : Outside) :
    connect config subject request outside = (do
      let token ← Session.ofExcept (requestToken config request)
      let n ← Session.select (countOf subject)
      if config.maxAccounts ≤ n then Session.fail (tooMany config)
      else
        match outside.verify with
        | .error err => Session.fail (unverified err)
        | .ok found =>
          Session.execute none (insert (rowOf subject request found token outside.id outside.sealed outside.now))
          pure outside.id) := by
  unfold connect requestToken
  cases need config with
  | error fault => rfl
  | ok _ =>
    simp only [Session.ofExcept_ok, Session.ret_bind]
    split
    · simp only [bind, Except.bind]
      rfl
    · simp only [bind, Except.bind]
      split <;> rfl

/-! ### Calls that run together -/

/-- What a list is asked for. -/
inductive Purpose where
  | show (fresh : Bool)
  | act (serverId action : String)

/-- A row of `host_console_actions`. -/
structure ActionRow where
  ownerSubject : String
  accountId : String
  provider : String
  serverId : String
  serverName : String
  action : String
  result : String
  time : Int
  deriving DecidableEq

/-- Where a call waits. -/
inductive Phase where
  | idle
  | counting (subject : String) (request : Request) (token : String)
  /-- For the provider to say whose token it is. -/
  | verifying (subject : String) (request : Request) (token : String)
  | inserting (row : Account) (token : String)
  | inserted (row : Account)
  | removing (subject id : String)
  | removed (subject id : String) (found : Bool)
  | looking (subject accountId : String) (purpose : Purpose)
  /-- The account was found; the list that is kept for it comes next. -/
  | found (row : Account) (purpose : Purpose)
  | listing (row : Account) (purpose : Purpose) (token : String)
  /-- The outcome of a listing goes into the account's row, and then among what is kept. -/
  | noting (row : Account) (purpose : Purpose) (value : Listing)
  | keeping (row : Account) (purpose : Purpose) (value : Listing)
  | acting (row : Account) (known : Listed) (action : String)
  | recording (row : Account) (known : Listed) (action result : String)
  | recorded (row : Account) (known : Listed) (action result : String)

inductive Reply where
  | refused (fault : Fault)
  | connected (id : String)
  | disconnected (found : Bool)
  | shown (accountId : String) (value : Listing)
  | acted (known : Listed) (action : String)

/-- What went to the providers, came back, was stored and was answered. -/
inductive Event where
  /-- A random id for an account. -/
  | drew (id : String)
  | verifyAsked (subject provider token : String)
  | connected (subject id provider token : String)
  | removed (id : String)
  | looked (call : Nat) (subject id : String)
  | listAsked (call : Nat) (subject id provider token : String)
  | listed (id provider token : String) (servers : List Server)
  | kept (id : String) (time : Int) (servers : List Listed)
  | acted (call : Nat) (subject id provider token serverId action : String) (time : Int)
  | recorded (row : ActionRow)
  | replied (subject : String) (reply : Reply)

structure State where
  rows : List Account
  actions : List ActionRow
  /-- The lists that are kept, by account. -/
  cache : String → Option Kept
  calls : Nat → Phase
  /-- The latest event first. -/
  log : List Event

def initial : State := ⟨[], [], fun _ => none, fun _ => .idle, []⟩

inductive Action where
  | connect (call : Nat) (subject : String) (request : Request)
  | counts (call : Nat)
  | verified (call : Nat) (answer : Except ProviderError String) (id : String) (iv : List UInt8) (now : Int)
  | inserts (call : Nat)
  | disconnect (call : Nat) (subject id : String)
  | removes (call : Nat)
  | show (call : Nat) (subject id : String) (fresh : Bool)
  | act (call : Nat) (subject id serverId action : String)
  | looks (call : Nat)
  | proceeds (call : Nat) (now : Int)
  | lists (call : Nat) (answer : Except String (List Server))
  | notes (call : Nat) (now : Int)
  | keeps (call : Nat) (now : Int)
  | acts (call : Nat) (failure : Option String)
  | records (call : Nat) (now : Int)
  /-- What follows the last statement of a call. -/
  | ends (call : Nat)

def State.goto (state : State) (call : Nat) (phase : Phase) : State :=
  { state with calls := Function.update state.calls call phase }

def State.note (state : State) (event : Event) : State := { state with log := event :: state.log }

/-- `cache.delete(id)`. -/
def State.forget (state : State) (id : String) : State := { state with cache := Function.update state.cache id none }

def State.reply (state : State) (call : Nat) (subject : String) (reply : Reply) : State :=
  (state.note (.replied subject reply)).goto call .idle

def notOurs : Fault := refusal 404 "console.account" "no such connected account"

def notThere : Fault := refusal 404 "console.server" "that server is not in this account"

def failure (message : String) : String := clipped 300 ("failed: " ++ message)

/-- `result.replace(/^failed: /, '')`. -/
def unprefixed (result : String) : String :=
  if "failed: ".toList.isPrefixOf result.toList then String.ofList (result.toList.drop "failed: ".length) else result

/-- What a call does with the list of an account at `time`. -/
def choose (vault : Vault) (state : State) (call : Nat) (row : Account) (value : Listing) (time : Int) :
    Purpose → State
  | .show _ => state.reply call row.ownerSubject (.shown row.id value)
  | .act serverId action =>
    match value.servers.find? fun listed => listed.server.id = serverId with
    | none => state.reply call row.ownerSubject (.refused notThere)
    | some known =>
      match openToken vault row.tokenSealed with
      | .error fault => state.goto call (.recording row known action (failure (messageOf fault)))
      | .ok token =>
        (state.note (.acted call row.ownerSubject row.id row.provider token known.server.id action time)).goto call
          (.acting row known action)

/-- The list that is kept for an account, where it is asked for and not too old. -/
def hit (state : State) (id : String) (purpose : Purpose) (now : Int) : Option Listing :=
  match purpose with
  | .show true => none
  | _ => (state.cache id).bind fun kept => if now - kept.time < keptMs then some kept.value else none

/-- The row after a listing. -/
def noted (value : Listing) (now : Int) (row : Account) : Account :=
  match value.error with
  | none => { row with lastOkAt := some now, lastError := none }
  | some error => { row with lastError := some (clipped 300 error) }

def actionRow (row : Account) (known : Listed) (action result : String) (now : Int) : ActionRow :=
  ⟨row.ownerSubject, row.id, row.provider, known.server.id, clipped 120 known.server.name, action, result, now⟩

def isRow (subject id : String) (row : Account) : Bool := row.id = id && row.ownerSubject = subject

/-- One action; one that does not fit where its call is does nothing. -/
def step (config : Config) (vault : Vault) (state : State) : Action → State
  | .connect call subject request =>
    match state.calls call with
    | .idle =>
      match requestToken config request with
      | .error fault => state.note (.replied subject (.refused fault))
      | .ok token => state.goto call (.counting subject request token)
    | _ => state
  | .counts call =>
    match state.calls call with
    | .counting subject request token =>
      if config.maxAccounts ≤ countOf subject state.rows then state.reply call subject (.refused (tooMany config))
      else (state.note (.verifyAsked subject request.provider token)).goto call (.verifying subject request token)
    | _ => state
  | .verified call answer id iv now =>
    match state.calls call with
    | .verifying subject request token =>
      match answer with
      | .error err => state.reply call subject (.refused (unverified err))
      | .ok found =>
        (state.note (.drew id)).goto call
          (.inserting (rowOf subject request found token id (sealToken vault iv token) now) token)
    | _ => state
  | .inserts call =>
    match state.calls call with
    | .inserting row token =>
      match insert row state.rows with
      | .error fault => state.reply call row.ownerSubject (.refused fault)
      | .ok rows =>
        ({ state with rows }.note (.connected row.ownerSubject row.id row.provider token)).goto call (.inserted row)
    | _ => state
  | .disconnect call subject id =>
    match state.calls call with
    | .idle => state.goto call (.removing subject id)
    | _ => state
  | .removes call =>
    match state.calls call with
    | .removing subject id =>
      if state.rows.any (isRow subject id) then
        ({ state with rows := state.rows.filter fun row => !isRow subject id row }.note (.removed id)).goto call
          (.removed subject id true)
      else state.goto call (.removed subject id false)
    | _ => state
  | .show call subject id fresh =>
    match state.calls call with
    | .idle => state.goto call (.looking subject id (.show fresh))
    | _ => state
  | .act call subject id serverId action =>
    match state.calls call with
    | .idle =>
      match need config with
      | .error fault => state.note (.replied subject (.refused fault))
      | .ok _ =>
        if action ∉ ["start", "stop", "reboot"] then
          state.note (.replied subject
            (.refused (refusal 422 "console.action" "the action is start, stop or reboot")))
        else state.goto call (.looking subject id (.act serverId action))
    | _ => state
  | .looks call =>
    match state.calls call with
    | .looking subject id purpose =>
      match state.rows.find? (isRow subject id) with
      | some row => (state.note (.looked call subject id)).goto call (.found row purpose)
      | none =>
        state.reply call subject (.refused (match purpose with
          | .act .. => notOurs
          -- The overview reads the row of an account that is gone.
          | .show _ => .thrown "Cannot read properties of undefined (reading 'token_sealed')"))
    | _ => state
  | .proceeds call now =>
    match state.calls call with
    | .found row purpose =>
      match hit state row.id purpose now with
      | some value => choose vault state call row value now purpose
      | none =>
        match openToken vault row.tokenSealed with
        | .error fault => state.goto call (.noting row purpose (unlisted fault))
        | .ok token =>
          (state.note (.listAsked call row.ownerSubject row.id row.provider token)).goto call (.listing row purpose token)
    | _ => state
  | .lists call answer =>
    match state.calls call with
    | .listing row purpose token =>
      match answer with
      | .error message => state.goto call (.noting row purpose (unlisted (.thrown message)))
      | .ok servers =>
        (state.note (.listed row.id row.provider token servers)).goto call
          (.noting row purpose { servers := serversFor row servers })
    | _ => state
  | .notes call now =>
    match state.calls call with
    | .noting row purpose value =>
      let rows := state.rows.map fun other => if other.id = row.id then noted value now other else other
      { state with rows }.goto call (.keeping row purpose value)
    | _ => state
  | .keeps call now =>
    match state.calls call with
    | .keeping row purpose value =>
      choose vault ({ state with cache := Function.update state.cache row.id (some ⟨value, now⟩) }.note
        (.kept row.id now value.servers)) call row value now purpose
    | _ => state
  | .acts call failed =>
    match state.calls call with
    | .acting row known action =>
      state.goto call (.recording row known action (failed.elim "sent" failure))
    | _ => state
  | .records call now =>
    match state.calls call with
    | .recording row known action result =>
      let written := actionRow row known action result now
      ({ state with actions := state.actions ++ [written] }.note (.recorded written)).goto call
        (.recorded row known action result)
    | _ => state
  | .ends call =>
    match state.calls call with
    | .inserted row => (state.forget row.id).reply call row.ownerSubject (.connected row.id)
    | .removed subject id found => (state.forget id).reply call subject (.disconnected found)
    | .recorded row known action result =>
      (state.forget row.id).reply call row.ownerSubject
        (if result = "sent" then .acted known action
          else .refused (refusal 502 "console.action_failed" (unprefixed result)))
    | _ => state

end OpenVibeHost.Console
