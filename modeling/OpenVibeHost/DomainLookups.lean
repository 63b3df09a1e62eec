import OpenVibeHost.Catalog
import OpenVibeHost.EnvFile
import OpenVibeHost.OrderedMaps
import OpenVibeHost.Transition
import Mathlib.Logic.Function.Basic

/-! Lookups of domain names at the registries, `server/catalog/rdap.js`. Any number of them run together: they share
the directory of the registries' servers, one fetch of it, and the answers that are kept. Each action is what one call
does until it waits again; between two of them any other call may go on. -/
namespace OpenVibeHost.Rdap
open Transition OrderedMaps

/-! ### What is read -/

/-- What is used of the runtime: `toLowerCase`, `encodeURIComponent`, the host name of a URL, and the ISO text of a
text that `Date.parse` takes for a time. -/
structure Runtime where
  toLowerCase : String → String
  encodeURIComponent : String → String
  hostname : String → String
  isoDate : String → Option String

def bootstrapTtl : Int := 24 * 3600000

def answerTtl : Int := 10 * 60000

def maxCached : Nat := 2000

/-- `startsWith('https://')`. -/
def Secure (url : String) : Prop := "https://".toList <+: url.toList

instance (url : String) : Decidable (Secure url) := inferInstanceAs (Decidable (_ <+: _))

/-- `Array.isArray(value) ? value : []`. -/
def itemsOf : Option Json → List Json
  | some (.arr items) => items
  | _ => []

/-- The first of the URLs that is an https one. -/
def baseOf (urls : List Json) : Option String :=
  urls.findSome? fun
    | .str url => if Secure url then some url else none
    | _ => none

/-- `base.endsWith('/') ? base : base + '/'`. -/
def closed (base : String) : String := if base.toList.getLast? = some '/' then base else base ++ "/"

/-- The servers of one entry of the directory, by the endings that it lists. -/
def addEntry (runtime : Runtime) (map : OrderedMap String String) (entry : Json) : OrderedMap String String :=
  match baseOf (itemsOf ((itemsOf (some entry))[1]?)) with
  | none => map
  | some base =>
    (itemsOf ((itemsOf (some entry))[0]?)).foldl (fun map ending =>
      match ending with
      | .str tld => map.set (runtime.toLowerCase tld) (closed base)
      | _ => map) map

def listServers (runtime : Runtime) (body : Json) : OrderedMap String String :=
  (itemsOf (body.field "services")).foldl (addEntry runtime) .empty

/-- The servers that a directory lists, at least one and each over https. -/
structure Servers where
  map : OrderedMap String String
  secure : ∀ entry ∈ map.entries, Secure entry.2
  listed : map.entries ≠ []

theorem secure_baseOf {urls : List Json} {base : String} (first : baseOf urls = some base) : Secure base := by
  obtain ⟨url, _, taken⟩ := List.exists_of_findSome?_eq_some first
  cases url with
  | str text =>
    simp only [Option.ite_none_right_eq_some, Option.some.injEq] at taken
    exact taken.2 ▸ taken.1
  | _ => cases taken

theorem secure_closed {base : String} (secure : Secure base) : Secure (closed base) := by
  unfold closed
  split
  · exact secure
  · exact secure.trans (by simp)

theorem secure_addEntry (runtime : Runtime) {map : OrderedMap String String} (entry : Json)
    (secure : ∀ e ∈ map.entries, Secure e.2) : ∀ e ∈ (addEntry runtime map entry).entries, Secure e.2 := by
  unfold addEntry
  split
  · exact secure
  · rename_i base first
    generalize itemsOf ((itemsOf (some entry))[0]?) = endings
    induction endings generalizing map with
    | nil => exact secure
    | cons ending rest ih =>
      refine ih ?_
      cases ending with
      | str tld =>
        intro e mem
        rcases OrderedMap.mem_set mem with rfl | old
        · exact secure_closed (secure_baseOf first)
        · exact secure e old
      | _ => exact secure

theorem secure_listServers (runtime : Runtime) (body : Json) :
    ∀ e ∈ (listServers runtime body).entries, Secure e.2 := by
  have go : ∀ (entries : List Json) (map : OrderedMap String String), (∀ e ∈ map.entries, Secure e.2) →
      ∀ e ∈ (entries.foldl (addEntry runtime) map).entries, Secure e.2 := by
    intro entries
    induction entries with
    | nil => exact fun _ secure => secure
    | cons entry rest ih => exact fun map secure => ih _ (secure_addEntry runtime entry secure)
  exact go _ _ fun e mem => by cases mem

/-- What the body of the directory comes to; one that is null or lists no server is an error. -/
def readServers (runtime : Runtime) (body : Json) : Option Servers :=
  match body with
  | .null => none
  | body =>
    if listed : (listServers runtime body).entries ≠ [] then
      some ⟨listServers runtime body, secure_listServers runtime body, listed⟩
    else none

inductive Status where
  | registered
  | unregistered
  | unknown
  deriving DecidableEq, Repr

structure Answer where
  status : Status
  server : Option String := none
  reason : Option String := none
  registrar : Option String := none
  created : Option String := none
  expires : Option String := none
  deriving DecidableEq, Repr

def eventDate (runtime : Runtime) (body : Json) (action : String) : Option String :=
  ((itemsOf (body.field "events")).findSome? fun event =>
    match event.field "eventAction", event.field "eventDate" with
    | some (.str named), some (.str date) => if named = action then some date else none
    | _, _ => none).bind runtime.isoDate

def registrarOf (body : Json) : Option String := do
  let entity ← (itemsOf (body.field "entities")).find? fun entity =>
    (itemsOf (entity.field "roles")).any fun role => role.same (.str "registrar")
  let full ← (itemsOf ((itemsOf (entity.field "vcardArray"))[1]?)).find? fun field =>
    ((itemsOf (some field))[0]?).any fun first => first.same (.str "fn")
  match (itemsOf (some full))[3]? with
  | some (Json.str text) =>
    let name := EnvFile.trim text.toList
    if name = [] then none else some (String.ofList (Catalog.slice 200 name))
  | _ => none

/-- What the status alone says. -/
def judgeStatus (server : String) (code : Nat) : Option Answer :=
  if code = 404 then some { status := .unregistered, server }
  else if code = 429 then
    some { status := .unknown, server, reason := "The registry asked us to slow down; try again in a minute." }
  else if ¬ (200 ≤ code ∧ code < 300) then
    some { status := .unknown, server, reason := "The registry answered " ++ toString code ++ "." }
  else none

def isDomain (body : Json) : Bool := (body.field "objectClassName").any fun name => name.same (.str "domain")

/-- What the body says, which may be unreadable. -/
def judgeBody (runtime : Runtime) (server : String) : Option Json → Answer
  | none => { status := .unknown, server, reason := "The registry's answer could not be read." }
  | some body =>
    if isDomain body then
      { status := .registered, server, registrar := registrarOf body
        created := eventDate runtime body "registration", expires := eventDate runtime body "expiration" }
    else { status := .unknown, server, reason := "The registry's answer was not a domain record." }

/-- What a registry's response says of the name that it was asked for. -/
def verdict (runtime : Runtime) (server : String) (code : Nat) (body : Option Json) : Answer :=
  (judgeStatus server code).getD (judgeBody runtime server body)

/-- `name.slice(name.lastIndexOf('.') + 1)`. -/
def tldOf (name : String) : String := String.ofList (name.toList.reverse.takeWhile (· ≠ '.')).reverse

def target (runtime : Runtime) (base name : String) : String := base ++ "domain/" ++ runtime.encodeURIComponent name

/-! ### Calls that run together -/

structure Directory where
  time : Int
  servers : Servers

/-- The one load of the directory that is under way. -/
inductive Loading where
  | fetching
  | reading
  /-- It is over; `loading` is not cleared yet. -/
  | settled (outcome : Option Servers)

structure Cached where
  time : Int
  answer : Answer

/-- Where a call of `lookup` waits. -/
inductive Phase where
  | idle
  /-- For the load of the directory. -/
  | waiting (name : String)
  /-- `servers` goes on with what the load came to, or with the directory that was there. -/
  | resuming (name : String) (outcome : Option Servers)
  /-- For `assertPublicUrl`. -/
  | vetting (name base : String)
  | asking (name base : String)
  | reading (name base : String) (code : Nat)
  | answered (name : String) (answer : Answer)

/-- A call that waits for the load goes on with what it came to. -/
def Phase.wake (outcome : Option Servers) : Phase → Phase
  | .waiting name => .resuming name outcome
  | phase => phase

/-- What went out, came in and was answered. -/
inductive Event where
  | directoryAsked (time : Int)
  | directoryOver
  | directoryLoaded (time : Int) (servers : Servers)
  | registryAsked (name url : String)
  | registryAnswered (name url : String) (code : Nat) (body : Option Json)
  | replied (time : Int) (name : String) (answer : Answer) (cached : Bool)

structure State where
  bootstrap : Option Directory
  loading : Option Loading
  answers : OrderedMap String Cached
  calls : Nat → Phase
  /-- The latest event first. -/
  log : List Event

def initial : State := ⟨none, none, .empty, fun _ => .idle, []⟩

inductive Action where
  /-- A call begins; the clock is read for the answers that are kept and again for the directory. -/
  | call (id : Nat) (name : String) (now later : Int)
  | directoryAnswers (code : Nat)
  | directoryFails
  | directoryReads (body : Json) (now : Int)
  | directoryClears
  | resume (id : Nat)
  | vetted (id : Nat) (reachable : Bool)
  | fails (id : Nat) (aborted : Bool)
  | answers (id : Nat) (code : Nat)
  | reads (id : Nat) (body : Option Json)
  | finish (id : Nat) (now : Int)

def State.goto (state : State) (id : Nat) (phase : Phase) : State :=
  { state with calls := Function.update state.calls id phase }

def State.note (state : State) (event : Event) : State := { state with log := event :: state.log }

/-- The answer that is kept for a name and not too old. -/
def hit (state : State) (name : String) (now : Int) : Option Answer :=
  (state.answers.get name).bind fun kept => if now - kept.time < answerTtl then some kept.answer else none

/-- The directory, where it is not too old. -/
def fresh (state : State) (now : Int) : Option Servers :=
  state.bootstrap.bind fun directory => if now - directory.time < bootstrapTtl then some directory.servers else none

/-- `servers()` until it waits: the load that is under way is joined. -/
def askServers (state : State) (id : Nat) (name : String) (now : Int) : State :=
  match fresh state now with
  | some servers => state.goto id (.resuming name (some servers))
  | none =>
    match state.loading with
    | some _ => state.goto id (.waiting name)
    | none => ({ state with loading := some .fetching }.note (.directoryAsked now)).goto id (.waiting name)

/-- The load is over, with or without servers. -/
def settle (state : State) (outcome : Option Servers) : State :=
  { state with loading := some (.settled outcome) }.note .directoryOver

/-- What `ask` makes of the directory. -/
def chooseServer (name : String) (servers : Option Servers) : Phase :=
  match servers with
  | none =>
    .answered name
      { status := .unknown, reason := "The registries' lookup directory did not answer just now." }
  | some servers =>
    match servers.map.get (tldOf name) with
    | none =>
      .answered name
        { status := .unknown
          reason := "The ." ++ tldOf name ++ " registry offers no public RDAP lookup; a registrar's search will say." }
    | some base => .vetting name base

/-- One action; one that does not fit where its call is does nothing. -/
def step (runtime : Runtime) (state : State) : Action → State
  | .call id name now later =>
    match state.calls id with
    | .idle =>
      match hit state name now with
      | some answer => state.note (.replied now name answer true)
      | none => askServers state id name later
    | _ => state
  | .directoryAnswers code =>
    match state.loading with
    | some .fetching =>
      if 200 ≤ code ∧ code < 300 then { state with loading := some .reading } else settle state none
    | _ => state
  | .directoryFails =>
    match state.loading with
    | some .fetching | some .reading => settle state none
    | _ => state
  | .directoryReads body now =>
    match state.loading with
    | some .reading =>
      match readServers runtime body with
      | none => settle state none
      | some servers =>
        settle ({ state with bootstrap := some ⟨now, servers⟩ }.note (.directoryLoaded now servers)) (some servers)
    | _ => state
  | .directoryClears =>
    match state.loading with
    | some (.settled outcome) =>
      { state with loading := none, calls := fun id => (state.calls id).wake outcome }
    | _ => state
  | .resume id =>
    match state.calls id with
    | .resuming name outcome =>
      -- After a load that failed the directory there is serves, however old it is.
      state.goto id (chooseServer name (outcome.or (state.bootstrap.map (·.servers))))
    | _ => state
  | .vetted id reachable =>
    match state.calls id with
    | .vetting name base =>
      if reachable then (state.note (.registryAsked name (target runtime base name))).goto id (.asking name base)
      else
        state.goto id (.answered name
          { status := .unknown, reason := "That registry's lookup is not reachable from here." })
    | _ => state
  | .fails id aborted =>
    match state.calls id with
    | .asking name base =>
      state.goto id (.answered name
        { status := .unknown, server := runtime.hostname base
          reason :=
            if aborted then "The registry did not answer in time." else "The registry could not be reached." })
    | _ => state
  | .answers id code =>
    match state.calls id with
    | .asking name base =>
      match judgeStatus (runtime.hostname base) code with
      | some answer =>
        (state.note (.registryAnswered name (target runtime base name) code none)).goto id (.answered name answer)
      | none => state.goto id (.reading name base code)
    | _ => state
  | .reads id body =>
    match state.calls id with
    | .reading name base code =>
      (state.note (.registryAnswered name (target runtime base name) code body)).goto id
        (.answered name (judgeBody runtime (runtime.hostname base) body))
    | _ => state
  | .finish id now =>
    match state.calls id with
    | .answered name answer =>
      let kept := if answer.status = .unknown then state.answers else state.answers.put maxCached name ⟨now, answer⟩
      ({ state with answers := kept }.note (.replied now name answer false)).goto id .idle
    | _ => state

end OpenVibeHost.Rdap
