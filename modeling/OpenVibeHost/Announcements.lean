import OpenVibeHost.Dates
import OpenVibeHost.EnvReaders
import OpenVibeHost.Inventory
import OpenVibeHost.OperatorCalls

/-! Release notifications, `lib/announce.js`: what a release is announced as, the token and the publish with its one
retry, and the record by which the same release is not announced twice. What the code logs is left out. -/
namespace OpenVibeHost.Announce
open Effects Program Operator

def eventType : String := "host.release.published"

def defaultEnvFile : String := "/etc/openvibe/host.env"

/-- Each HTTP request. -/
def requestMs : Nat := 2500

/-- The token request, the publish and its one retry together. -/
def budgetMs : Nat := 6000

/-! ### Names -/

def lower (c : Char) : Bool := 'a' ≤ c && c ≤ 'z'

def hexChar (c : Char) : Bool := c.isDigit || ('a' ≤ c && c ≤ 'f')

/-- `^[a-z][a-z0-9-]{least,most}$`. -/
def isName (least most : Nat) (text : String) : Bool :=
  match text.toList with
  | [] => false
  | c :: rest =>
    lower c && rest.all (fun d => lower d || d.isDigit || d = '-') && least ≤ rest.length && rest.length ≤ most

/-- `SERVICE_RE`. -/
def isService : String → Bool := isName 1 39

/-- `COMPONENT_RE`. -/
def isComponent : String → Bool := isName 0 39

/-- `HEX_RE`. -/
def isHex (text : String) : Bool := text.toList.all hexChar && 7 ≤ text.length && text.length ≤ 40

/-- `/^[0-9a-f]{40}$/`. -/
def isSha (text : String) : Bool := text.toList.all hexChar && text.length = 40

/-- `VERSION_RE`. -/
def isVersion (text : String) : Bool :=
  text.toList.all (fun c => c.isAlphanum || c = '.' || c = '_' || c = '+' || c = '-') && 1 ≤ text.length &&
    text.length ≤ 64

/-- `/^[a-z0-9._-]{1,60}$/i`. -/
def isCode (text : String) : Bool :=
  text.toList.all (fun c => c.isAlphanum || c = '.' || c = '_' || c = '-') && 1 ≤ text.length && text.length ≤ 60

/-- `toLowerCase`, as far as it can give hexadecimal digits. -/
def lowered (text : String) : String := String.ofList (text.toList.map Char.toLower)

/-! ### The host -/

/-- The parts of a URL that was parsed. -/
structure Url where
  protocol : String
  hostname : String
  username : String
  password : String
  origin : String
  pathname : String

/-- What is used of the runtime: `new URL(text)`, the `/release.json` beside a URL, the text of `URLSearchParams`, and the
`publicOrigin` of the installed manifests. -/
structure Runtime where
  parseUrl : String → Option Url
  releaseUrl : String → Option String
  formText : List (String × String) → String
  publicOrigin : String → Option String

/-- What is read of an inventory entry; `dir` is `codeDir || repo`. -/
structure Entry where
  id : String
  dir : String
  release : Bool := false
  ready : Option Ready := none
  origin : Option String := none
  manifest : String

structure Host where
  stateDir : String
  envFile : Option String := none
  services : String → Option Entry
  /-- `$OVHOST_EVENTS_ENV`. -/
  envVariable : Option String := none

def loopback (hostname : String) : Bool := hostname ∈ ["127.0.0.1", "localhost", "[::1]", "::1"]

/-- A text that is there and not empty. -/
def given (text : Option String) : Option String := text.filter (· ≠ "")

/-- `replace(/\/+$/, '')`. -/
def unslashed (text : String) : String := String.ofList (text.toList.reverse.dropWhile (· = '/')).reverse

def baseUrl (runtime : Runtime) (raw name : String) : Except String String :=
  match runtime.parseUrl raw with
  | none => .error (name ++ " is not a URL")
  | some u =>
    if u.protocol ∉ ["http:", "https:"] ∨ u.username ≠ "" ∨ u.password ≠ "" then
      .error (name ++ " must be an http(s) URL without credentials")
    else if u.protocol = "http:" ∧ ¬ loopback u.hostname then
      .error (name ++ " must be https:// (plain http only on loopback)")
    else .ok (u.origin ++ unslashed u.pathname)

/-! ### Credentials -/

structure Credentials where
  file : String
  clientId : String
  eventsUrl : String
  networkUrl : String
  secret : String

/-- The value of a variable in what was read of the env file. -/
def valueIn (read : List (List Char × List Char)) (name : String) : String :=
  String.ofList ((EnvFile.get read name.toList).getD [])

/-- What the text of the env file comes to. -/
def credentialsOf (runtime : Runtime) (file text : String) : Except String Credentials :=
  let v := valueIn (EnvFile.Announce.parseEnv text.toList)
  let missing := ["OV_OAUTH_CLIENT_SECRET", "EVENTS_URL"].filter fun name => v name = ""
  if missing ≠ [] then .error (file ++ " sets no " ++ " and no ".intercalate missing)
  else do
    let eventsUrl ← baseUrl runtime (v "EVENTS_URL") "EVENTS_URL"
    let networkUrl ← baseUrl runtime ((given (v "OV_NETWORK_INTERNAL_URL")).getD "http://127.0.0.1:4000")
      "OV_NETWORK_INTERNAL_URL"
    let clientId := (given (v "OV_OAUTH_CLIENT_ID")).getD "host"
    if isService clientId then return { file, clientId, eventsUrl, networkUrl, secret := v "OV_OAUTH_CLIENT_SECRET" }
    else .error "OV_OAUTH_CLIENT_ID is not a service principal id"

/-- The credentials, or why there are none; that is never thrown. -/
def loadCredentials (runtime : Runtime) (host : Host) (envFile : Option String) : Command (Except String Credentials) :=
  let f := (((given envFile).or (given host.envVariable)).or (given host.envFile)).getD defaultEnvFile
  if ¬ beginsWith f "/" then return .error "the events env file must be an absolute path"
  else do
    match ← readFile f true with
    | .error code => return .error (f ++ " is not readable (" ++ code ++ ")")
    | .ok none => return .error (f ++ " not found")
    | .ok (some text) => return credentialsOf runtime f text

/-! ### What is announced -/

structure Component where
  name : String
  kind : String
  version : String
  deriving DecidableEq, Repr

/-- What is announced of a component, where the event's schema allows it. -/
def component (raw : Json) (name : String) : Option Component := do
  let c ← raw.field name
  let kind ← c.field "kind"
  match kind with
  | .str kind =>
    let version := match c.field "version" with
      | some v => if v.truthy then v.shown else ""
      | none => ""
    if isComponent name ∧ kind ∈ ["style", "content", "script", "server"] ∧ isVersion version then
      some { name, kind, version }
    else none
  | _ => none

def components (raw : Option Json) : Option (List Component) :=
  match raw with
  | some (.obj fields) =>
    let names := (Json.obj fields).keys
    if names = [] ∨ 32 < names.length then none else names.mapM (component (.obj fields))
  | _ => none

/-- The release that the body of a `/release.json` names, where it is the service's. -/
def releaseIn (id body : String) : Option (String × Option (List Component)) := do
  let m ← Json.parse body
  match m.field "release" with
  | some (.str release) =>
    if isHex release ∧ (m.field "service").any (fun s => s.same (.str id)) then
      some (release, components (m.field "components"))
    else none
  | _ => none

/-- The release that a service's `/release.json` names. -/
def servedManifest (runtime : Runtime) (entry : Entry) (ready : Ready) :
    Command (Option (String × Option (List Component))) :=
  match runtime.releaseUrl ready.url with
  | none => return none
  | some url => do
    let r ← http url ready.headers 3000
    return if r.status = 200 then releaseIn entry.id r.body else none

/-- The options of a run. -/
structure Options where
  release : Option String := none
  commit : Option String := none
  origin : Option String := none
  head : Option String := none
  rollback : Bool := false
  force : Bool := false
  dryRun : Bool := false
  envFile : Option String := none

structure Description where
  service : String
  release : String
  commit : Option String
  origin : Option String
  components : Option (List Component)
  source : String

/-- `checkOrigin`; none where the text is no origin that may be named. -/
def checkOrigin (runtime : Runtime) (raw : String) : Except String String :=
  match runtime.parseUrl raw with
  | none => .error "--origin must be a URL such as https://openvibe.live"
  | some u =>
    if (u.protocol = "https:" ∨ (u.protocol = "http:" ∧ loopback u.hostname)) ∧ u.username = "" ∧ u.password = "" then
      .ok u.origin
    else .error "--origin must be an https:// origin"

/-- The origin of a service in the installed manifests. -/
def manifestOrigin (runtime : Runtime) (id : String) : Option String :=
  (given (runtime.publicOrigin id)).bind fun raw => (checkOrigin runtime raw).toOption

/-- A hexadecimal option, in lower case. -/
def hexOption (text : Option String) (message : String) : Except String (Option String) :=
  match text with
  | none => .ok none
  | some text => if isHex (lowered text) then .ok (some (lowered text)) else .error message

/-- The checkout's HEAD, where it has to be known and can be. -/
def headOf (entry : Option Entry) (known : Option String) (needed : Bool) : Command (Option String) := do
  match known.filter isSha, entry with
  | some sha, _ => return some sha
  | none, none => return none
  | none, some entry =>
    if needed then
      match ← head entry.dir entry.release with
      | .ok h => return (some h).filter isSha
      | .error _ => return none
    else return none

/-- What the service itself reports, where no release is given. -/
def servedBy (runtime : Runtime) (entry : Option Entry) (asked : Option String) :
    Command (Option (String × Option (List Component))) :=
  match asked, entry.bind fun entry => entry.ready.map fun ready => (entry, ready) with
  | none, some (entry, ready) => servedManifest runtime entry ready
  | _, _ => return none

/-- The origin to name: the one that is given, the entry's or the manifest's. -/
def originOf (runtime : Runtime) (entry : Option Entry) (id : String) (origin : Option String) :
    Except String (Option String) :=
  match origin with
  | some raw => (checkOrigin runtime raw).map some
  | none => .ok ((entry.bind (given ·.origin)).or (manifestOrigin runtime ((entry.map (·.manifest)).getD id)))

/-- Why the release is not known. -/
def unknownRelease (entry : Option Entry) (id : String) : String :=
  match entry with
  | some _ => "cannot tell " ++ id ++ "'s release (no /release.json answer, no git HEAD): pass --release <id>"
  | none => id ++ " is not in the inventory: pass --release <id> (the release its /release.json reports) and --origin"

/-- What to announce. -/
def describeRelease (runtime : Runtime) (host : Host) (id : String) (options : Options) : Command Description :=
  if ¬ isService id then throw ("\"" ++ id ++ "\" is not a service id (the \"service\" a /release.json names)")
  else do
    let entry := host.services id
    let asked ← orThrow (hexOption options.release
      "--release must be 7 to 40 hex characters: the release id the service's /release.json reports")
    let commit ← orThrow (hexOption options.commit "--commit must be 7 to 40 hex characters")
    let served ← servedBy runtime entry asked
    let named := asked.or (served.map (·.1))
    let sha ← headOf entry options.head (named.isNone || commit.isNone)
    match named.or (sha.map sha12) with
    | none => throw (unknownRelease entry id)
    | some release =>
      let origin ← orThrow (originOf runtime entry id options.origin)
      return {
        service := id, release
        commit := commit.or (sha.filter fun sha => beginsWith sha release)
        origin
        components := served.bind (·.2)
        source := if asked.isSome then "--release" else if served.isSome then "/release.json" else "git HEAD" }

/-- The payload's components. -/
def componentsJson (cs : List Component) : Json :=
  .obj (cs.map fun c => (c.name, .obj [("kind", .str c.kind), ("version", .str c.version)]))

/-- The event for a description. -/
def envelope (d : Description) (now : Nat) (rollback : Bool) (eventId : String) : Json :=
  .obj [
    ("event_id", .str eventId),
    ("event_type", .str eventType),
    ("version", .num 1),
    ("source", .str "host"),
    ("actor", .obj [("type", .str "service"), ("id", .str "host")]),
    ("timestamp", .str (Dates.isoString now)),
    ("priority", .str "low"),
    ("visibility", .str "public"),
    ("subject", .obj [("type", .str "release"), ("id", .str (d.service ++ ":" ++ d.release))]),
    ("payload", .obj ([
      ("service", .str d.service), ("release", .str d.release), ("commit", Json.ofText d.commit),
      ("origin", Json.ofText d.origin), ("deployed_at", .str (Dates.isoString now))] ++
      (d.components.elim [] fun cs => [("components", componentsJson cs)]) ++
      if rollback then [("rollback", .bool true)] else []))]

/-! ### Publishing -/

/-- A short reason for a failed request: never the body. -/
def reason (r : HttpAnswer) : String :=
  if r.status = 0 then if r.error = "" then "unreachable" else r.error
  else
    let code := (Json.parse r.body).bind fun j =>
      match (j.field "code").filter Json.truthy with
      | some code => some code
      | none => j.field "error"
    "HTTP " ++ toString r.status ++ match code with
      | some (.str code) => if isCode code then " " ++ code else ""
      | _ => ""

/-- What a publish comes to. -/
inductive Published where
  | stored (seq : Option Int) (duplicate : Bool) (attempts : Nat)
  | failed (stage error : String)
  deriving DecidableEq, Repr

/-- `Number.isInteger(value) ? value : null`. -/
def integer (value : Option Json) : Option Int :=
  match value with
  | some (.num q) => if q.den = 1 then some q.num else none
  | _ => none

def stored (r : HttpAnswer) (attempts : Nat) : Published :=
  let j := (Json.parse r.body).getD .null
  .stored (integer (j.field "seq")) ((j.field "duplicate").any (Json.same (.bool true)) || r.status = 200) attempts

def retryable (r : HttpAnswer) : Bool := r.status = 0 || r.status = 429 || 500 ≤ r.status

/-- `left()`, since `start`. -/
def left (start now : Nat) : Nat := budgetMs - (now - start)

/-- The publish, with what is left of the budget as its timeout. -/
def post (creds : Credentials) (token body : String) (timeoutMs : Nat) : Request where
  url := creds.eventsUrl ++ "/api/v1/events"
  method := "POST"
  headers := [("Content-Type", "application/json"), ("Accept", "application/json"), ("Authorization", "Bearer " ++ token)]
  body := some body
  timeoutMs

/-- The attempts that are left, of which `made` were made; `last` is what the last one was answered. -/
def attempt (creds : Credentials) (token body : String) (start : Nat) : Nat → Nat → HttpAnswer → Command Published
  | 0, _, last => return .failed "publish" (reason last)
  | more + 1, made, _ => do
    let r ← request (post creds token body (max 500 (min requestMs (left start (← now)))))
    if r.status = 200 ∨ r.status = 201 then return stored r (made + 1)
    if ¬ retryable r ∨ left start (← now) < 1000 then return .failed "publish" (reason r)
    sleep 300
    attempt creds token body start more (made + 1) r

def tokenRequest (runtime : Runtime) (creds : Credentials) : Request where
  url := creds.networkUrl ++ "/oauth/token"
  method := "POST"
  headers := [("Content-Type", "application/x-www-form-urlencoded"), ("Accept", "application/json")]
  body := some (runtime.formText [("grant_type", "client_credentials"), ("client_id", creds.clientId),
    ("client_secret", creds.secret), ("audience", "openvibe.events"), ("scope", "events.event.publish")])
  timeoutMs := requestMs

/-- The token in the answer of the token endpoint. -/
def tokenOf (r : HttpAnswer) : Option String :=
  match (Json.parse r.body).bind (Json.field "access_token") with
  | some (.str token) => given token
  | _ => none

/-- Token, then the event with one retry. -/
def publish (runtime : Runtime) (creds : Credentials) (event : Json) : Command Published := do
  let start ← now
  let t ← request (tokenRequest runtime creds)
  if t.status ≠ 200 then return .failed "token" (reason t)
  match tokenOf t with
  | none => return .failed "token" "no access_token in the answer"
  | some token => attempt creds token (Json.stringify event) start 2 0 {}

/-! ### One announcement -/

def stateFile (host : Host) (service : String) : String := host.stateDir ++ "/announced/" ++ service ++ ".json"

/-- The record in what was read, where it is one. -/
def recordIn (read : Except String (Option String)) : Option Json :=
  match read with
  | .ok text => (given text).bind Json.parse
  | .error _ => none

/-- The record of the last announcement, where it can be read. -/
def readState (host : Host) (service : String) : Command (Option Json) :=
  return recordIn (← readFile (stateFile host service))

structure Report where
  service : String
  release : Option String
  commit : Option String := none
  origin : Option String := none
  source : Option String := none
  eventId : Option String := none
  published : Bool := false
  skipped : Option String := none
  error : Option String := none
  notConfigured : Bool := false
  seq : Option Int := none
  duplicate : Bool := false
  envelope : Option Json := none

/-- The record of an announcement. -/
def recordOf (d : Description) (eventId at' : String) (seq : Option Int) : Json :=
  .obj [("service", .str d.service), ("release", .str d.release), ("commit", Json.ofText d.commit),
    ("event_id", .str eventId), ("seq", seq.elim .null fun seq => .num seq), ("at", .str at')]

/-- Whether the record is one of the release. -/
def names (prev : Option Json) (release : String) : Bool :=
  (prev.bind (Json.field "release")).any (Json.same (.str release))

/-- The report of a release that the record names already. -/
def already (report : Report) (prev : Json) : Report :=
  { report with
    eventId := ((prev.field "event_id").filter Json.truthy).map Json.shown
    skipped := "already announced at " ++ ((prev.field "at").map Json.shown).getD "undefined" }

/-- Publishes the event and writes the record. -/
def send (runtime : Runtime) (host : Host) (creds : Credentials) (d : Description) (at' : Nat) (eventId : String)
    (event : Json) (report : Report) : Command Report := do
  match ← publish runtime creds event with
  | .failed stage error => return { report with error := stage ++ ": " ++ error }
  | .stored seq duplicate _ =>
    match ← mkdir (host.stateDir ++ "/announced") with
    | .error _ => pure ()
    | .ok _ =>
      let _ ← writeFile (stateFile host d.service) (Json.stringify (recordOf d eventId (Dates.isoString at') seq) ++ "\n")
    return { report with published := true, seq, duplicate }

/-- What is done with a description. -/
def announceDescribed (runtime : Runtime) (host : Host) (options : Options) (creds : Option Credentials)
    (d : Description) : Command Report := do
  let at' ← now
  let eventId ← newId "event"
  let event := envelope d at' options.rollback eventId
  let report : Report :=
    { service := d.service, release := d.release, commit := d.commit, origin := d.origin, source := d.source, eventId }
  match creds with
  | none => return { report with skipped := "dry run", envelope := event }
  | some creds =>
    let prev ← readState host d.service
    match prev with
    | some record =>
      if ¬ options.force ∧ names prev d.release then return already report record
      else send runtime host creds d at' eventId event report
    | none => send runtime host creds d at' eventId event report

/-- `announce`: it throws for bad arguments only. -/
def announce (runtime : Runtime) (host : Host) (id : String) (options : Options) : Command Report := do
  if options.dryRun then announceDescribed runtime host options none (← describeRelease runtime host id options)
  else
    match ← loadCredentials runtime host options.envFile with
    | .error error =>
      if ¬ isService id then throw ("\"" ++ id ++ "\" is not a service id")
      else return { service := id, release := given options.release, skipped := "not configured", error
                    notConfigured := true }
    | .ok creds =>
      announceDescribed runtime host options (some creds) (← describeRelease runtime host id options)

end OpenVibeHost.Announce
