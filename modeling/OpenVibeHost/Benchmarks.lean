import OpenVibeHost.Catalog
import OpenVibeHost.Sessions

/-! Benchmarks people run on their own servers (server/catalog/benchmarks.js): the
one-time links, reading what YABS posts, and storing a result. -/
namespace OpenVibeHost.Benchmarks

open Catalog (ApiError Fault Floats Row)

def linkTtlMs : Int := 24 * 3600000
def linksPerDay : Nat := 10

def bad (message : String) : Fault := .api ⟨400, "host.benchmark.invalid", message⟩

/-! ### YABS's JSON -/

def numberIn (v : Option Json) (max : Rat) : Option Rat :=
  match v with
  | some (.num x) => if 0 ≤ x ∧ x ≤ max then some x else none
  | _ => none

def int (v : Option Json) (max : Rat) : Option Rat := (numberIn v max).map Catalog.nearest

def round (floats : Floats) (d : Nat) (v : Rat) : Rat :=
  floats.div (Catalog.nearest (floats.mul v (10 ^ d))) (10 ^ d)

/-- fio reports KB/s; pages show MB/s. -/
def mbps (floats : Floats) (v : Option Json) : Option Rat :=
  (numberIn v 1000000000).map fun n => round floats 1 (floats.div n 1000)

/-- `/^v\d{4}-\d{2}-\d{2}/`. -/
def isVersion (text : String) : Bool :=
  match text.toList with
  | 'v' :: a :: b :: c :: d :: '-' :: e :: f :: '-' :: g :: h :: _ => [a, b, c, d, e, f, g, h].all Char.isDigit
  | _ => false

/-- `/^\d+[km]$/`. -/
def isBlockSize (text : String) : Bool :=
  match text.toList.reverse with
  | unit :: digits => (unit = 'k' ∨ unit = 'm') ∧ digits ≠ [] ∧ digits.all Char.isDigit
  | [] => false

/-- `/^https:\/\/browser\.geekbench\.com\/v\d+\/cpu\/\d+$/`. -/
def isGeekbenchUrl (text : String) : Bool :=
  match (text.toList).splitOn '/' with
  | [scheme, [], host, version, cpu, number] =>
    scheme = "https:".toList ∧ host = "browser.geekbench.com".toList ∧ cpu = "cpu".toList ∧
      version.head? = some 'v' ∧ version.tail ≠ [] ∧ version.tail.all Char.isDigit ∧
      number ≠ [] ∧ number.all Char.isDigit
  | _ => false

/-- `String(value || '')` of a block size: an array of one text is that text. -/
def blockSize : Option Json → String
  | some (.str text) => text
  | some (.arr [.str text]) => text
  | _ => ""

def isObject : Json → Bool
  | .obj _ | .arr _ => true
  | _ => false

/-- `body[key] && typeof body[key] === 'object' ? body[key] : {}`. -/
def part (body : Json) (key : String) : Json :=
  match body.field key with
  | some value => if isObject value then value else .obj []
  | none => .obj []

def items (body : Json) (key : String) (max : Nat) : List Json :=
  match body.field key with
  | some (.arr values) => (values.take max).filter isObject
  | _ => []

structure Fio where
  bs : String
  readMbps : Option Rat
  writeMbps : Option Rat
  totalMbps : Option Rat
  readIops : Option Rat
  writeIops : Option Rat
  totalIops : Option Rat

structure Iperf where
  mode : Option String
  provider : Option String
  location : Option String
  send : Option String
  recv : Option String
  latency : Option String

def readFio (floats : Floats) (f : Json) : Fio :=
  { bs := blockSize (f.field "bs")
    readMbps := mbps floats (f.field "speed_r")
    writeMbps := mbps floats (f.field "speed_w")
    totalMbps := mbps floats (f.field "speed_rw")
    readIops := int (f.field "iops_r") 1000000000
    writeIops := int (f.field "iops_w") 1000000000
    totalIops := int (f.field "iops_rw") 1000000000 }

def readIperf (x : Json) : Iperf :=
  { mode := Catalog.text (x.field "mode") 10
    provider := Catalog.text (x.field "provider") 60
    location := Catalog.text (x.field "loc") 60
    send := Catalog.text (x.field "send") 30
    recv := Catalog.text (x.field "recv") 30
    latency := Catalog.text (x.field "latency") 30 }

/-- The version of a Geekbench entry that counts. -/
def geekbenchVersion (g : Json) : Option Rat :=
  if (int (g.field "single") 10000000).isSome || (int (g.field "multi") 100000000).isSome then
    int (g.field "version") 99
  else none

/-- The newest Geekbench; of equal ones the first. -/
def newestGeekbench (entries : List Json) : Option Json :=
  entries.foldl (fun best g =>
    match geekbenchVersion g with
    | none => best
    | some _ =>
      match best with
      | none => some g
      | some b =>
        if (Json.number (b.field "version")).getD 0 < (Json.number (g.field "version")).getD 0 then some g
        else best) none

/-- What a stored result holds of YABS's JSON. -/
structure Yabs where
  toolVersion : String
  cpuModel : Option String
  cpuCores : Option Rat
  cpuFreq : Option String
  aes : Option Bool
  virt : Option String
  arch : Option String
  distro : Option String
  ramMb : Option Rat
  swapMb : Option Rat
  diskGb : Option Rat
  city : Option String
  region : Option String
  country : Option String
  network : Option String
  gbVersion : Option Rat
  gbSingle : Option Rat
  gbMulti : Option Rat
  gbUrl : Option String
  disk4kIops : Option Rat
  disk4kMbps : Option Rat
  disk1mMbps : Option Rat
  fio : List Fio
  iperf : List Iperf
  elapsedS : Option Rat

def parseYabs (floats : Floats) (body : Json) : Except Fault Yabs := do
  match body with
  | .obj _ => pure ()
  | _ => throw (bad "This is not a YABS result.")
  let some version := Catalog.text (body.field "version") 40
    | throw (bad "This is not a YABS result (no YABS version).")
  if ¬ isVersion version then throw (bad "This is not a YABS result (no YABS version).")
  let cpu := part body "cpu"
  let os := part body "os"
  let mem := part body "mem"
  let ip := part body "ip_info"
  let fio := ((items body "fio" 8).filter fun f => isBlockSize (blockSize (f.field "bs"))).map (readFio floats)
  let iperf := ((items body "iperf" 24).map readIperf).filter fun x => x.provider.isSome || x.location.isSome
  let entries := match body.field "geekbench" with
    | some (.arr values) => values.filter isObject
    | _ => []
  let gb := newestGeekbench entries
  if fio.isEmpty && iperf.isEmpty && gb.isNone then
    throw (bad "The result has no disk, network or Geekbench test in it.")
  let at' (bs : String) : Option Fio := fio.find? (·.bs = bs)
  let kib (key : String) : Option Rat := numberIn (mem.field key) 10000000000000
  let gbUrl := gb.bind fun g => match g.field "url" with
    | some (.str raw) =>
      let url := String.ofList (Json.trimChars raw.toList)
      if isGeekbenchUrl url then some url else none
    | _ => none
  let network := Catalog.text (ip.field "org") 120
  return {
    toolVersion := version
    cpuModel := Catalog.text (cpu.field "model") 200
    cpuCores := int (cpu.field "cores") 4096
    cpuFreq := Catalog.text (cpu.field "freq") 40
    aes := match cpu.field "aes" with
      | some (.bool value) => some value
      | _ => none
    virt := Catalog.text (os.field "vm") 40
    arch := Catalog.text (os.field "arch") 20
    distro := Catalog.text (os.field "distro") 100
    ramMb := (kib "ram").map fun v => round floats 0 (floats.div v 1024)
    swapMb := (kib "swap").map fun v => round floats 0 (floats.div v 1024)
    diskGb := (kib "disk").map fun v => round floats 1 (floats.div v 1048576)
    city := Catalog.text (ip.field "city") 80
    region := Catalog.text (ip.field "region") 80
    country := Catalog.text (ip.field "country") 80
    network := if network.isSome then network else Catalog.text (ip.field "isp") 120
    gbVersion := gb.bind fun g => int (g.field "version") 99
    gbSingle := gb.bind fun g => int (g.field "single") 10000000
    gbMulti := gb.bind fun g => int (g.field "multi") 100000000
    gbUrl
    disk4kIops := ( at' "4k").bind (·.totalIops)
    disk4kMbps := ( at' "4k").bind (·.totalMbps)
    disk1mMbps := ( at' "1m").bind (·.totalMbps)
    fio
    iperf
    elapsedS := match body.field "runtime" with
      | some runtime => int (runtime.field "elapsed") (86400 * 7)
      | none => none }

/-! ### Tables -/

structure Link where
  tokenHash : String
  person : String
  providerId : Option String
  providerName : String
  planId : Option String
  note : Option String
  createdAt : Int
  expiresAt : Int
  usedAt : Option Int
  deriving DecidableEq

/-- A stored result. -/
structure Benchmark where
  id : String
  providerId : Option String
  providerName : String
  planId : Option String
  note : Option String
  submittedBy : String
  yabs : Yabs
  status : String
  createdAt : Int
  updatedAt : Int

structure Tables where
  providers : List Row
  plans : List Row
  links : List Link
  benchmarks : List Benchmark

namespace Tables

def link (tables : Tables) (hash : String) : Option Link :=
  tables.links.find? (·.tokenHash = hash)

/-- `UPDATE catalog_bench_links SET used_at = ? WHERE token_hash = ?`. -/
def spend (tables : Tables) (hash : String) (now : Int) : Tables :=
  { tables with links := tables.links.map fun link =>
      if link.tokenHash = hash then { link with usedAt := some now } else link }

/-- `INSERT INTO catalog_benchmarks`: its id is the primary key. -/
def insertBenchmark (row : Benchmark) (tables : Tables) : Except Fault Tables :=
  if tables.benchmarks.any (·.id = row.id) then .error (.database "catalog_benchmarks_pkey")
  else .ok { tables with benchmarks := tables.benchmarks ++ [row] }

/-- `INSERT INTO catalog_bench_links`: the hash of its token is the primary key. -/
def insertLink (row : Link) (tables : Tables) : Except Fault Tables :=
  if tables.links.any (·.tokenHash = row.tokenHash) then .error (.database "catalog_bench_links_pkey")
  else .ok { tables with links := tables.links ++ [row] }

end Tables

/-- A client of these tables; it locks a link by the hash of its token. -/
abbrev Client := Session Tables String Fault

/-! ### Links -/

/-- What a person asks a link for. -/
structure LinkInput where
  planId : Option String
  provider : Option String
  providerName : Option Json
  note : Option Json

/-- Now, and the token that `crypto.randomBytes` gave. -/
structure Moment where
  now : Int
  token : String

/-- The provider (its id and name) and the plan that a link is asked for. -/
def asked (input : LinkInput) : Client (Option (String × String) × Option String) :=
  match input.planId, input.provider with
  | some id, _ => do
    let found ← Session.select fun tables : Tables =>
      (tables.plans.find? fun p => p.id = id ∧ p.text "status" = some "active").bind fun p =>
        tables.providers.find? fun v =>
          some v.id = p.text "provider_id" ∧ v.text "status" = some "active"
    match found with
    | some v => pure (some (v.id, (v.text "name").getD ""), some id)
    | none => Session.fail (Catalog.invalid "That plan is not in the catalog")
  | none, some slug => do
    let found ← Session.select fun tables : Tables =>
      tables.providers.find? fun v => v.text "slug" = some slug ∧ v.text "status" = some "active"
    match found with
    | some v => pure (some (v.id, (v.text "name").getD ""), none)
    | none => Session.fail (Catalog.invalid "That provider is not in the catalog")
  | none, none => pure (none, none)

/-- `createLink`; `sha` is the hash a token is kept under. -/
def createLink (sha : String → String) (baseUrl : String) (person : String) (input : LinkInput)
    (moment : Moment) : Client String := do
  let now := moment.now
  if person = "" then
    Session.fail (.api ⟨401, "host.benchmark.sign_in", "Sign in to submit a benchmark"⟩)
  else
    let recent ← Session.select fun tables : Tables =>
      tables.links.countP fun link => link.person = person ∧ link.createdAt > now - 86400000
    if linksPerDay ≤ recent then
      Session.fail (.api ⟨429, "host.benchmark.too_many", s!"At most {linksPerDay} benchmark links a day"⟩)
    else
      let (provider, plan) ← asked input
      let name := match provider with
        | some (_, name) => some name
        | none => Catalog.text input.providerName 80
      match name with
      | none => Session.fail (Catalog.invalid "Name the provider you are testing")
      | some name =>
        Session.execute none (Tables.insertLink {
          tokenHash := sha moment.token, person, providerId := provider.map (·.1), providerName := name
          planId := plan, note := Catalog.text input.note 200
          createdAt := now, expiresAt := now + linkTtlMs, usedAt := none })
        pure s!"{baseUrl}/api/v1/catalog/benchmarks/yabs/{moment.token}"

/-- `usable`: a link YABS can still post to, or the reason it cannot. -/
def usable (link : Option Link) (now : Int) : Except Fault Link :=
  match link with
  | none => .error (.api ⟨404, "host.benchmark.link_unknown", "This benchmark link is not known"⟩)
  | some link =>
    if link.usedAt.isSome then
      .error (.api ⟨410, "host.benchmark.link_used", "This link was already used: ask for a new one at openvibe.host/catalog/benchmarks/new"⟩)
    else if link.expiresAt ≤ now then
      .error (.api ⟨410, "host.benchmark.link_expired", "This link has expired: ask for a new one at openvibe.host/catalog/benchmarks/new"⟩)
    else .ok link

/-- `tokenOk`: `/^[A-Za-z0-9_-]{32}$/`. -/
def tokenOk (token : String) : Bool :=
  token.toList.length = 32 ∧ token.toList.all fun c => c.isAlphanum || c = '_' || c = '-'

/-- `checkLink`: before a posted body is read. -/
def checkLink (sha : String → String) (token : String) (now : Int) : Client Unit := do
  if ¬ tokenOk token then
    let _ ← Session.ofExcept (usable none now)
  let link ← Session.select fun tables : Tables => tables.link (sha token)
  let _ ← Session.ofExcept (usable link now)

/-- What YABS posts to a link, when, and the id its result would have. -/
structure Posted where
  body : Json
  now : Int
  id : String

def resultOf (link : Link) (yabs : Yabs) (posted : Posted) : Benchmark :=
  { id := posted.id, providerId := link.providerId, providerName := link.providerName
    planId := link.planId, note := link.note, submittedBy := link.person, yabs
    status := "active", createdAt := posted.now, updatedAt := posted.now }

/-- The transaction of `submit`. -/
def store (hash : String) (yabs : Yabs) (posted : Posted) : Client String := do
  let found ← Session.selectForUpdate hash fun tables : Tables => tables.link hash
  let link ← Session.ofExcept (usable found posted.now)
  Session.execute (some link.tokenHash) fun tables => .ok (tables.spend link.tokenHash posted.now)
  Session.execute none (Tables.insertBenchmark (resultOf link yabs posted))
  pure posted.id

/-- `submit`: the link is spent and the result stored, or nothing happens. -/
def submit (floats : Floats) (sha : String → String) (token : String) (posted : Posted) :
    Client String :=
  if ¬ tokenOk token then
    Session.fail (.api ⟨404, "host.benchmark.link_unknown", "This benchmark link is not known"⟩)
  else
    match parseYabs floats posted.body with
    | .error fault => Session.fail fault
    | .ok yabs => store (sha token) yabs posted

end OpenVibeHost.Benchmarks
