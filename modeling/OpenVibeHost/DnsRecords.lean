import OpenVibeHost.Announcements

/-! `ovhost dns`, lib/dns.js: the DNS records of a zone, through Cloudflare's API. Errors carry their message; the exit
code beside it is left out. -/
namespace OpenVibeHost.Dns
open Effects Program Operator

def api : String := "https://api.cloudflare.com/client/v4"

def types : List String := ["A", "AAAA", "CNAME", "TXT", "MX", "CAA"]

def proxyable : List String := ["A", "AAAA", "CNAME"]

/-- What is used of the runtime. -/
structure Runtime where
  toLowerCase : String → String
  toUpperCase : String → String
  encodeURIComponent : String → String
  /-- `localeCompare`, as an order. -/
  sorted : String → String → Ordering

structure Host where
  /-- `inv.dns.dnsOnly`. -/
  dnsOnly : List String := []

/-! ### The token -/

structure Options where
  tokenFile : Option String := none
  /-- `$CLOUDFLARE_API_TOKEN_FILE`, `$HOME` and `$CLOUDFLARE_API_TOKEN`. -/
  fileVariable : Option String := none
  home : Option String := none
  tokenVariable : Option String := none
  apply : Bool := false

def trim (text : String) : String := String.ofList (Json.trimChars text.toList)

def candidates (options : Options) : List String :=
  [Announce.given options.tokenFile, Announce.given options.fileVariable,
    (Announce.given options.home).map fun home => pathJoin home ".config/cloudflare-token"].reduceOption

/-- The token in what was read; a file that cannot be read has none. -/
def tokenOf (read : Except String (Option String)) : String :=
  match read with
  | .ok text => trim (text.getD "")
  | .error _ => ""

/-- The first file that has a token; a file that was asked for must have one. -/
def tokenIn (options : Options) : List String → Command String
  | [] =>
    match Announce.given options.tokenVariable with
    | some token => return trim token
    | none =>
      throw ("no Cloudflare token: pass --token-file, or run this from the operator's workstation " ++
        "(~/.config/cloudflare-token); the host holds none")
  | file :: rest => do
    let text := tokenOf (← readFile file)
    if text ≠ "" then return text
    else if options.tokenFile = some file then throw ("--token-file " ++ file ++ " is not readable")
    else tokenIn options rest

def loadToken (options : Options) : Command String := tokenIn options (candidates options)

/-! ### Cloudflare's API -/

def apiRequest (token method route : String) (body : Option Json) : Request where
  url := api ++ route
  method
  headers := [("Authorization", "Bearer " ++ token), ("Accept", "application/json")] ++
    (if body.isSome then [("Content-Type", "application/json")] else [])
  body := body.map Json.stringify
  timeoutMs := 15000

/-- What an answer says, where it says that the request succeeded. -/
def resultIn (r : HttpAnswer) : Option (Option Json) := do
  let json ← Json.parse r.body
  if (json.field "success").any (Json.same (.bool true)) then some (json.field "result") else none

/-- A value in a text. -/
def textOf (v : Option Json) : String := (v.map Json.shown).getD "undefined"

/-- Why a request was refused. -/
def refusal (r : HttpAnswer) : String :=
  match (Json.parse r.body).bind (Json.field "errors") with
  | some (.arr (first :: rest)) =>
    "; ".intercalate ((first :: rest).map fun e => textOf (e.field "code") ++ ": " ++ textOf (e.field "message"))
  | _ =>
    if r.status ≠ 0 then "HTTP " ++ toString r.status
    else if r.error = "" then "no answer"
    else r.error

/-- The part of a route before its query. -/
def path (route : String) : String := String.ofList (route.toList.takeWhile (· ≠ '?'))

def cf (token method route : String) (body : Option Json := none) : Command (Option Json) := do
  let r ← request (apiRequest token method route body)
  match resultIn r with
  | some result => return result
  | none => throw ("Cloudflare refused " ++ method ++ " " ++ path route ++ ": " ++ refusal r)

/-- A property of a value, which cannot be null or undefined. -/
def property (v : Option Json) (name : String) : Command (Option Json) :=
  match v with
  | none => throw ("Cannot read properties of undefined (reading '" ++ name ++ "')")
  | some .null => throw ("Cannot read properties of null (reading '" ++ name ++ "')")
  | some v => return v.field name

/-- `value[0]`. -/
def firstOf (v : Json) : Option Json :=
  match v with
  | .arr items => items.head?
  | other => other.field "0"

/-! ### Zones -/

def dotted (labels : List (List Char)) : String := String.ofList (['.'].intercalate labels)

/-- The labels of a name, without the one for any name. -/
def labelsOf (name : String) : List (List Char) :=
  (if beginsWith name "*." then name.toList.drop 2 else name.toList).splitOn '.'

def zoneRoute (runtime : Runtime) (labels : List (List Char)) : String :=
  "/zones?name=" ++ runtime.encodeURIComponent (dotted labels) ++ "&per_page=5"

/-- The zone of the longest suffix that is one; the last label alone is not asked for. -/
def zoneAmong (runtime : Runtime) (token name : String) : List (List Char) → Command Json
  | label :: next :: rest => do
    match ← cf token "GET" (zoneRoute runtime (label :: next :: rest)) with
    | some (.arr (zone :: _)) => return zone
    | _ => zoneAmong runtime token name (next :: rest)
  | _ => throw ("no zone for " ++ name ++ " is visible to this token")

def zoneFor (runtime : Runtime) (token name : String) : Command Json :=
  zoneAmong runtime token name (labelsOf name)

/-! ### Records -/

/-- A record as it is reported. -/
structure Shown where
  name : Option Json
  type : Option Json
  content : Option Json
  proxied : Bool
  ttl : Option Json

/-- `show`. -/
def shown (r : Option Json) : Command Shown := do
  let name ← property r "name"
  let field := fun key => r.bind (Json.field key)
  return { name, type := field "type", content := field "content", proxied := (field "proxied").any Json.truthy
           ttl := field "ttl" }

/-- The record that is wanted; a `ttl` that is no number is none. -/
structure Wanted where
  name : String
  type : String
  content : String
  proxied : Option Bool
  ttl : Option Rat

def isLabelChar (c : Char) : Bool := ('a' ≤ c && c ≤ 'z') || c.isDigit || c = '_'

/-- A label of a name: no hyphen first, and no hyphen or underscore last but in a label of one character. -/
def isLabel (label : List Char) : Bool :=
  match label with
  | [] => false
  | first :: rest =>
    isLabelChar first && label.length ≤ 63 && rest.all (fun c => isLabelChar c || c = '-') &&
      rest.getLast?.all fun last => isLabelChar last && last ≠ '_'

/-- `NAME_RE`. -/
def isName (name : String) : Bool :=
  let labels := labelsOf name
  (name.length ≤ 253 && 2 ≤ labels.length && labels.dropLast.all isLabel) &&
    labels.getLast?.any fun last => last.all (fun c => 'a' ≤ c && c ≤ 'z') && 2 ≤ last.length && last.length ≤ 63

/-- `/(^|\.)_/`: a name with a label that starts with an underscore. -/
def isServiceName (name : String) : Bool := (name.toList.splitOn '.').any fun label => label.head? = some '_'

def isTtl (ttl : Rat) : Bool := ttl.den = 1 && (ttl = 1 || (60 ≤ ttl && ttl ≤ 86400))

/-- What is wrong with a record that is wanted. -/
def checkRecord (runtime : Runtime) (host : Host) (r : Wanted) : Option String :=
  if ¬ isName (runtime.toLowerCase r.name) then some ("not a DNS name: " ++ r.name)
  else if r.type ∉ types then some ("type is one of " ++ ", ".intercalate types)
  else if r.content = "" then some "content is required"
  else if r.type ∈ proxyable ∧ r.proxied = none then
    some (r.type ++ " records need --proxied or --dns-only (Cloudflare layout: web traffic proxied; RTMP, TURN, JSMPEG and " ++
      "the CNAME target DNS-only)")
  else if r.type ∉ proxyable ∧ r.proxied = some true then some (r.type ++ " records cannot be proxied")
  else if r.proxied = some true ∧ runtime.toLowerCase r.name ∈ host.dnsOnly.map runtime.toLowerCase then
    some (r.name ++ " is DNS-only by the inventory (dns.dnsOnly): it carries non-HTTP traffic or is the CNAME target")
  else if r.proxied = some true ∧ isServiceName r.name then
    some (r.name ++ " is a service record (_dmarc, _domainkey…): never proxied")
  else if ¬ r.ttl.any isTtl then some "ttl is 1 (automatic) or 60–86400 seconds"
  else none

inductive Action where
  | unchanged
  | create
  | update
  | delete
  | absent
  deriving DecidableEq, Repr

structure Outcome where
  action : Action
  zone : Option Json
  before : Option Shown := none
  after : Option Shown := none
  dryRun : Bool := false

def recordsRoute (id : Option Json) : String := "/zones/" ++ textOf id ++ "/dns_records"

def findRoute (runtime : Runtime) (id : Option Json) (name type : String) : String :=
  recordsRoute id ++ "?type=" ++ type ++ "&name=" ++ runtime.encodeURIComponent name

def recordRoute (id record : Option Json) : String := recordsRoute id ++ "/" ++ textOf record

/-- The record as it is sent; a `ttl` that is no number does not get here. -/
def bodyOf (r : Wanted) : Json :=
  .obj ([("type", .str r.type), ("name", .str r.name), ("content", .str r.content), ("ttl", .num (r.ttl.getD 1))] ++
    if r.type ∈ proxyable then [("proxied", .bool (r.proxied.getD false))] else [])

/-- The record as it would be. -/
def wouldBe (r : Wanted) : Shown where
  name := some (.str r.name)
  type := some (.str r.type)
  content := some (.str r.content)
  proxied := r.type ∈ proxyable ∧ r.proxied = some true
  ttl := some (.num (r.ttl.getD 1))

/-- Whether a record is already as wanted; Cloudflare keeps 1 for the `ttl` of one that is proxied. -/
def same (r : Wanted) (cur : Json) : Bool :=
  let proxied := (cur.field "proxied").any Json.truthy
  (cur.field "content").any (Json.same (.str r.content)) &&
    (decide (r.type ∉ proxyable) || (proxied == r.proxied.getD false)) &&
    ((cur.field "ttl").any (Json.same (.num (r.ttl.getD 1))) ||
      (decide (r.type ∈ proxyable ∧ r.proxied = some true) && (cur.field "ttl").any (Json.same (.num 1))))

/-- What a record is to be. -/
structure Given where
  name : String
  type : String
  content : String
  proxied : Option Bool := none
  /-- A number, or none where it is no number. -/
  ttl : Option (Option Rat) := none

def wantedOf (runtime : Runtime) (rec : Given) : Wanted where
  name := runtime.toLowerCase rec.name
  type := runtime.toUpperCase rec.type
  content := rec.content
  proxied := rec.proxied
  ttl := rec.ttl.getD (some 1)

/-- The answer of several records under one name and type. -/
def several (count : Option Json) (type name more : String) : String :=
  textOf count ++ " " ++ type ++ " records named " ++ name ++ ": resolve them by hand" ++ more

/-- The record is made, or brought to what is wanted. -/
def settle (token : String) (options : Options) (want : Wanted) (id zoneName cur : Option Json) : Command Outcome :=
  do
  match cur with
  | some record =>
    let before ← shown (some record)
    if same want record then return { action := .unchanged, zone := zoneName, after := some before }
    else if ¬ options.apply then
      return { action := .update, dryRun := true, zone := zoneName, before := some before, after := some (wouldBe want) }
    else
      let done ← cf token "PUT" (recordRoute id (record.field "id")) (some (bodyOf want))
      return { action := .update, zone := zoneName, before := some before, after := some (← shown done) }
  | none =>
    if ¬ options.apply then
      return { action := .create, dryRun := true, zone := zoneName, after := some (wouldBe want) }
    else
      let done ← cf token "POST" (recordsRoute id) (some (bodyOf want))
      return { action := .create, zone := zoneName, after := some (← shown done) }

/-- What is found under a name and a type, in the zone of the name. -/
def find (runtime : Runtime) (token name type : String) : Command (Json × Option Json × Option Json) := do
  let zone ← zoneFor runtime token name
  let id ← property (some zone) "id"
  return (zone, id, ← cf token "GET" (findRoute runtime id name type))

/-- Exactly one record of this name and type, with this content and proxy mode. -/
def ensure (runtime : Runtime) (host : Host) (options : Options) (rec : Given) : Command Outcome := do
  let want := wantedOf runtime rec
  match checkRecord runtime host want with
  | some message => throw message
  | none =>
    let token ← loadToken options
    let (zone, id, existing) ← find runtime token want.name want.type
    let count ← property existing "length"
    if (Json.number count).any (1 < ·) then throw (several count want.type want.name " first")
    else
      let cur := (existing.bind firstOf).filter Json.truthy
      settle token options want id (zone.field "name") cur

def remove (runtime : Runtime) (options : Options) (name type : String) : Command Outcome := do
  let n := runtime.toLowerCase name
  let t := runtime.toUpperCase type
  if ¬ isName n then throw ("not a DNS name: " ++ name)
  else if t ∉ types then throw ("type is one of " ++ ", ".intercalate types)
  else
    let token ← loadToken options
    let (zone, id, existing) ← find runtime token n t
    let count ← property existing "length"
    if ¬ count.any Json.truthy then return { action := .absent, zone := zone.field "name" }
    else if (Json.number count).any (1 < ·) then throw (several count t n "")
    else
      let first := existing.bind firstOf
      if ¬ options.apply then
        return { action := .delete, dryRun := true, zone := zone.field "name", before := some (← shown first) }
      else
        let _ ← cf token "DELETE" (recordRoute id (← property first "id"))
        return { action := .delete, zone := zone.field "name", before := some (← shown first) }

/-! ### All records of a zone -/

def pageRoute (id : Option Json) (page : Nat) : String := recordsRoute id ++ "?per_page=100&page=" ++ toString page

/-- The records of an answer. -/
def shownAll : List Json → Command (List Shown)
  | [] => return []
  | row :: rest => return (← shown (some row)) :: (← shownAll rest)

/-- The pages from `page` on, at most `left` of them. -/
def pages (token : String) (id : Option Json) (page : Nat) : Nat → Command (List Shown)
  | 0 => return []
  | left + 1 => do
    match ← cf token "GET" (pageRoute id page) with
    | some (.arr rows) =>
      let here ← shownAll rows
      if rows.length < 100 then return here else return here ++ (← pages token id (page + 1) left)
    | some .null => throw "Cannot read properties of null (reading 'map')"
    | none => throw "Cannot read properties of undefined (reading 'map')"
    | some _ => throw "rows.map is not a function"

def before (runtime : Runtime) (a b : Shown) : Bool :=
  ((runtime.sorted (textOf a.name) (textOf b.name)).then (runtime.sorted (textOf a.type) (textOf b.type))).isLE

/-- `ovhost dns list`. -/
def list (runtime : Runtime) (options : Options) (zoneName : String) : Command (Option Json × List Shown) := do
  let token ← loadToken options
  let zone ← zoneFor runtime token zoneName
  let id ← property (some zone) "id"
  let out ← pages token id 1 20
  return (zone.field "name", out.mergeSort (before runtime))

end OpenVibeHost.Dns
