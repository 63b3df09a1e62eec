import OpenVibeHost.Catalog

/-! Reading a plan out of a Sources item (server/catalog/mapping.js): for each source
key a mapper, which holds an item back, refuses it, or gives the plan. -/
namespace OpenVibeHost.Catalog

/-- What the server runs on: the arithmetic and number texts of doubles, `Date.parse`, the
URL parser's verdict, the currencies it knows, and `url.domainToASCII`. -/
structure Runtime where
  floats : Floats
  numberText : Rat → String
  /-- Milliseconds; none for a text that is no date. -/
  parseDate : Json → Option Int
  /-- An http or https URL without credentials. -/
  httpUrl : String → Bool
  currency : String → Bool
  domainToASCII : String → String

namespace Mapping

/-- `TypeError`. -/
def typeError (message : String) : Fault := .thrown message

structure Source where
  slug : String
  name : String
  homepageUrl : String
  sourceUrl : String

/-- `SOURCES`: only these keys may create a provider. -/
def sources : List (String × Source) :=
  [("vultr-plans", ⟨"vultr", "Vultr", "https://www.vultr.com/", "https://www.vultr.com/pricing/"⟩),
   ("linode-types", ⟨"linode", "Linode", "https://www.linode.com/", "https://www.linode.com/pricing/"⟩),
   ("aws-lightsail-bundles", ⟨"aws-lightsail", "Amazon Lightsail", "https://aws.amazon.com/lightsail/",
      "https://aws.amazon.com/lightsail/pricing/"⟩),
   ("ovhcloud-vps", ⟨"ovhcloud", "OVHcloud", "https://us.ovhcloud.com/", "https://us.ovhcloud.com/vps/"⟩),
   ("ovhcloud-baremetal", ⟨"ovhcloud", "OVHcloud", "https://us.ovhcloud.com/",
      "https://us.ovhcloud.com/bare-metal/prices/"⟩),
   ("azure-retail-prices", ⟨"azure", "Microsoft Azure", "https://azure.microsoft.com/",
      "https://azure.microsoft.com/en-us/pricing/"⟩),
   ("digitalocean-sizes", ⟨"digitalocean", "DigitalOcean", "https://www.digitalocean.com/",
      "https://www.digitalocean.com/pricing/droplets"⟩),
   ("hetzner-server-types", ⟨"hetzner", "Hetzner", "https://www.hetzner.com/",
      "https://www.hetzner.com/cloud/"⟩)]

/-! ### Reading fields -/

/-- `x[key]`; a field that is missing reads as null. -/
def get (x : Json) (key : String) : Json := (x.field key).getD .null

/-- `x && typeof x === 'object'`. -/
def isObject : Json → Bool
  | .obj _ | .arr _ => true
  | _ => false

/-- `number(v, field)`. -/
def number (v : Json) (field : String) : Except Fault (Option Rat) :=
  match v with
  | .null => .ok none
  | .num x => if x < 0 then .error (typeError s!"{field} must be a non-negative number") else .ok (some x)
  | _ => .error (typeError s!"{field} must be a non-negative number")

/-- `/^\d+(\.\d+)?$/`. -/
def isDecimal (text : List Char) : Bool :=
  match text.span Char.isDigit with
  | ([], _) => false
  | (_, []) => true
  | (_, '.' :: places) => places ≠ [] ∧ places.all Char.isDigit
  | _ => false

/-- `decimal(v, field)`: AWS's price list gives every number as text. -/
def decimal (v : Json) (field : String) : Except Fault (Option Rat) :=
  match v with
  | .null => .ok none
  | .str raw =>
    let text := Json.trimChars raw.toList
    if isDecimal text then .ok (Json.numberOfText (String.ofList text))
    else .error (typeError s!"{field} must be a decimal")
  | _ => .error (typeError s!"{field} must be a decimal")

/-- `sizeGb(v, field)`: `/^(\d+(?:\.\d+)?)\s*(GB|TB)$/i`. -/
def sizeGb (floats : Floats) (v : Json) (field : String) : Except Fault (Option Rat) :=
  let wrong := Except.error (typeError s!"{field} must be a size in GB or TB")
  match v with
  | .null => .ok none
  | .str raw =>
    match (Json.trimChars raw.toList).reverse with
    | b :: unit :: rest =>
      let amount := (rest.dropWhile Json.blank).reverse
      if b.toUpper = 'B' ∧ (unit.toUpper = 'G' ∨ unit.toUpper = 'T') ∧ isDecimal amount then
        .ok ((Json.numberOfText (String.ofList amount)).map fun n =>
          if unit.toUpper = 'T' then floats.mul n 1000 else n)
      else wrong
    | _ => wrong
  | _ => wrong

/-- `typeof title === 'string' && title.trim()`, with `id` for none. -/
def titleOr (title : Json) (id : String) : String :=
  match title with
  | .str raw =>
    let text := String.ofList (Json.trimChars raw.toList)
    if text = "" then id else text
  | _ => id

def texts (v : Json) : Value :=
  match v with
  | .arr items =>
    match items.mapM fun item => match item with
      | .str s => some s
      | _ => none with
    | some [] => .null
    | some all => .texts all
    | none => .object
  | _ => .null

def oneText (v : Json) : Value :=
  match v with
  | .str s => if s = "" then .null else .texts [s]
  | _ => .null

/-- `/needle/i.test(text)`, for a needle in lower case. -/
def mentions (needle : String) (text : String) : Bool :=
  (text.toList.map Char.toLower).tails.any fun tail => needle.toList.isPrefixOf tail

/-- `String(v || '')` of a text. -/
def textOr (v : Json) : String :=
  match v with
  | .str s => s
  | _ => ""

def endsWith (text suffix : String) : Bool := suffix.toList.isSuffixOf text.toList

/-- `Math.round(x * 100) / 100`. -/
def cents (floats : Floats) (x : Rat) : Rat := floats.div (nearest (floats.mul x 100)) 100

/-- Hundred-millionths of a dollar, rounded to cents: `Math.round(units / 1e6) / 100`. -/
def fromUnits (floats : Floats) (units : Rat) : Rat :=
  floats.div (nearest (floats.div units 1000000)) 100

/-! ### Plans -/

/-- What a mapper says of a plan, beside what every item says. -/
structure Plan where
  name : String
  kind : String
  vcpu : Option Rat := none
  ramMb : Option Rat := none
  diskGb : Option Rat := none
  diskType : Option String := none
  bandwidthGb : Option Rat := none
  unmetered : Option Bool := none
  portMbps : Option Rat := none
  ipv4 : Option Rat := none
  locations : Value := .null
  currency : String := "USD"
  priceMonthly : Rat
  priceHourly : Option Rat := none
  setupFee : Option Rat := none

/-- What `mapItem` gives. -/
structure Mapped extends Plan where
  provider : Source
  externalId : String
  sourceKey : String
  sourceItemId : Value
  sourceUrl : String
  checkedAt : Int
  firstSeenAt : Int
  priceTerm : String
  renewalPrice : Option Rat

variable (rt : Runtime)

def lightsailFamily (family : String) : String :=
  if family = "BundleUsage" then "General purpose"
  else if family = "ComputeOptimizedBundleUsage" then "Compute-optimized"
  else if family = "MemoryOptimizedBundleUsage" then "Memory-optimized"
  else family

/-- `lightsailName`: `/^[A-Z0-9]+-([A-Za-z]+):([0-9.]+GB)(_IPv6)?$/`. -/
def lightsailName (usagetype : Json) (memoryGb : Option Rat) : Option String :=
  match usagetype with
  | .str raw =>
    let (head, more) := raw.toList.span fun c => c.isUpper || c.isDigit
    match head, more with
    | _ :: _, '-' :: more =>
      let (family, more) := more.span Char.isAlpha
      match family, more with
      | _ :: _, ':' :: size =>
        let ipv6 := "_IPv6".toList.isSuffixOf size
        let size := if ipv6 then size.take (size.length - 5) else size
        let amount := size.take (size.length - 2)
        if "GB".toList.isSuffixOf size ∧ amount ≠ [] ∧ amount.all (fun c => c.isDigit || c = '.') then
          let memory := match memoryGb with
            | some gb => s!"{rt.numberText gb} GB"
            | none => String.ofList size
          some (s!"{lightsailFamily (String.ofList family)} {memory}" ++ if ipv6 then " (IPv6 only)" else "")
        else none
      | _, _ => none
    | _, _ => none
  | _ => none

def lightsail (x : Json) (id : String) : Except Fault Plan := do
  if (get x "price_unit").same (.str "Hrs") = false then throw (typeError "Lightsail price is not hourly")
  let some hourly ← decimal (get x "price_hourly") "hourly price" | throw (typeError "missing hourly price")
  let memoryGb ← sizeGb rt.floats (get x "memory") "memory"
  return {
    name := (lightsailName rt (get x "usagetype") memoryGb).getD id, kind := "vps"
    vcpu := ← decimal (get x "vcpu") "vcpu"
    ramMb := memoryGb.map fun gb => nearest (rt.floats.mul gb 1024)
    diskGb := ← sizeGb rt.floats (get x "storage") "storage", diskType := some "ssd"
    bandwidthGb := ← sizeGb rt.floats (get x "transfer") "transfer"
    priceMonthly := cents rt.floats (rt.floats.mul hourly 744), priceHourly := some hourly
    ipv4 := some (if endsWith (textOr (get x "usagetype")) "_IPv6" then 0 else 1)
    locations := oneText (get x "location") }

/-- `number(x.price_monthly, …)` of OVHcloud, in dollars; none where it is not above zero. -/
def ovhMonthly (x : Json) : Except Fault (Option Rat) := do
  if (get x "currency").same (.str "USD") = false then throw (typeError "OVHcloud price is not in USD")
  let some units ← number (get x "price_monthly") "monthly price" | throw (typeError "missing monthly price")
  let monthly := fromUnits rt.floats units
  return if monthly ≤ 0 then none else some monthly

def ovhcloud (x : Json) (id : String) (title : Json) : Except Fault (Option Plan) := do
  let some monthly ← ovhMonthly rt x | return none
  let memoryGb ← number (get x "memory_gb") "memory"
  return some {
    name := titleOr title id, kind := "vps", vcpu := ← number (get x "vcpu") "vcpu"
    ramMb := memoryGb.map fun gb => nearest (rt.floats.mul gb 1024)
    diskGb := ← number (get x "disk_gb") "disk"
    diskType := if mentions "nvme" (textOr (get x "disk_interface")) then some "nvme"
      else if mentions "ssd" (textOr (get x "disk_technology")) then some "ssd" else none
    unmetered := if (get x "bandwidth_unlimited").same (.bool true) then some true else none
    portMbps := ← number (get x "bandwidth_mbps") "bandwidth", priceMonthly := monthly }

def ovhBaremetal (x : Json) (id : String) (title : Json) : Except Fault (Option Plan) := do
  let some monthly ← ovhMonthly rt x | return none
  let setupUnits ← number (get x "setup_fee") "setup fee"
  let cores ← number (get x "cpu_cores") "cpu cores"
  let sockets ← number (get x "cpu_sockets") "cpu sockets"
  let memoryGb ← number (get x "memory_gb") "memory"
  let perDisk ← number (get x "disk_capacity_gb") "disk capacity"
  let diskCount ← number (get x "disk_count") "disk count"
  let diskGb := perDisk.bind fun each => diskCount.map fun count => rt.floats.mul each count
  let iface := textOr (get x "disk_interface")
  let technology := textOr (get x "disk_technology")
  let spinning (text : String) := mentions "hdd" text || mentions "sas" text || mentions "sata" text
  let limit ← number (get x "bandwidth_limit") "bandwidth limit"
  return some {
    name := titleOr title id, kind := "dedicated"
    vcpu := cores.map fun n => rt.floats.mul n (sockets.getD 1)
    ramMb := memoryGb.map fun gb => nearest (rt.floats.mul gb 1024)
    diskGb
    diskType := if diskGb.getD 0 > 0 then
        if mentions "nvme" iface then some "nvme"
        else if mentions "ssd" iface || mentions "ssd" technology then some "ssd"
        else if spinning iface || spinning technology then some "hdd" else none
      else none
    unmetered := limit.map fun n => n = 0
    portMbps := ← number (get x "bandwidth_mbps") "bandwidth", priceMonthly := monthly
    locations := texts (get x "locations"), setupFee := setupUnits.map (fromUnits rt.floats) }

def vultrType (type : String) : Option String :=
  [("vc2", "Cloud Compute"), ("vhf", "High Frequency"), ("vhp", "High Performance"),
   ("voc", "Optimized Cloud"), ("vcg", "Cloud GPU"), ("vbm", "Bare Metal"), ("vdc", "Dedicated Cloud")].lookup type

/-- Memory as a plan's name gives it. -/
def memoryText (ram : Rat) : String :=
  if 1024 ≤ ram then
    s!"{rt.numberText (rt.floats.div (nearest (rt.floats.mul (rt.floats.div ram 1024) 10)) 10)} GB"
  else s!"{rt.numberText ram} MB"

def vultrName (x : Json) (id : String) : String :=
  match vultrType (textOr (get x "type")), Json.number (x.field "vcpu_count"), Json.number (x.field "ram") with
  | some type, some vcpu, some ram =>
    if ram ≤ 0 then id
    else
      let vendor := if endsWith id "-amd" then " AMD" else if endsWith id "-intel" then " Intel" else ""
      s!"{type}{vendor} · {rt.numberText vcpu} vCPU, {memoryText rt ram}"
  | _, _, _ => id

def azure (x : Json) (id : String) (title : Json) : Except Fault (Option Plan) := do
  match get x "currency" with
  | .null => pure ()
  | currency => if currency.same (.str "USD") = false then throw (typeError "Azure price is not in USD")
  let some price ← number (get x "price") "price" | throw (typeError "missing price")
  let unit := textOr (get x "unit")
  let meter := textOr (get x "meter_name")
  if mentions "hour" unit then
    let monthly := cents rt.floats (rt.floats.mul price 730)
    if monthly ≤ 0 then return none
    let variant := if mentions "spot" meter then " (Spot)"
      else if mentions "low priority" meter then " (Low Priority)" else ""
    return some { name := titleOr title id ++ variant, kind := "cloud", locations := oneText (get x "region")
                  priceMonthly := monthly, priceHourly := some price }
  else if mentions "gb/month" unit then
    return some { name := titleOr title id ++ " (per GB/month)", kind := "storage"
                  locations := oneText (get x "region"), priceMonthly := price }
  else throw (typeError "unknown Azure price unit")

def digitalOcean (x : Json) (id : String) : Except Fault (Option Plan) := do
  let some monthly ← number (get x "price_monthly") "monthly price" | throw (typeError "missing monthly price")
  if monthly ≤ 0 then return none
  let vcpu ← number (get x "vcpus") "vcpu"
  let ram ← number (get x "memory") "memory"
  let family := String.ofList (Json.trimChars (textOr (get x "description")).toList)
  let transfer ← number (get x "transfer") "transfer"
  return some {
    name := match vcpu, ram with
      | some n, some mb => if family = "" then id else s!"{family} · {rt.numberText n} vCPU, {memoryText rt mb}"
      | _, _ => id
    kind := "cloud", vcpu, ramMb := ram, diskGb := ← number (get x "disk") "disk"
    diskType := some (if endsWith id "-amd" || endsWith id "-intel" then "nvme" else "ssd")
    bandwidthGb := transfer.map fun tb => nearest (rt.floats.mul tb 1000), priceMonthly := monthly
    priceHourly := ← number (get x "price_hourly") "hourly price", ipv4 := some 1
    locations := texts (get x "regions") }

/-- A location's price at Hetzner. -/
structure HetznerPrice where
  location : String
  monthly : Rat
  hourly : Option Rat
  traffic : Option Rat

/-- `Number(p && p[key] && p[key].net)`. -/
def net (p : Json) (key : String) : Option Rat :=
  match p.field key with
  | some price => if price.truthy then Json.number (price.field "net") else Json.number (some price)
  | none => none

def hetznerPrices (x : Json) : List HetznerPrice :=
  match get x "prices" with
  | .arr items => items.filterMap fun p =>
    match get p "location", net p "price_monthly" with
    | .str location, some monthly =>
      if 0 < monthly then
        some ⟨location, monthly, net p "price_hourly", Json.number (p.field "included_traffic")⟩
      else none
    | _, _ => none
  | _ => []

def hetzner (x : Json) (id : String) (title : Json) : Except Fault Plan := do
  match hetznerPrices x with
  | [] => throw (typeError "missing monthly price")
  | first :: rest =>
    let cheapest := rest.foldl (fun a b => if b.monthly < a.monthly then b else a) first
    let memoryGb ← number (get x "memory") "memory"
    let cores ← number (get x "cores") "cores"
    let name := titleOr title id
    return {
      name := match cores, memoryGb with
        | some n, some gb =>
          let dedicated := if (get x "cpu_type").same (.str "dedicated") then " (dedicated)" else ""
          s!"{name} · {rt.numberText n} vCPU{dedicated}, {rt.numberText gb} GB"
        | _, _ => name
      kind := "cloud", vcpu := cores, ramMb := memoryGb.map fun gb => nearest (rt.floats.mul gb 1024)
      diskGb := ← number (get x "disk") "disk"
      diskType := if (get x "storage_type").same (.str "local") then some "nvme" else none
      bandwidthGb := match cheapest.traffic with
        | some bytes => if 0 < bytes then some (nearest (rt.floats.div bytes 1000000000)) else none
        | none => none
      currency := "EUR", priceMonthly := cents rt.floats cheapest.monthly, priceHourly := cheapest.hourly
      locations := .texts ((first :: rest).map (·.location)).eraseDups }

/-- Vultr's and Linode's own plans. -/
def direct (vultr : Bool) (x : Json) (id : String) (title : Json) : Except Fault (Option Plan) := do
  let some monthly ← number (get x (if vultr then "monthly_cost" else "price_monthly")) "monthly price"
    | throw (typeError "missing monthly price")
  -- A free tier is not a price to compare: held, not listed.
  if monthly ≤ 0 || (vultr && endsWith id "-free") then return none
  let disks ← match vultr, get x "disk_count" with
    | true, .null => pure (some 1)
    | true, count => number count "disk count"
    | false, _ => pure (some 1)
  let disk ← number (get x "disk") "disk"
  let count := if disks.getD 0 = 0 then 1 else disks.getD 0
  let type := textOr (get x "type")
  return some {
    name := if vultr then vultrName rt x id else titleOr title id
    kind := if vultr && (type = "vdc" || type = "vbm") then "dedicated" else "cloud"
    vcpu := ← number (get x (if vultr then "vcpu_count" else "vcpus")) "vcpu"
    ramMb := ← number (get x (if vultr then "ram" else "memory")) "ram"
    diskGb := disk.map fun size => if vultr then rt.floats.mul size count else rt.floats.div size 1024
    diskType := if ¬ vultr then none else if type = "vhf" || type = "vhp" then some "nvme"
      else if type = "vc2" then some "ssd" else none
    bandwidthGb := ← number (get x (if vultr then "bandwidth" else "transfer")) "bandwidth"
    priceMonthly := monthly
    priceHourly := ← number (get x (if vultr then "hourly_cost" else "price_hourly")) "hourly price" }

/-- The mapper of a source key. -/
def planOf (key : String) (x : Json) (id : String) (title : Json) : Except Fault (Option Plan) :=
  if key = "aws-lightsail-bundles" then (lightsail rt x id).map some
  else if key = "azure-retail-prices" then azure rt x id title
  else if key = "digitalocean-sizes" then digitalOcean rt x id
  else if key = "hetzner-server-types" then (hetzner rt x id title).map some
  else if key = "ovhcloud-vps" then ovhcloud rt x id title
  else if key = "ovhcloud-baremetal" then ovhBaremetal rt x id title
  else direct rt (key = "vultr-plans") x id title

/-- `Date.parse(x.effective_start || '')`, where it is finite. -/
def effective (x : Json) : Option Int :=
  if (get x "effective_start").truthy then rt.parseDate (get x "effective_start") else none

/-- An Azure row is priced in one region, from the day its price took effect. -/
def azureKey (x : Json) (id : String) (checked : Int) : String × Int :=
  let observed := (effective rt x).getD checked
  match get x "region" with
  | .str region => (if region = "" then id else s!"{id}@{region}", observed)
  | _ => (id, observed)

/-- `item.id`, as a text column keeps it. -/
def itemId (item : Json) : Value :=
  match get item "id" with
  | .str s => .str s
  | .num n => .str (rt.numberText n)
  | .null => .null
  | _ => .object

/-- `mapItem`: none holds the item back. -/
def mapItem (item : Json) : Except Fault (Option Mapped) := do
  let key := textOr (get item "source_key")
  match sources.lookup key with
  | none => return none
  | some provider =>
    let x := get item "fields"
    let provenance := get item "provenance"
    if ! (get item "category").same (.str "hosting") || ! isObject x || ! provenance.truthy
        || ! (get provenance "retrieved_at").truthy || ! (get provenance "first_seen_at").truthy then
      throw (typeError "incomplete hosting item")
    let id := String.ofList (Json.trimChars (textOr (get item "identity")).toList)
    match rt.parseDate (get provenance "retrieved_at"), rt.parseDate (get provenance "first_seen_at") with
    | some retrieved, some first =>
      if id = "" || 200 < units id then throw (typeError "invalid plan identity or fetch time")
      let some plan ← planOf rt key x id (get item "title") | return none
      let (externalId, checkedAt) := if key = "azure-retail-prices" then azureKey rt x id retrieved
        else (id, retrieved)
      return some { plan with
        provider, externalId, sourceKey := key
        sourceItemId := itemId rt item
        sourceUrl := provider.sourceUrl, checkedAt, firstSeenAt := first
        priceTerm := "monthly", renewalPrice := none }
    | _, _ => throw (typeError "invalid plan identity or fetch time")

end Mapping

end OpenVibeHost.Catalog
