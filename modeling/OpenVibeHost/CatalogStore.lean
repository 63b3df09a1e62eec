import OpenVibeHost.KeyedTables
import OpenVibeHost.Sessions
import OpenVibeHost.TldPrices

/-! The catalog's store (server/catalog/store.js, domain-store.js): checking what staff
submit, saving it, and applying the items of the feeds. Each is a program of the
statements the source sends, so the same definition is run alone and together with
others. -/
namespace OpenVibeHost.Catalog

/-! ### Tables -/

inductive Kind where
  | providers
  | plans
  | promos
  deriving DecidableEq

/-- `fields`. -/
def fields : Kind → List String
  | .providers => ["slug", "name", "homepage_url", "description", "affiliate_url", "affiliate_note", "status"]
  | .plans => ["provider_id", "external_id", "name", "kind", "vcpu", "ram_mb", "disk_gb", "disk_type",
      "bandwidth_gb", "unmetered", "port_mbps", "ipv4", "locations", "currency", "price_monthly",
      "price_hourly", "price_term", "renewal_price", "setup_fee", "source_url", "checked_at", "status"]
  | .promos => ["provider_id", "title", "details", "code", "url", "affiliate", "starts_at", "ends_at", "status"]

/-- The columns of the three tables (migrations 0005 and 0014). -/
def column : Kind → String → Column
  | .providers, k => if k ∈ ["created_at", "updated_at"] then .bigint else .text
  | .plans, k =>
    if k ∈ ["vcpu", "ram_mb", "disk_gb", "bandwidth_gb", "port_mbps"] then .numeric
    else if k ∈ ["price_monthly", "renewal_price", "setup_fee"] then .fixed 12 4
    else if k = "price_hourly" then .fixed 12 6
    else if k = "unmetered" then .boolean
    else if k = "ipv4" then .integer
    else if k = "locations" then .textArray
    else if k ∈ ["checked_at", "first_seen_at", "last_seen_at", "created_at", "updated_at"] then .bigint
    else .text
  | .promos, k =>
    if k = "affiliate" then .boolean
    else if k ∈ ["starts_at", "ends_at", "created_at", "updated_at"] then .bigint
    else .text

/-- The columns that are NOT NULL. -/
def required : Kind → List String
  | .providers => ["slug", "name", "homepage_url", "status", "created_at", "updated_at"]
  | .plans => ["provider_id", "external_id", "name", "kind", "currency", "price_monthly", "origin",
      "source_url", "checked_at", "first_seen_at", "last_seen_at", "status", "created_at", "updated_at"]
  | .promos => ["provider_id", "title", "url", "affiliate", "status", "created_at", "updated_at"]

/-- The columns under which a row is unique besides its id. -/
def unique : Kind → List String
  | .providers => ["slug"]
  | .plans => ["provider_id", "external_id"]
  | .promos => []

/-- What a column that an INSERT leaves out holds. -/
def default : Kind → Row
  | .promos, "affiliate" => .bool false
  | _, "status" => .str "active"
  | _, _ => .null

/-- A row of `catalog_price_changes`. -/
structure PriceChange where
  planId : String
  observedAt : Int
  currency : String
  before : Rat
  after : Rat
  deriving DecidableEq

structure Store where
  tables : Kind → Table Row
  priceChanges : List PriceChange
  tldPrices : Table Domains.TldPrice
  tldChanges : List Domains.TldChange

namespace Store

abbrev providers (store : Store) : Table Row := store.tables .providers
abbrev plans (store : Store) : Table Row := store.tables .plans

def withTable (store : Store) (kind : Kind) (table : Table Row) : Store :=
  { store with tables := Function.update store.tables kind table }

/-- Another row of the table has the unique columns of this one. -/
def clashes (store : Store) (kind : Kind) (id : String) (row : Row) : Bool :=
  unique kind ≠ [] ∧ (store.tables kind).entries.any fun (key, other) =>
    key ≠ id ∧ (unique kind).all fun k => other k = row k

/-- NULL, or one of these texts. -/
def oneOf (allowed : List String) : Value → Bool
  | .null => true
  | .str s => s ∈ allowed
  | _ => false

/-- `currency ~ '^[A-Z]{3}$'`. -/
def isCode : Value → Bool
  | .str s => s.length = 3 ∧ s.toList.all Char.isUpper
  | _ => false

/-- The CHECK constraints over a row, beside those of a single number. -/
def checked : Kind → Row → Bool
  | .providers, row => oneOf ["active", "hidden"] (row "status")
  | .plans, row =>
    oneOf ["cloud", "vps", "dedicated", "storage", "domain"] (row "kind") &&
    oneOf ["ssd", "nvme", "hdd"] (row "disk_type") && isCode (row "currency") &&
    oneOf ["monthly", "1-year", "3-year"] (row "price_term") &&
    oneOf ["sources", "staff"] (row "origin") && oneOf ["active", "gone", "hidden"] (row "status") &&
    (match row "ipv4" with
      | .num x => 0 ≤ x
      | _ => true) &&
    (row "origin" = .str "staff" || row "source_key" ≠ .null && row "source_item_id" ≠ .null)
  | .promos, row =>
    oneOf ["active", "ended", "hidden"] (row "status") &&
    match row.number "starts_at", row.number "ends_at" with
    | some starts, some ends => starts ≤ ends
    | _, _ => true

/-- `UPDATE catalog_… SET … WHERE id = ?`. -/
def update (kind : Kind) (id : String) (columns : List String) (value : String → Value)
    (store : Store) : Except Fault Store :=
  match (store.tables kind).get id with
  | none => .ok store
  | some row => do
    let new ← written (column kind) columns (required kind) value row
    if ! checked kind new then throw (.database "check")
    if columns.any (· ∈ unique kind) && store.clashes kind id new then throw (.database "unique")
    return store.withTable kind ((store.tables kind).set id new)

/-- `INSERT INTO catalog_…`. -/
def insert (kind : Kind) (id : String) (columns : List String) (value : String → Value)
    (store : Store) : Except Fault Store := do
  if ! storableText id then throw (.database "id")
  let row ← written (column kind) columns (required kind) value (default kind)
  if (required kind).any fun k => row k = .null then throw (.database "not null")
  if ! checked kind row then throw (.database "check")
  if store.clashes kind id row then throw (.database "unique")
  let some table := (store.tables kind).add id row | throw (.database "pkey")
  return store.withTable kind table

/-- The row of a plan's change, as its columns keep it. -/
def changeOf (planId : String) (observedAt currency before after : Value) : Except Fault PriceChange :=
  match Column.bigint.write observedAt, Column.text.write currency,
      (Column.fixed 12 4).write before, (Column.fixed 12 4).write after with
  | some (.num time), some (.str currency), some (.decimal before), some (.decimal after) =>
    if before = after then .error (.database "catalog_price_changes_check")
    else .ok ⟨planId, time.num, currency, before, after⟩
  | _, _, _, _ => .error (.database "catalog_price_changes")

/-- `INSERT INTO catalog_price_changes … ON CONFLICT DO NOTHING`: the row is checked
before its key is looked up. -/
def recordChange (planId : String) (observedAt currency before after : Value) (store : Store) :
    Except Fault Store := do
  let c ← changeOf planId observedAt currency before after
  if store.priceChanges.any fun d => d.planId = c.planId ∧ d.observedAt = c.observedAt then return store
  return { store with priceChanges := store.priceChanges ++ [c] }

end Store

/-- A client of the store; an UPDATE locks its row by its id. -/
abbrev Client := Session Store String Fault

/-! ### What staff submit -/

/-- A parsed body: its fields, or none where it is no object. -/
abbrev Input := Option (List (String × Value))

/-- `{ ...(current || {}), ...input }`: none is undefined. -/
def merged (input : List (String × Value)) (current : Option Row) (k : String) : Option Value :=
  match input.lookup k with
  | some value => some value
  | none => current.map (· k)

/-- `v[k]` where it is neither undefined nor null. -/
def present (v : String → Option Value) (k : String) : Option Value :=
  (v k).filter (· ≠ .null)

/-- A loop over fields that refuses the first one with something wrong. -/
def refuseFirst (ks : List String) (wrong : String → Bool) (message : String → String) : Except Fault Unit :=
  match ks.find? wrong with
  | some k => .error (invalid (message k))
  | none => .ok ()

def refuseIf (wrong : Bool) (message : String) : Except Fault Unit :=
  if wrong then .error (invalid message) else .ok ()

def strings : Kind → List String
  | .providers => ["slug", "name", "homepage_url", "description", "affiliate_url", "affiliate_note", "status"]
  | .plans => ["provider_id", "external_id", "name", "kind", "disk_type", "currency", "price_term",
      "source_url", "status"]
  | .promos => ["provider_id", "title", "details", "code", "url", "status"]

def needed : Kind → List String
  | .providers => ["slug", "name", "homepage_url"]
  | .plans => ["provider_id", "external_id", "name", "kind", "currency", "price_monthly", "source_url"]
  | .promos => ["provider_id", "title", "url"]

/-- The numbers of a plan that `clean` checks in the input alone. -/
def numbers : List String :=
  ["vcpu", "ram_mb", "disk_gb", "bandwidth_gb", "port_mbps", "ipv4", "price_monthly", "price_hourly",
   "renewal_price", "setup_fee"]

/-- A present field that is not a text of allowed length. -/
def badText (v : String → Option Value) (k : String) : Bool :=
  match present v k with
  | none => false
  | some (.str s) => 2048 < units s || (s = "" && k ∉ ["description", "affiliate_note", "details", "code"])
  | some _ => true

def badUrl (rt : Runtime) (v : String → Option Value) (k : String) : Bool :=
  match present v k with
  | none => false
  | some (.str s) => ! rt.httpUrl s
  | some _ => true

/-- A present field that is none of these texts. -/
def notIn (v : String → Option Value) (k : String) (allowed : List String) : Bool :=
  match present v k with
  | none => false
  | some (.str s) => s ∉ allowed
  | some _ => true

def notBool (v : String → Option Value) (k : String) : Bool :=
  match present v k with
  | none | some (.bool _) => false
  | some _ => true

/-- `v[k] >= bound`. -/
def atLeast (v : String → Option Value) (k : String) (bound : Rat) : Bool :=
  match (present v k).bind Value.number with
  | some x => bound ≤ x
  | none => false

/-- `/^[a-z0-9]+(?:-[a-z0-9]+)*$/`. -/
def isSlug (text : String) : Bool := Domains.isLabel text.toList

def kinds : List String := ["cloud", "vps", "dedicated", "storage", "domain"]

/-- `checked_at` of a plan: now where none is known, or where the price changes without
one. -/
def checkedAt (input : List (String × Value)) (current : Option Row) (now : Int) : Option Value :=
  let known := merged input current "checked_at"
  if (present (merged input current) "checked_at").isNone ||
      (current.isSome && (input.lookup "price_monthly").isSome && (input.lookup "checked_at").isNone) then
    some (.num now)
  else known

def cleanPlan (rt : Runtime) (input : List (String × Value)) (v : String → Option Value) :
    Except Fault Unit := do
  let knownCurrency := match v "currency" with
    | some (.str s) => rt.currency s
    | _ => false
  let knownKind := match v "kind" with
    | some (.str s) => s ∈ kinds
    | _ => false
  refuseIf (! knownKind || ! knownCurrency) "Invalid kind or currency"
  refuseFirst numbers (fun k => match present (fun k => input.lookup k) k with
    | none => false
    | some (.num x) => x < 0
    | some _ => true) (fun k => s!"{k} must be a non-negative number")
  refuseIf (notIn v "price_term" ["monthly", "1-year", "3-year"]) "Invalid price term"
  refuseIf (match present v "ipv4" with
    | none => false
    | some (.num x) => x.den ≠ 1
    | some _ => true) "ipv4 must be an integer"
  refuseIf (notIn v "disk_type" ["ssd", "nvme", "hdd"]) "Invalid disk type"
  refuseIf (notBool v "unmetered") "unmetered must be boolean"
  refuseIf (match present v "locations" with
    | none => false
    | some (.texts items) => items.any (· = "")
    | some _ => true) "Invalid locations"
  refuseIf (atLeast v "price_monthly" 100000000 || atLeast v "price_hourly" 1000000 ||
    atLeast v "renewal_price" 100000000 || atLeast v "setup_fee" 100000000)
    "Price is outside catalog range"
  refuseIf (match v "checked_at" with
    | some value => ! value.isSafeInteger || (value.number.getD 0) < 0
    | none => true) "Invalid checked_at"
  refuseIf (notIn v "status" ["active", "gone", "hidden"]) "Invalid status"

def cleanPromo (v : String → Option Value) : Except Fault Unit := do
  refuseIf (notIn v "status" ["active", "ended", "hidden"]) "Invalid status"
  refuseIf (notBool v "affiliate") "affiliate must be boolean"
  refuseFirst ["starts_at", "ends_at"] (fun k => match present v k with
    | none => false
    | some value => ! value.isSafeInteger) (fun k => s!"Invalid {k}")
  refuseIf (match (present v "starts_at").bind Value.number, (present v "ends_at").bind Value.number with
    | some starts, some ends => ends < starts
    | _, _ => false) "Promo end precedes start"

/-- `clean`: the entry that an input makes of the current one, or what is wrong with it. -/
def clean (rt : Runtime) (kind : Kind) (input : Input) (current : Option Row) (now : Int) :
    Except Fault (String → Option Value) := do
  let some input := input | throw (invalid "Body must be an object")
  refuseFirst (input.map (·.1)) (· ∉ fields kind) (fun k => s!"Unknown field: {k}")
  let v := merged input current
  refuseFirst (strings kind) (badText v) (fun k => s!"Invalid {k}")
  refuseFirst (needed kind) (fun k => (present v k).isNone || v k = some (.str "")) (fun k => s!"{k} is required")
  refuseFirst ["homepage_url", "affiliate_url", "source_url", "url"] (badUrl rt v)
    (fun k => s!"{k} must be an HTTP(S) URL")
  match kind with
  | .providers =>
    refuseIf (match v "slug" with
      | some (.str s) => ! isSlug s
      | _ => true) "Invalid slug"
    refuseIf (notIn v "status" ["active", "hidden"]) "Invalid status"
    return v
  | .plans =>
    let v := Function.update v "checked_at" (checkedAt input current now)
    cleanPlan rt input v
    return v
  | .promos =>
    cleanPromo v
    return v

/-! ### Saving -/

/-- `promoOut`: a promo past its end reads as ended. -/
def promoOut (now : Int) (row : Row) : Row :=
  match row "status", row.number "ends_at" with
  | .str "active", some ends => if ends ≤ now then Function.update row "status" (.str "ended") else row
  | _, _ => row

/-- What `get(type, id)` makes of the row it reads. -/
def out (kind : Kind) (now : Int) (row : Row) : Row :=
  match kind with
  | .promos => promoOut now row
  | .providers | .plans => row

/-- `get`. -/
def getEntry (kind : Kind) (id : String) (now : Int) : Client Row := do
  let row ← Session.select fun store : Store => (store.tables kind).get id
  match row with
  | some row => pure (out kind now row)
  | none => Session.fail missing

/-- Numbers that JavaScript compares with `!==`. -/
def numbersDiffer (a b : Value) : Bool :=
  match a.number, b.number with
  | some x, some y => x ≠ y
  | _, _ => true

/-- The price or the currency is another than the plan's. -/
def repriced (current : Row) (price currency : Value) : Bool :=
  numbersDiffer (current "price_monthly") price || current "currency" ≠ currency

/-- A save from outside: what was submitted, by whom, when, and the id a new entry gets. -/
structure Save where
  kind : Kind
  input : Input
  id : Option String
  actor : String
  now : Int
  newId : String

/-- The columns a save writes. -/
def columnsOf (kind : Kind) (v : String → Option Value) : List String :=
  (fields kind).filter fun k => (v k).isSome

def valueOf (v : String → Option Value) (k : String) : Value := (v k).getD .null

/-- A SELECT whose answer refuses the save. -/
def refuseWhere (asked : Bool) (found : Store → Bool) (message : String) : Client Unit :=
  if asked then do
    let refused ← Session.select found
    if refused then Session.fail (invalid message) else pure ()
  else pure ()

/-- The refusals that look at other rows. -/
def checkOthers (s : Save) (v : String → Option Value) : Client Unit := do
  refuseWhere (s.kind ≠ .providers) (fun store => match v "provider_id" with
    | some (.str id) => (store.providers.get id).isNone
    | _ => true) "Unknown provider"
  refuseWhere (s.kind = .providers) (fun store => store.providers.entries.any fun (key, row) =>
    key ≠ s.id.getD "" ∧ some (row "slug") = v "slug") "Provider slug already exists"
  refuseWhere (s.kind = .plans) (fun store => store.plans.entries.any fun (key, row) =>
    key ≠ s.id.getD "" ∧ some (row "provider_id") = v "provider_id" ∧
      some (row "external_id") = v "external_id") "Plan external_id already exists for provider"

/-- The columns an UPDATE or INSERT of a save writes beside the entry's own. -/
def stamped (v : String → Option Value) (stamps : List (String × Value)) (k : String) : Value :=
  match stamps.lookup k with
  | some value => value
  | none => valueOf v k

/-- The columns of an entry rewritten, a change of its price recorded. -/
def rewrite (s : Save) (id : String) (current : Row) (v : String → Option Value) : Client Row := do
  if s.kind = .plans ∧ repriced current (valueOf v "price_monthly") (valueOf v "currency") then
    Session.execute none (Store.recordChange id (valueOf v "checked_at") (valueOf v "currency")
      (current "price_monthly") (valueOf v "price_monthly"))
  Session.execute (some id) (Store.update s.kind id (columnsOf s.kind v ++ ["updated_at"])
    (stamped v [("updated_at", .num s.now)]))
  getEntry s.kind id s.now

/-- A save of a Sources plan that gives anything but its status. -/
def editsSources (s : Save) (current : Row) : Bool :=
  s.kind = .plans ∧ current "origin" = .str "sources" ∧ (s.input.getD []).any fun (k, _) => k ≠ "status"

/-- `saveTx` for an entry that exists. -/
def saveExisting (rt : Runtime) (s : Save) (id : String) : Client Row := do
  let current ← getEntry s.kind id s.now
  if editsSources s current then Session.fail (invalid "Only status can be edited on a Sources plan")
  else
    let v ← Session.ofExcept (clean rt s.kind s.input (some current) s.now)
    checkOthers s v
    rewrite s id current v

/-- `saveTx` for a new entry. -/
def saveNew (rt : Runtime) (s : Save) : Client Row := do
  let v ← Session.ofExcept (clean rt s.kind s.input none s.now)
  checkOthers s v
  let extras := if s.kind = .plans then
      [("origin", Value.str "staff"), ("first_seen_at", .num s.now), ("last_seen_at", .num s.now)]
    else []
  let stamps := extras ++ [("created_by", .str s.actor), ("created_at", .num s.now), ("updated_at", .num s.now)]
  Session.execute none (Store.insert s.kind s.newId (columnsOf s.kind v ++ stamps.map (·.1)) (stamped v stamps))
  getEntry s.kind s.newId s.now

/-- `saveTx`, which runs in a transaction. -/
def save (rt : Runtime) (s : Save) : Client Row :=
  match s.id with
  | some id => saveExisting rt s id
  | none => saveNew rt s

/-! ### Applying a feed's items -/

inductive Applied where
  | applied
  | removed
  | hold
  deriving DecidableEq

/-- An item from a feed, when it is applied (a time that a Date holds), and the ids new rows
get. -/
structure Delivery where
  item : Json
  now : Int
  clock : now.natAbs ≤ 8640000000000000
  providerId : String
  rowId : String

/-- The columns `applyItem` writes. -/
def itemColumns : List String :=
  ["name", "kind", "vcpu", "ram_mb", "disk_gb", "disk_type", "bandwidth_gb", "unmetered", "port_mbps",
   "ipv4", "locations", "currency", "price_monthly", "price_hourly", "price_term", "renewal_price",
   "setup_fee", "source_key", "source_item_id", "source_url", "checked_at"]

/-- `v[k]` of a mapped item. -/
def Mapping.Mapped.value (v : Mapping.Mapped) : String → Value
  | "name" => .str v.name
  | "kind" => .str v.kind
  | "vcpu" => .ofNumber v.vcpu
  | "ram_mb" => .ofNumber v.ramMb
  | "disk_gb" => .ofNumber v.diskGb
  | "disk_type" => .ofText v.diskType
  | "bandwidth_gb" => .ofNumber v.bandwidthGb
  | "unmetered" => match v.unmetered with
    | some b => .bool b
    | none => .null
  | "port_mbps" => .ofNumber v.portMbps
  | "ipv4" => .ofNumber v.ipv4
  | "locations" => v.locations
  | "currency" => .str v.currency
  | "price_monthly" => .num v.priceMonthly
  | "price_hourly" => .ofNumber v.priceHourly
  | "price_term" => .str v.priceTerm
  | "renewal_price" => .ofNumber v.renewalPrice
  | "setup_fee" => .ofNumber v.setupFee
  | "source_key" => .str v.sourceKey
  | "source_item_id" => v.sourceItemId
  | "source_url" => .str v.sourceUrl
  | "checked_at" => .num v.checkedAt
  | _ => .null

/-- The provider of a slug, inserted where there is none. -/
def providerOf (source : Mapping.Source) (d : Delivery) : Client String := do
  let found ← Session.select fun store : Store => store.providers.find (· "slug" = .str source.slug)
  match found with
  | some (id, _) => pure id
  | none =>
    let values := [("slug", Value.str source.slug), ("name", .str source.name),
      ("homepage_url", .str source.homepageUrl), ("status", .str "active"),
      ("created_at", .num d.now), ("updated_at", .num d.now)]
    Session.execute none (Store.insert .providers d.providerId (values.map (·.1))
      fun k => (values.lookup k).getD .null)
    pure d.providerId

/-- `SELECT * FROM catalog_plans WHERE provider_id = ? AND external_id = ?`. -/
def planOf (store : Store) (providerId externalId : String) : Option (String × Row) :=
  store.plans.find fun row => row "provider_id" = .str providerId ∧ row "external_id" = .str externalId

/-- `v.checked_at < Number(old.checked_at)`. -/
def older (time : Int) (old : Row) : Bool :=
  match (old "checked_at").number with
  | some stored => (time : Rat) < stored
  | none => false

/-- What `applyItem` does to a plan that exists. -/
def reprice (v : Mapping.Mapped) (now : Int) (id : String) (old : Row) : Client Applied := do
  if old "origin" ≠ .str "sources" ∨ older v.checkedAt old then pure .hold
  else
    if repriced old (.num v.priceMonthly) (.str v.currency) then
      Session.execute none (Store.recordChange id (.num v.checkedAt) (.str v.currency)
        (old "price_monthly") (.num v.priceMonthly))
    let stamps := [("last_seen_at", Value.num v.checkedAt), ("updated_at", .num now)]
    Session.execute (some id) (Store.update .plans id (itemColumns ++ stamps.map (·.1))
      fun k => (stamps.lookup k).getD (v.value k))
    pure .applied

/-- And for one that does not. -/
def firstSeen (v : Mapping.Mapped) (d : Delivery) (providerId : String) : Client Applied := do
  let stamps := [("provider_id", Value.str providerId), ("external_id", .str v.externalId),
    ("origin", .str "sources"), ("first_seen_at", .num v.firstSeenAt), ("last_seen_at", .num v.checkedAt),
    ("status", .str "active"), ("created_at", .num d.now), ("updated_at", .num d.now)]
  Session.execute none (Store.insert .plans d.rowId (itemColumns ++ stamps.map (·.1))
    fun k => (stamps.lookup k).getD (v.value k))
  pure .applied

/-- A plan's item applied. -/
def applyPlan (v : Mapping.Mapped) (d : Delivery) : Client Applied := do
  let providerId ← providerOf v.provider d
  let old ← Session.select fun store : Store => planOf store providerId v.externalId
  match old with
  | some (id, row) => reprice v d.now id row
  | none => firstSeen v d providerId

namespace Domains

/-- The price of a registrar for a TLD. -/
def priceOf (store : Store) (providerId tld : String) : Option (String × TldPrice) :=
  store.tldPrices.find fun row => row.providerId = providerId ∧ row.tld = tld

/-- A price or the currency is another than the stored one. -/
def moved (old : TldPrice) (v : Mapped) : Bool :=
  old.register ≠ v.register ∨ old.renew ≠ v.renew ∨ old.transfer ≠ v.transfer ∨ old.currency ≠ v.currency

/-- `INSERT INTO catalog_tld_price_changes … ON CONFLICT DO NOTHING`. -/
def recordChange (id : String) (old : TldPrice) (v : Mapped) (store : Store) : Except Fault Store := do
  let before ← keep old.toPrices
  let after ← keep v.toPrices
  if store.tldChanges.any fun c => c.priceId = id ∧ c.observedAt = v.checkedAt then return store
  return { store with tldChanges := store.tldChanges ++ [⟨id, v.checkedAt, v.currency, before, after⟩] }

/-- The row of an item; a row from a source states its item. -/
def rowOf (v : Mapped) (providerId : String) (firstSeenAt createdAt now : Int) (status : String) :
    Except Fault TldPrice := do
  if ! v.sourceItemId.isText then throw (.database "catalog_tld_prices_check1")
  return {
    toPrices := ← keep v.toPrices
    providerId, tld := v.tld, currency := v.currency, origin := "sources", sourceKey := some v.sourceKey
    sourceItemId := v.sourceItemId, sourceUrl := v.sourceUrl, checkedAt := v.checkedAt
    firstSeenAt, lastSeenAt := v.checkedAt, status, createdAt, updatedAt := now }

/-- The UPDATE of `apply`. A TLD the registrar stopped selling and sells again comes back. -/
def updatePrice (id : String) (v : Mapped) (now : Int) (store : Store) : Except Fault Store :=
  match store.tldPrices.get id with
  | none => .ok store
  | some old => do
    let row ← rowOf v old.providerId old.firstSeenAt old.createdAt now
      (if old.status = "gone" then "active" else old.status)
    let new := { row with tld := old.tld, origin := old.origin, sourceKey := old.sourceKey }
    return { store with tldPrices := store.tldPrices.set id new }

/-- The INSERT of `apply`. -/
def insertPrice (id : String) (v : Mapped) (providerId : String) (now : Int) (store : Store) :
    Except Fault Store := do
  let row ← rowOf v providerId v.firstSeenAt now now "active"
  if 120 < v.tld.length then throw (.database "catalog_tld_prices_tld_check")
  if (priceOf store providerId v.tld).isSome then throw (.database "unique")
  let some table := store.tldPrices.add id row | throw (.database "pkey")
  return { store with tldPrices := table }

/-- The rows that the UPDATE of a removed item reaches. -/
def offered (key tld : String) (row : TldPrice) : Bool :=
  row.sourceKey = some key ∧ row.tld = tld ∧ row.status = "active"

/-- `UPDATE catalog_tld_prices SET status = 'gone' …` of a removed item. -/
def markGone (key tld : String) (now : Int) (store : Store) : Store :=
  let reached := store.tldPrices.entries.filter fun entry => offered key tld entry.2
  { store with tldPrices := reached.foldl (fun table entry =>
      table.set entry.1 { entry.2 with status := "gone", updatedAt := now }) store.tldPrices }

/-- A price that exists, given another observation. -/
def reprice (v : Mapped) (now : Int) (id : String) (old : TldPrice) : Client Applied := do
  if old.origin ≠ "sources" ∨ v.checkedAt < old.checkedAt then pure .hold
  else
    if moved old v then Session.execute none (recordChange id old v)
    Session.execute (some id) (updatePrice id v now)
    pure .applied

/-- A TLD's item applied. -/
def applyPrice (v : Mapped) (d : Delivery) : Client Applied := do
  let providerId ← providerOf v.provider d
  let old ← Session.select fun store : Store => priceOf store providerId v.tld
  match old with
  | some (id, row) => reprice v d.now id row
  | none =>
    Session.execute none (insertPrice d.rowId v providerId d.now)
    pure .applied

/-- `apply` of server/catalog/domain-store.js. -/
def apply (rt : Runtime) (d : Delivery) : Client Applied := do
  if (Mapping.get d.item "removed").truthy then
    match normalizeTld rt.domainToASCII (Mapping.get d.item "identity") with
    | none => pure .hold
    | some tld =>
      let key := Mapping.textOr (Mapping.get d.item "source_key")
      Session.stmt none (markGone key tld d.now) fun seen =>
        .ret (if seen.tldPrices.entries.any fun entry => offered key tld entry.2 then .removed else .hold)
  else
    let v ← Session.ofExcept (mapTldPrice rt d.item)
    match v with
    | none => pure .hold
    | some v => applyPrice v d

end Domains

/-- `applyItem`. The items of the offer feeds go to `applyOffer`, which has a table of its
own. -/
def applyItem (rt : Runtime) (d : Delivery) : Client Applied := do
  let key := Mapping.textOr (Mapping.get d.item "source_key")
  if (Domains.sources.lookup key).isSome then Domains.apply rt d
  else if (Mapping.get d.item "removed").truthy then pure .hold
  else
    let v ← Session.ofExcept (Mapping.mapItem rt d.item)
    match v with
    | none => pure .hold
    | some v => applyPlan v d

end OpenVibeHost.Catalog
