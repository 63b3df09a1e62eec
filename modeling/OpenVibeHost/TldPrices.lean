import OpenVibeHost.Mapping

/-! Registrars' prices for domain endings (server/catalog/domains.js): reading them out
of a Sources item, and the rows they are kept in. -/
namespace OpenVibeHost.Catalog.Domains

open Mapping (Source get textOr)

/-- `OVH_SENTINEL`. -/
def ovhSentinel : Rat := 99999900000000

/-- `hundredMillionths(v, { zero })`: dollars; none where it is missing, the sentinel, or a
0 that is no price. -/
def hundredMillionths (floats : Floats) (v : Json) (zero : Bool) : Option Rat :=
  match v with
  | .null | .str "" => none
  | v =>
    match Json.number (some v) with
    | some n =>
      if n < 0 ∨ ovhSentinel ≤ n ∨ (n = 0 ∧ ¬ zero) then none else some (Mapping.fromUnits floats n)
    | none => none

/-- Thousands' commas left out: `.replace(/,(?=\d{3}(\D|$))/g, '')`. -/
def withoutThousands : List Char → List Char
  | ',' :: a :: b :: c :: rest =>
    if a.isDigit ∧ b.isDigit ∧ c.isDigit ∧ (rest.head?.map Char.isDigit).getD false = false then
      withoutThousands (a :: b :: c :: rest)
    else ',' :: withoutThousands (a :: b :: c :: rest)
  | c :: rest => c :: withoutThousands rest
  | [] => []

/-- `amount(v)`. -/
def amount (v : Json) : Option Rat :=
  match v with
  | .num x => if 0 ≤ x then some x else none
  | v =>
    let text := withoutThousands (Json.trimChars (textOr v).toList)
    if Mapping.isDecimal text then Json.numberOfText (String.ofList text) else none

/-- `[a-z0-9]+(-[a-z0-9]+)*`. -/
def isLabel (text : List Char) : Bool :=
  (text.splitOn '-').all fun part => part ≠ [] ∧ part.all fun c => c.isLower || c.isDigit

/-- `TLD_RE`. -/
def isTld (text : String) : Bool :=
  (text.toList.splitOn '.').all fun label =>
    isLabel label || ("xn--".toList.isPrefixOf label && isLabel (label.drop 4))

/-- `normalizeTld`: as stored, lower case, ASCII, no leading dot. The URL parser lowers what
is not ASCII. -/
def normalizeTld (domainToASCII : String → String) (v : Json) : Option String :=
  match v with
  | .str text =>
    let raw := ((Json.trimChars text.toList).map Char.toLower).dropWhile (· = '.')
    if raw = [] ∨ 120 < (raw.map Json.units).sum then none
    else
      let ascii := if raw.all (fun c => c.toNat < 128) then String.ofList raw
        else domainToASCII (String.ofList raw)
      if ascii ≠ "" ∧ isTld ascii then some ascii else none
  | _ => none

/-- `SOURCES`: only these keys may create a registrar. -/
def sources : List (String × Source) :=
  [("porkbun-tld-pricing", ⟨"porkbun", "Porkbun", "https://porkbun.com/", "https://porkbun.com/products/domains"⟩),
   ("ovhcloud-domain-pricing", ⟨"ovhcloud", "OVHcloud", "https://www.ovhcloud.com/en/",
      "https://www.ovhcloud.com/en/domains/tld/"⟩)]

/-- What a registrar charges for the first year, a renewal and a transfer. -/
structure Prices where
  register : Option Rat
  renew : Option Rat
  transfer : Option Rat
  deriving DecidableEq

/-- A source's `prices(x)`. -/
def pricesOf (floats : Floats) (key : String) (x : Json) : Prices :=
  if key = "porkbun-tld-pricing" then
    ⟨amount (get x "registration"), amount (get x "renewal"), amount (get x "transfer")⟩
  else
    ⟨hundredMillionths floats (get x "register") false, hundredMillionths floats (get x "renew") false,
      hundredMillionths floats (get x "transfer") true⟩

/-- A source's `skip(x)`. -/
def skips (key : String) (x : Json) : Bool :=
  if key = "porkbun-tld-pricing" then
    match get x "special_type" with
    | .null | .str "" => false
    | _ => true
  else
    ! (get x "currency").same (.str "USD") ||
      match Json.number (x.field "register") with
      | some n => n ≤ 0 || ovhSentinel ≤ n
      | none => true

/-- What `mapTldPrice` gives. -/
structure Mapped extends Prices where
  provider : Source
  tld : String
  currency : String
  sourceKey : String
  sourceItemId : Value
  sourceUrl : String
  checkedAt : Int
  firstSeenAt : Int

/-- `mapTldPrice`: none holds the item back. -/
def mapTldPrice (rt : Runtime) (item : Json) : Except Fault (Option Mapped) := do
  let key := textOr (get item "source_key")
  match sources.lookup key with
  | none => return none
  | some source =>
    let x := get item "fields"
    let provenance := get item "provenance"
    if ! (get item "category").same (.str "hosting") || ! Mapping.isObject x || ! provenance.truthy
        || ! (get provenance "retrieved_at").truthy || ! (get provenance "first_seen_at").truthy then
      throw (Mapping.typeError "incomplete domain price item")
    match rt.parseDate (get provenance "retrieved_at"), rt.parseDate (get provenance "first_seen_at") with
    | some checked, some first =>
      if skips key x then return none
      let some tld := normalizeTld rt.domainToASCII (get item "identity") | return none
      let prices := pricesOf rt.floats key x
      if prices.register = none ∧ prices.renew = none ∧ prices.transfer = none then return none
      return some { prices with
        provider := source, tld, currency := "USD", sourceKey := key
        sourceItemId := Mapping.itemId rt item
        sourceUrl := source.sourceUrl, checkedAt := checked, firstSeenAt := first }
    | _, _ => throw (Mapping.typeError "invalid fetch time")

/-! ### Rows -/

/-- A row of `catalog_tld_prices`, under its id. -/
structure TldPrice extends Prices where
  providerId : String
  tld : String
  currency : String
  origin : String
  sourceKey : Option String
  sourceItemId : Value
  sourceUrl : String
  checkedAt : Int
  firstSeenAt : Int
  lastSeenAt : Int
  status : String
  createdAt : Int
  updatedAt : Int
  deriving DecidableEq

/-- A row of `catalog_tld_price_changes`. -/
structure TldChange where
  priceId : String
  observedAt : Int
  currency : String
  before : Prices
  after : Prices
  deriving DecidableEq

/-- A price as its column keeps it. -/
def keepPrice : Option Rat → Except Fault (Option Rat)
  | none => .ok none
  | some x =>
    if storableFixed 12 4 x then .ok (some (Decimals.rounded 4 x)) else .error (.database "numeric")

def keep (prices : Prices) : Except Fault Prices := do
  return ⟨← keepPrice prices.register, ← keepPrice prices.renew, ← keepPrice prices.transfer⟩

end OpenVibeHost.Catalog.Domains
