import OpenVibeHost.ChangeReaders
import OpenVibeHost.Firsts
import Mathlib.Data.List.MinMax

/-! The search document of a TLD (server/catalog/search-index.js): one query joins every registrar's price with its
provider and aggregates the group, and the document states the aggregates. The cheapest prices are aggregated over the
active prices of active providers, the registrar and its price list over all of them. -/
namespace OpenVibeHost.Catalog.SearchIndex

open Answers (bind_ok)
open Domains (TldPrice)
open Doubles (Double)
open Firsts (Leads LedBy)

/-! ### The rows -/

/-- A row of `catalog_tld_prices p JOIN catalog_providers v`. -/
structure Joined where
  price : TldPrice
  provider : Row

namespace Joined

/-- `p.status = 'active' AND v.status = 'active'`. -/
def live (j : Joined) : Bool := j.price.status = "active" && j.provider.active

/-- `p.register NULLS LAST`. -/
def register (j : Joined) : WithTop Rat :=
  match j.price.register with
  | some x => x
  | none => ⊤

/-- `COALESCE(p.register, p.renew) + 4 * COALESCE(p.renew, p.register)`. -/
def fiveYears (j : Joined) : Option Rat := do
  let first ← j.price.register.or j.price.renew
  let later ← j.price.renew.or j.price.register
  return first + 4 * later

end Joined

/-- The rows of a TLD. -/
def joined (store : Store) (tld : String) : List Joined :=
  store.tldPrices.entries.filterMap fun (_, price) =>
    if price.tld = tld then (store.providers.get price.providerId).map (Joined.mk price) else none

/-- `MIN`, which leaves NULL out. -/
def least (prices : List (Option Rat)) : Option Rat := (prices.filterMap id).min?

/-- What the query says of a TLD. The two columns ordered by price are those of one row. -/
structure TldRow where
  tld : String
  register : Option Rat
  renew : Option Rat
  fiveYear : Option Rat
  registrars : Nat
  checkedAt : Option Int
  firstSeenAt : Option Int
  cheapest : Option Joined

namespace TldRow

def id (row : TldRow) : String := "tld-" ++ row.tld
def sourceUrl (row : TldRow) : Option String := row.cheapest.map (·.price.sourceUrl)
def registrar (row : TldRow) : Option String := row.cheapest.bind (·.provider.text "name")

end TldRow

/-- The row of a group. -/
def tldRow (tld : String) (group : List Joined) : TldRow :=
  let listed := group.filter (·.live)
  { tld
    register := least (listed.map (·.price.register))
    renew := least (listed.map (·.price.renew))
    fiveYear := least (listed.map (·.fiveYears))
    registrars := listed.length
    checkedAt := (group.map (·.price.checkedAt)).max?
    firstSeenAt := (group.map (·.price.firstSeenAt)).min?
    cheapest := (group.insertionSort fun a b => a.register ≤ b.register).head? }

/-- `rows(after, limit)`: the TLDs after an id, in the order of theirs. -/
def tldRows (store : Store) (after : String) (limit : Nat) : List TldRow :=
  let tlds := ((store.tldPrices.entries.map (·.2.tld)).filter fun tld => (joined store tld).length ≠ 0).dedup
  let later := tlds.filter fun tld => after < "tld-" ++ tld
  ((later.insertionSort fun a b => "tld-" ++ a ≤ "tld-" ++ b).take limit).map fun tld => tldRow tld (joined store tld)

/-! ### The document -/

/-- What the platform and the locale make of prices, times and names. -/
structure Shows where
  money : Rat → String → String
  /-- None where `toISOString` throws. -/
  toISOString : Int → Option String
  domainToUnicode : String → String

structure Provenance where
  service : String
  type : String
  id : String
  label : String
  url : String
  retrievedAt : Option String

structure Document where
  listed : Bool
  title : String
  summary : String
  body : String
  kind : String
  registerUsd : Option Double
  renewUsd : Option Double
  mode : String
  provenance : List Provenance
  publishedAt : Option String
  updatedAt : Option String

def isLetter (c : Char) : Bool := 'a' ≤ c && c ≤ 'z'

def tldKind (tld : String) : String :=
  if tld.toList.contains '.' then "second-level"
  else if "xn--".isPrefixOf tld then "internationalized"
  else if tld.length = 2 && tld.toList.all isLetter then "country"
  else "generic"

def kindLabel (kind : String) : String :=
  match kind with
  | "country" => "Country code"
  | "generic" => "Generic"
  | "second-level" => "Second level"
  | _ => "Internationalized"

variable (shows : Shows)

def iso (time : Option Int) : Except Fault (Option String) :=
  match time with
  | none => .ok none
  | some ms =>
    match shows.toISOString ms with
    | some text => .ok (some text)
    | none => .error (.thrown "Invalid time value")

/-- `day`: `Number(null)` is zero. -/
def day (time : Option Int) : Except Fault String :=
  match shows.toISOString (time.getD 0) with
  | some text => .ok (String.ofList (text.toList.take 10))
  | none => .error (.thrown "Invalid time value")

def registrarsText (n : Nat) : String := toString n ++ (if n = 1 then " registrar" else " registrars")

/-- The registrar that a document names, with its price list. -/
def provenanceOf (row : TldRow) (retrievedAt : Option String) : List Provenance :=
  match row.sourceUrl with
  | some url =>
    if url = "" then [] else
      let registrar := (row.registrar.filter (· ≠ "")).getD "Registrar"
      [⟨"host", "registrar_price_list", String.ofList (row.id.toList.take 128), registrar ++ " price list", url,
        retrievedAt⟩]
  | none => []

/-- `tldDocument`. -/
def tldDocument (row : TldRow) : Except Fault Document := do
  let shown := displayTld ⟨shows.domainToUnicode, fun s => s, fun _ _ => 0⟩ row.tld
  let usd := fun price => shows.money price "USD"
  let checked ← day shows row.checkedAt
  let kind := tldKind row.tld
  let times ← iso shows row.checkedAt
  let published ← iso shows row.firstSeenAt
  return {
    listed := 0 < row.registrars
    title := shown ++ " domain prices" ++ (match row.register with
      | some price => s!": from {usd price} the first year"
      | none => "")
    summary := " · ".intercalate ([row.renew.map fun price => s!"renews from {usd price} a year",
      row.fiveYear.map fun price => s!"five years from {usd price}", some (registrarsText row.registrars),
      some s!"checked {checked}"].filterMap id)
    body := "\n".intercalate ([some (shown ++ " domain names"), some ("Kind: " ++ kindLabel kind),
      row.register.map fun price => s!"First year from {usd price}",
      row.renew.map fun price => s!"Renewal from {usd price} a year",
      row.fiveYear.map fun price => s!"Five years from {usd price}",
      some s!"Listed by {registrarsText row.registrars}, checked {checked}"].filterMap id)
    kind
    registerUsd := row.register.map number
    renewUsd := row.renew.map number
    mode := "imported"
    provenance := provenanceOf row times
    publishedAt := published
    updatedAt := times }

/-! ### Whom a document names -/

/-- The registrar and the price list that a published document names are those of an active
price of an active provider, and its registration price is the one that the document states. -/
def NamesLive (row : TldRow) (doc : Document) : Prop :=
  doc.listed = true → ∀ p ∈ doc.provenance, ∃ j, row.cheapest = some j ∧ p.url = j.price.sourceUrl ∧
    p.label = ((j.provider.text "name").filter (· ≠ "")).getD "Registrar" ++ " price list" ∧
    j.live = true ∧ j.price.register = row.register

theorem tldDocument_ok {row : TldRow} {doc : Document} (made : tldDocument shows row = .ok doc) :
    doc.listed = decide (0 < row.registrars) ∧ ∃ times, doc.provenance = provenanceOf row times := by
  obtain ⟨checked, -, made⟩ := bind_ok.mp made
  obtain ⟨times, -, made⟩ := bind_ok.mp made
  obtain ⟨published, -, made⟩ := bind_ok.mp made
  cases made
  exact ⟨rfl, times, rfl⟩

/-- The cheapest row of all, where it is a live one, states the least price of the live ones. -/
theorem least_of_leads {group : List Joined} {j : Joined} (leads : Leads Joined.register group j)
    (live : j.live = true) : least ((group.filter (·.live)).map (·.price.register)) = j.price.register := by
  have least := leads.least
  unfold SearchIndex.least
  cases price : j.price.register with
  | none =>
    have missing : ((group.filter (·.live)).map (·.price.register)).filterMap id = [] := by
      rw [List.filterMap_eq_nil_iff]
      intro register mem
      obtain ⟨b, among, rfl⟩ := List.mem_map.mp mem
      have top := least b (List.mem_filter.mp among).1
      simp only [Joined.register, price, top_le_iff] at top
      split at top
      · cases top
      · rename_i none
        exact none
    rw [missing]
    rfl
  | some x =>
    rw [List.min?_eq_some_iff]
    refine ⟨List.mem_filterMap.mpr ⟨some x, List.mem_map.mpr ⟨j, List.mem_filter.mpr ⟨leads.mem, live⟩, price⟩, rfl⟩,
      fun y mem => ?_⟩
    obtain ⟨register, among, rfl⟩ := List.mem_filterMap.mp mem
    obtain ⟨b, inside, same⟩ := List.mem_map.mp among
    have le := least b (List.mem_filter.mp inside).1
    simpa [Joined.register, price, same] using le

/-- A document names a live price exactly where, of the rows of its TLD in the order of their
registration prices, one that is live or has no price list comes before all the others: where
no row that is gone, hidden or of a hidden provider is ahead. -/
theorem namesLive_iff (store : Store) (after : String) (limit : Nat) (row : TldRow) (doc : Document)
    (among : row ∈ tldRows store after limit) (made : tldDocument shows row = .ok doc) :
    NamesLive row doc ↔ ((∃ j ∈ joined store row.tld, j.live = true) →
      LedBy Joined.register (fun j => j.live = true ∨ j.price.sourceUrl = "") (joined store row.tld)) := by
  obtain ⟨tld, -, rfl⟩ := List.mem_map.mp among
  obtain ⟨listed, times, provenance⟩ := tldDocument_ok shows made
  generalize inGroup : joined store (tldRow tld (joined store tld)).tld = group
  obtain rfl : joined store tld = group := inGroup
  generalize joined store tld = group at listed provenance ⊢
  have published : doc.listed = true ↔ ∃ j ∈ group, j.live = true := by
    simp [listed, tldRow, List.length_pos_iff_exists_mem]
  by_cases some_live : ∃ j ∈ group, j.live = true
  · have kept : (group.insertionSort fun a b => a.register ≤ b.register) ≠ [] := by
      obtain ⟨j, mem, -⟩ := some_live
      exact List.ne_nil_of_mem ((List.mem_insertionSort _).mpr mem)
    obtain ⟨first, more, sorted⟩ := List.exists_cons_of_ne_nil kept
    have head : (group.insertionSort fun a b => a.register ≤ b.register).head? = some first := by rw [sorted]; rfl
    have leads : Leads Joined.register group first := Firsts.head_leads head
    have named : (tldRow tld group).cheapest = some first := head
    rw [imp_iff_right some_live, ← leads.quality_iff]
    unfold NamesLive
    rw [imp_iff_right (published.mpr some_live), provenance, provenanceOf, TldRow.sourceUrl, TldRow.registrar, named]
    by_cases empty : first.price.sourceUrl = ""
    · simp [empty]
    · simp only [Option.map_some, Option.bind_some, empty, if_false, or_false, List.mem_singleton, forall_eq,
        Option.some.injEq, exists_eq_left', true_and]
      exact ⟨fun holds => holds.1, fun live => ⟨live, (least_of_leads leads live).symm⟩⟩
  · exact ⟨fun _ live => absurd live some_live, fun _ here => absurd (published.mp here) some_live⟩

/-! ### Two registrars -/

/-- Dollars with two places, and times since 1970. -/
def plainShows : Shows where
  money price _ := "$" ++ toString price.floor ++ ".00"
  toISOString ms := if 0 ≤ ms then some (Dates.isoString ms.toNat) else none
  domainToUnicode name := name

def registrarRow (slug name : String) : Row :=
  Row.of [("slug", .str slug), ("name", .str name), ("homepage_url", .str "https://registrar.example/"),
    ("status", .str "active"), ("created_at", .num 1), ("updated_at", .num 1)]

def devPrice (providerId url : String) (register : Rat) (status : String) : TldPrice where
  register := some register
  renew := none
  transfer := none
  providerId
  tld := "dev"
  currency := "USD"
  origin := "sources"
  sourceKey := some "porkbun-tld-pricing"
  sourceItemId := .str "itm_2"
  sourceUrl := url
  checkedAt := 1767225600000
  firstSeenAt := 1767225600000
  lastSeenAt := 1767225600000
  status
  createdAt := 1767225600000
  updatedAt := 1767225600000

/-- Porkbun sells the ending at ten dollars; OVHcloud's price is the other one. -/
def registrars (other : Rat) (status : String) : Store where
  tables
    | .providers => ⟨[("prv_1", registrarRow "porkbun" "Porkbun"), ("prv_2", registrarRow "ovhcloud" "OVHcloud")], by decide⟩
    | .plans => Table.empty
    | .promos => Table.empty
  priceChanges := []
  tldPrices := ⟨[("tld_1", devPrice "prv_1" "https://porkbun.com/products/domains" 10 "active"),
    ("tld_2", devPrice "prv_2" "https://www.ovhcloud.com/en/domains/tld/" other status)], by simp⟩
  tldChanges := []

def devRow (other : Rat) (status : String) : TldRow := tldRow "dev" (joined (registrars other status) "dev")

theorem dearer_gone_unnamed : ∃ doc, tldDocument plainShows (devRow 12 "gone") = .ok doc ∧ NamesLive (devRow 12 "gone") doc := by
  have listed : devRow 12 "gone" ∈ tldRows (registrars 12 "gone") "" 100 :=
    List.mem_map.mpr ⟨"dev", by decide +kernel, rfl⟩
  have made : (tldDocument plainShows (devRow 12 "gone")).isOk = true := by decide +kernel
  obtain ⟨doc, made⟩ := exists_of_isOk made
  refine ⟨doc, made, (namesLive_iff plainShows (registrars 12 "gone") "" 100 _ doc listed made).mpr fun _ => ?_⟩
  refine ⟨[], ⟨_, _⟩, [⟨_, _⟩], rfl, .inl (by decide +kernel), by simp, fun b mem _ => ?_⟩
  rw [List.mem_singleton.mp mem]
  exact WithTop.coe_le_coe.mpr (by norm_num)

/-- Gone, but cheaper: the document states Porkbun's ten dollars and names OVHcloud. -/
theorem cheaper_gone_named : devRow 5 "gone" ∈ tldRows (registrars 5 "gone") "" 100 ∧
    (devRow 5 "gone").register = some 10 ∧
    ∃ doc, tldDocument plainShows (devRow 5 "gone") = .ok doc ∧ doc.listed = true ∧
      doc.provenance.map (fun p => (p.label, p.url)) =
        [("OVHcloud price list", "https://www.ovhcloud.com/en/domains/tld/")] ∧
      ¬ NamesLive (devRow 5 "gone") doc := by
  refine ⟨List.mem_map.mpr ⟨"dev", by decide +kernel, rfl⟩, by decide +kernel, ?_⟩
  obtain ⟨doc, made⟩ := exists_of_isOk
    (show (tldDocument plainShows (devRow 5 "gone")).isOk = true by decide +kernel)
  obtain ⟨listed, times, provenance⟩ := tldDocument_ok plainShows made
  have published : doc.listed = true := listed.trans (by decide +kernel)
  refine ⟨doc, made, published, ?_, fun names => ?_⟩
  · rw [provenance]
    rfl
  · obtain ⟨j, first, -, -, live, -⟩ := names published _ (by rw [provenance]; exact List.mem_singleton_self _)
    cases first
    exact absurd live (by decide +kernel)

end OpenVibeHost.Catalog.SearchIndex
