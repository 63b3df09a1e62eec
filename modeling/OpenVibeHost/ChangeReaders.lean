import OpenVibeHost.Dates
import OpenVibeHost.PriceHistory
import OpenVibeHost.PriceTrends

/-! The readers of `catalog_price_changes`: a plan's history and its trend, and the biggest changes of the month
(server/catalog/store.js). A row holds a price before and a price after and one currency, that of the price after; in
which currency the price before was stated is kept here beside the table. -/
namespace OpenVibeHost.Catalog

open Answers (bind_ok)
open Doubles (Double)
open Trends (Cell Instant instant)

/-! ### What the driver hands over -/

/-- `Number` of a stored price. -/
def number (price : Rat) : Double := Doubles.ofRat price

/-- A stored price, where `finite` is asked for it. -/
def priceCell (price : Rat) : Cell Rat :=
  match number price with
  | .finite x => .value x
  | _ => .other

namespace Row

def time (row : Row) (k : String) : Cell Int :=
  match row k with
  | .num x => .value x.num
  | .null => .null
  | _ => .other

def price (row : Row) (k : String) : Cell Rat :=
  match row k with
  | .num x | .decimal x => priceCell x
  | .null => .null
  | _ => .other

def active (row : Row) : Bool := row "status" = .str "active"

/-- What `planTrend` reads of a plan. -/
def toTrend (row : Row) : Trends.Plan where
  currency := text row "currency"
  priceMonthly := price row "price_monthly"
  firstSeenAt := time row "first_seen_at"
  checkedAt := time row "checked_at"

end Row

/-- And of a change. -/
def PriceChange.toTrend (c : PriceChange) : Trends.Row where
  currency := some c.currency
  observedAt := .value c.observedAt
  before := priceCell c.before
  after := priceCell c.after

/-- The provider that a plan is joined with. -/
def providerRow (store : Store) (plan : Row) : Option Row :=
  (plan.text "provider_id").bind store.providers.get

def rangeError {α : Type} : Except Trends.Fault α → Except Fault α
  | .ok a => .ok a
  | .error .rangeError => .error (.thrown "Invalid time value")

/-- `new Date(Number(value)).toISOString()`. -/
def isoTime (value : Cell Int) : Except Fault Instant :=
  match value.finite with
  | some ms => rangeError (instant ms)
  | none => rangeError (.error .rangeError)

/-! ### A plan -/

/-- What `plan(id)` says of a plan's prices, each change with its time. -/
structure PlanPrices where
  checkedAt : Instant
  history : List (PriceChange × Instant)
  trend : Option Trends.Trend

/-- `SELECT * FROM catalog_price_changes WHERE plan_id = ? ORDER BY observed_at DESC`. -/
def newestFirst (store : Store) (id : String) : List PriceChange :=
  (changesOf store id).insertionSort fun c d => d.observedAt ≤ c.observedAt

/-- `plan`. -/
def planPrices (store : Store) (id : String) (now : Int) : Except Fault PlanPrices :=
  match store.plans.get id with
  | none => .error missing
  | some row =>
    if row.active && (providerRow store row).any Row.active then do
      let changes := newestFirst store id
      let checkedAt ← isoTime (row.time "checked_at")
      let history ← changes.mapM fun c => (isoTime (.value c.observedAt)).map fun time => (c, time)
      let trend ← rangeError (Trends.planTrend row.toTrend (changes.map (·.toTrend)) now)
      return { checkedAt, history, trend }
    else .error missing

/-! ### The biggest changes of the month -/

/-- What the platform and the locale make of texts. -/
structure Texts where
  domainToUnicode : String → String
  encodeURIComponent : String → String
  localeCompare : String → String → Int

inductive ChangeType where
  | plan
  | tld
  deriving DecidableEq

structure RecentChange where
  type : ChangeType
  kind : String
  name : String
  href : String
  before : Double
  after : Double
  currency : String
  time : Instant
  percent : Option Double

/-- `pct`. -/
def percentOf (before after : Double) : Option Double :=
  if Doubles.less (.finite 0) before then
    some (Doubles.div (Doubles.round (Doubles.mul (Doubles.div (Doubles.sub after before) before) (.finite 1000)))
      (.finite 10))
  else none

/-- `displayTld`. -/
def displayTld (texts : Texts) (tld : String) : String :=
  "." ++ ".".intercalate ((tld.splitOn ".").map fun label =>
    if "xn--".isPrefixOf label && texts.domainToUnicode label ≠ "" then texts.domainToUnicode label else label)

/-- The first moment of the month. -/
def monthBegins (now : Nat) : Int :=
  let d := Dates.fieldsOf now
  Dates.utc { year := d.year, month := d.month, day := 1, hour := 0, minute := 0, second := 0 }

/-- The changes of plans since then, with the plan and its provider, both active. -/
def planRows (store : Store) (start : Int) : List (PriceChange × Row × Row) :=
  store.priceChanges.filterMap fun c => do
    let plan ← store.plans.get c.planId
    let provider ← providerRow store plan
    if start ≤ c.observedAt && plan.active && provider.active then some (c, plan, provider) else none

/-- The changes of a registrar's prices since then. -/
def tldRows (store : Store) (start : Int) : List (Domains.TldChange × Domains.TldPrice × Row) :=
  store.tldChanges.filterMap fun h => do
    let price ← store.tldPrices.get h.priceId
    let provider ← store.providers.get price.providerId
    if start ≤ h.observedAt && price.status = "active" && provider.active && h.currency = "USD" then
      some (h, price, provider)
    else none

def planChange (texts : Texts) (c : PriceChange) (plan provider : Row) : Except Trends.Fault RecentChange := do
  return {
    type := .plan
    kind := "monthly price"
    name := (provider.text "name").getD "" ++ " " ++ (plan.text "name").getD ""
    href := "/catalog/plans/" ++ texts.encodeURIComponent c.planId
    before := number c.before
    after := number c.after
    currency := c.currency
    time := ← instant c.observedAt
    percent := percentOf (number c.before) (number c.after) }

/-- The prices of a registrar's change that moved. -/
def tldMoves (h : Domains.TldChange) : List (String × Double × Double) :=
  [("registration", h.before.register, h.after.register), ("renewal", h.before.renew, h.after.renew),
   ("transfer", h.before.transfer, h.after.transfer)].filterMap fun (kind, before, after) => do
    let before ← before
    let after ← after
    if number before = number after then none else some (kind, number before, number after)

def tldChanges (texts : Texts) (h : Domains.TldChange) (price : Domains.TldPrice) :
    Except Trends.Fault (List RecentChange) :=
  (tldMoves h).mapM fun (kind, before, after) => do
    return {
      type := .tld
      kind := kind
      name := displayTld texts price.tld
      href := "/catalog/domains/" ++ texts.encodeURIComponent price.tld
      before := before
      after := after
      currency := h.currency
      time := ← instant h.observedAt
      percent := percentOf before after }

def magnitude : Option Double → Double
  | some (.finite x) => .finite |x|
  | some (.infinite _) => .infinite false
  | some .nan => .nan
  | none => .finite 0

/-- The order of the rail: the comparator does not put the second first. -/
def ranked (texts : Texts) (a b : RecentChange) : Bool :=
  match Doubles.sub (magnitude b.percent) (magnitude a.percent) with
  | .finite 0 | .nan =>
    if a.time.ms = b.time.ms then texts.localeCompare a.name b.name ≤ 0 else b.time.ms < a.time.ms
  | .finite x => x < 0
  | .infinite negative => negative

/-- `recentChanges`. -/
def recentChanges (texts : Texts) (store : Store) (now limit : Nat) : Except Trends.Fault (List RecentChange) := do
  let start := monthBegins now
  let sameCurrency := (planRows store start).filter fun (c, plan, _) =>
    Trends.orNull (some c.currency) = Trends.orNull (plan.text "currency")
  let plans ← sameCurrency.mapM fun (c, plan, provider) => planChange texts c plan provider
  let tlds ← (tldRows store start).mapM fun (h, price, _) => tldChanges texts h price
  return ((plans ++ tlds.flatten).insertionSort fun a b => ranked texts a b).take limit

/-! ### The currency of the price before -/

/-- A change, with the currency that its plan had when it was recorded: the price before was
stated in that one. -/
structure Entry where
  change : PriceChange
  beforeIn : Option String
  deriving DecidableEq

/-- The catalog, with the entry of each change. -/
structure Ledger where
  store : Store
  entries : List Entry

def currencyOf (store : Store) (id : String) : Option String :=
  (store.plans.get id).bind fun row => row.text "currency"

/-- An action, the changes that it records noted with the currencies of their plans. -/
def Ledger.run (rt : Runtime) (ledger : Ledger) (action : Action) : Ledger where
  store := action.run rt ledger.store
  entries := ledger.entries ++ ((action.run rt ledger.store).priceChanges.drop ledger.store.priceChanges.length).map
    fun c => ⟨c, currencyOf ledger.store c.planId⟩

/-- Both prices were stated in the currency of the row. -/
def Entry.Same (e : Entry) : Prop := e.beforeIn = some e.change.currency

namespace Ledger

/-- A price of a plan was stated in a currency: by the plan as it is, or on its side of a
recorded change. -/
def Stated (ledger : Ledger) (id currency : String) (price : Rat) : Prop :=
  (∃ row, ledger.store.plans.get id = some row ∧ row "currency" = .str currency ∧ row "price_monthly" = .decimal price) ∨
  ∃ e ∈ ledger.entries, e.change.planId = id ∧
    (e.beforeIn = some currency ∧ e.change.before = price ∨ e.change.currency = currency ∧ e.change.after = price)

/-- A number shown under a currency is a price that was stated in it, rounded. -/
def Shown (ledger : Ledger) (id : String) (currency : Option String) (shown : Double) : Prop :=
  ∃ code price x, currency = some code ∧ ledger.Stated id code price ∧ number price = .finite x ∧
    shown = Trends.round4 (.finite x)

/-- The trend of a plan shows no price under a currency that it was not stated in. -/
def TrendKeeps (ledger : Ledger) : Prop :=
  ∀ id now prices t, planPrices ledger.store id now = .ok prices → prices.trend = some t →
    (∀ p ∈ t.points, ledger.Shown id t.currency p.price) ∧ ledger.Shown id t.currency t.low ∧
      ledger.Shown id t.currency t.high ∧ ledger.Shown id t.currency t.now

/-- The changes of a plan are shown with two prices that were stated in their currency. -/
def HistoryKeeps (ledger : Ledger) : Prop :=
  ∀ id now prices, planPrices ledger.store id now = .ok prices → ∀ h ∈ prices.history,
    ∃ e ∈ ledger.entries, e.change = h.1 ∧ e.Same

/-- And so are the biggest changes of the month. -/
def RecentKeeps (ledger : Ledger) : Prop :=
  ∀ texts now limit items, recentChanges texts ledger.store now limit = .ok items → ∀ i ∈ items, i.type = .plan →
    ∃ e ∈ ledger.entries, e.Same ∧ i.currency = e.change.currency ∧ i.before = number e.change.before ∧
      i.after = number e.change.after ∧ i.percent = percentOf i.before i.after

structure Keeps (ledger : Ledger) : Prop where
  trend : ledger.TrendKeeps
  history : ledger.HistoryKeeps
  recent : ledger.RecentKeeps

end Ledger

/-! ### What an action records -/

variable {rt : Runtime} {store : Store} {ledger : Ledger} {action : Action}

/-- An action records a change of the plan it revises, or none. -/
theorem run_changes (rt : Runtime) (store : Store) (action : Action) :
    (action.run rt store).priceChanges = store.priceChanges ∨
      ∃ r c, action.Revises rt store r ∧ r.change = .ok c ∧ ¬ store.taken c ∧
        (action.run rt store).priceChanges = store.priceChanges ++ [c] := by
  rcases Action.run_cases rt store action with beside | ⟨r, store', ended, revises, beside, ends, done⟩ |
    ⟨store', id, columns, value, beside, inserted⟩
  · exact .inl beside.changes
  · rw [done]
    have free {c : PriceChange} (fresh : ¬ store'.taken c) : ¬ store.taken c := by
      unfold Store.taken at *
      rwa [← beside.changes]
    have recorded {last : Store} (kept : r.Recorded store' last) :
        last.priceChanges = store.priceChanges ∨
          ∃ r c, action.Revises rt store r ∧ r.change = .ok c ∧ ¬ store.taken c ∧
            last.priceChanges = store.priceChanges ++ [c] := by
      cases kept with
      | nothing same => exact .inl beside.changes
      | dropped moved change taken => exact .inl beside.changes
      | @added c moved change fresh =>
        exact .inr ⟨r, c, revises, change, free fresh, congrArg (· ++ [c]) beside.changes⟩
    cases ends with
    | refused moved refused =>
      left
      simp only [Action.settled]
      split
      · rfl
      · exact beside.changes
    | unwritten kept failed =>
      simp only [Action.settled]
      split
      · exact .inl rfl
      · exact recorded kept
    | written kept row updated =>
      simp only [Action.settled, Store.priceChanges_withTable]
      exact recorded kept
  · left
    obtain ⟨row, table, -, -, -, -, -, made⟩ := Store.insert_ok inserted
    rw [made]
    exact beside.changes

/-- A change that an action records is recorded in the currency that its plan has. -/
def KeepsCurrency (rt : Runtime) (store : Store) (action : Action) : Prop :=
  ∀ r c, action.Revises rt store r → r.change = .ok c → ¬ store.taken c → r.row "currency" = .str r.currency

/-- The entries are those of the recorded changes, each in one currency. -/
structure Ledger.Sound (ledger : Ledger) : Prop where
  typed : ledger.store.Typed
  whole : ledger.entries.map (·.change) = ledger.store.priceChanges
  same : ∀ e ∈ ledger.entries, e.Same

theorem Ledger.Sound.run (sound : ledger.Sound) (kept : KeepsCurrency rt ledger.store action) :
    (ledger.run rt action).Sound := by
  refine ⟨action.run_typed rt sound.typed, ?_, ?_⟩
  · rcases run_changes rt ledger.store action with same | ⟨r, c, -, -, -, more⟩
    · simp [Ledger.run, same, sound.whole]
    · simp [Ledger.run, more, sound.whole]
  · intro e mem
    rcases List.mem_append.mp mem with old | new
    · exact sound.same e old
    · obtain ⟨c, recorded, rfl⟩ := List.mem_map.mp new
      rcases run_changes rt ledger.store action with same | ⟨r, c', revises, change, fresh, more⟩
      · rw [same, List.drop_length] at recorded
        cases recorded
      · rw [more, List.drop_left, List.mem_singleton] at recorded
        subst recorded
        obtain ⟨p, stored, -, exact⟩ := (sound.typed _ _ _ revises.stored).2.price
        obtain ⟨rfl, -⟩ := (revises.sound sound.typed).change_ok stored exact change
        simp [Entry.Same, currencyOf, revises.stored, Row.text, kept r _ revises change fresh]

/-! ### What the readers show -/

theorem planPrices_ok {id : String} {now : Int} {prices : PlanPrices} (made : planPrices store id now = .ok prices) :
    ∃ row, store.plans.get id = some row ∧ (∀ h ∈ prices.history, h.1 ∈ changesOf store id) ∧
      Trends.planTrend row.toTrend ((newestFirst store id).map (·.toTrend)) now = .ok prices.trend := by
  unfold planPrices at made
  split at made
  · cases made
  · rename_i row stored
    split at made
    · obtain ⟨checkedAt, -, made⟩ := bind_ok.mp made
      obtain ⟨history, dated, made⟩ := bind_ok.mp made
      obtain ⟨trend, isTrend, made⟩ := bind_ok.mp made
      cases made
      refine ⟨row, stored, fun h mem => ?_, ?_⟩
      · obtain ⟨c, listed, paired⟩ := Answers.mapM_ok dated mem
        obtain ⟨time, -, rfl⟩ := Answers.map_ok.mp paired
        exact (List.mem_insertionSort _).mp listed
      · cases result : Trends.planTrend row.toTrend ((newestFirst store id).map (·.toTrend)) now with
        | ok t =>
          rw [result] at isTrend
          exact congrArg _ (Except.ok.inj isTrend)
        | error fault =>
          rw [result] at isTrend
          cases isTrend
    · cases made

theorem priceCell_finite {price x : Rat} (finite : (priceCell price).finite = some x) : number price = .finite x := by
  unfold priceCell at finite
  split at finite
  · rename_i value same
    rw [same]
    exact congrArg _ (Option.some.inj finite)
  · cases finite

namespace Ledger

variable (sound : ledger.Sound)
include sound

theorem Sound.entry {c : PriceChange} (recorded : c ∈ ledger.store.priceChanges) :
    ∃ e ∈ ledger.entries, e.change = c ∧ e.Same := by
  obtain ⟨e, mem, same⟩ := List.mem_map.mp (sound.whole ▸ recorded)
  exact ⟨e, mem, same, sound.same e mem⟩

theorem Sound.historyKeeps : ledger.HistoryKeeps := by
  intro id now prices made h mem
  obtain ⟨row, -, listed, -⟩ := planPrices_ok made
  exact sound.entry (List.mem_filter.mp (listed h mem)).1

/-- A stored plan states its price in a currency. -/
theorem Sound.plan_states {id : String} {row : Row} (stored : ledger.store.plans.get id = some row) :
    ∃ code p, row "currency" = .str code ∧ code ≠ "" ∧ row "price_monthly" = .decimal p ∧ ledger.Stated id code p := by
  have fits := (sound.typed .plans id row stored).2
  obtain ⟨p, price, -⟩ := fits.price
  have checked := fits.checked
  simp only [Store.checked, Bool.and_eq_true] at checked
  have coded : Store.isCode (row "currency") = true := checked.1.1.1.1.1.2
  unfold Store.isCode at coded
  split at coded
  · rename_i code currency
    refine ⟨code, p, currency, ?_, price, .inl ⟨row, stored, currency, price⟩⟩
    rintro rfl
    simp at coded
  · cases coded

theorem Sound.trendKeeps : ledger.TrendKeeps := by
  intro id now prices t made isTrend
  obtain ⟨row, stored, -, trend⟩ := planPrices_ok made
  obtain ⟨code, p, currency, named, price, states⟩ := sound.plan_states stored
  obtain ⟨current, stated, within, shown⟩ := Trends.planTrend_within (isTrend ▸ trend)
  have inCurrency : t.currency = some code := by
    rw [shown]
    simp [Row.toTrend, Row.text, currency, Trends.orNull, named]
  have each {x : Double} (among : Trends.Among (Trends.planPoints row.toTrend current
      ((newestFirst ledger.store id).map (·.toTrend)) now) x) : ledger.Shown id t.currency x := by
    obtain ⟨m, inside, rounded⟩ := among
    rcases Trends.mem_planPoints inside with isCurrent | ⟨_, listed, same, side⟩
    · have cell : (priceCell p).finite = some current := by simpa [Row.toTrend, Row.price, price] using stated
      exact ⟨code, p, m.price, inCurrency, states, isCurrent ▸ priceCell_finite cell, rounded⟩
    · obtain ⟨c, mem, rfl⟩ := List.mem_map.mp listed
      have recorded := List.mem_filter.mp ((List.mem_insertionSort _).mp mem)
      have ours : c.planId = id := by simpa using recorded.2
      have coded : c.currency = code := by
        simp only [PriceChange.toTrend, Row.toTrend, Row.text, currency, Trends.orNull] at same
        have whole : (some code).filter (· ≠ "") = some code := Option.filter_eq_some_iff.mpr ⟨rfl, by simpa using named⟩
        exact Option.some.inj (Option.filter_eq_some_iff.mp (same.trans whole)).1
      obtain ⟨e, among, rfl, stays⟩ := sound.entry recorded.1
      rcases side with before | after
      · exact ⟨code, e.change.before, m.price, inCurrency,
          .inr ⟨e, among, ours, .inl ⟨stays.trans (congrArg some coded), rfl⟩⟩, priceCell_finite before, rounded⟩
      · exact ⟨code, e.change.after, m.price, inCurrency, .inr ⟨e, among, ours, .inr ⟨coded, rfl⟩⟩,
          priceCell_finite after, rounded⟩
  exact ⟨fun p' among => each (within.points p' among), each within.low, each within.high, each within.now⟩

theorem Sound.recentKeeps : ledger.RecentKeeps := by
  intro texts now limit items made i mem type
  obtain ⟨plans, plan_items, made⟩ := bind_ok.mp made
  obtain ⟨tlds, tld_items, made⟩ := bind_ok.mp made
  cases made
  rcases List.mem_append.mp ((List.mem_insertionSort _).mp (List.mem_of_mem_take mem)) with plan | tld
  · obtain ⟨⟨c, row, provider⟩, kept, item⟩ := Answers.mapM_ok plan_items plan
    obtain ⟨time, -, item⟩ := bind_ok.mp item
    cases item
    obtain ⟨c', recorded, joined⟩ := List.mem_filterMap.mp (List.mem_filter.mp kept).1
    obtain ⟨row', -, joined⟩ := Option.bind_eq_some_iff.mp joined
    obtain ⟨provider', -, joined⟩ := Option.bind_eq_some_iff.mp joined
    rw [Option.ite_none_right_eq_some] at joined
    obtain ⟨-, same⟩ := joined
    obtain ⟨rfl, -⟩ := Prod.mk.inj (Option.some.inj same)
    obtain ⟨e, among, rfl, stays⟩ := sound.entry recorded
    exact ⟨e, among, stays, rfl, rfl, rfl, rfl⟩
  · obtain ⟨changes, among, inside⟩ := List.mem_flatten.mp tld
    obtain ⟨⟨h, price, provider⟩, -, listed⟩ := Answers.mapM_ok tld_items among
    obtain ⟨⟨kind, before, after⟩, -, item⟩ := Answers.mapM_ok listed inside
    obtain ⟨time, -, item⟩ := bind_ok.mp item
    cases item
    cases type

theorem Sound.keeps : ledger.Keeps := ⟨sound.trendKeeps, sound.historyKeeps, sound.recentKeeps⟩

end Ledger

theorem sound_of_run (actions : List Action) (sound : ledger.Sound)
    (kept : Transition.Along (fun store action => action.run rt store) (KeepsCurrency rt) ledger.store actions) :
    Transition.Always (fun ledger action => ledger.run rt action) Ledger.Sound ledger actions := by
  induction actions generalizing ledger with
  | nil => exact sound
  | cons action rest ih => exact ⟨sound, ih (sound.run kept.1) kept.2⟩

/-- In every run of deliveries and saves that record each change in the currency its plan
has, no reader shows a price under a currency that it was not stated in. -/
theorem currencies_kept (rt : Runtime) (store : Store) (actions : List Action) (typed : store.Typed)
    (unchanged : store.priceChanges = [])
    (kept : Transition.Along (fun store action => action.run rt store) (KeepsCurrency rt) store actions) :
    Transition.Always (fun ledger action => ledger.run rt action) Ledger.Keeps ⟨store, []⟩ actions := by
  have start : Ledger.Sound ⟨store, []⟩ := ⟨typed, unchanged.symm, by simp⟩
  exact Transition.always_mono (fun _ sound => sound.keeps) actions (sound_of_run actions start kept)

/-- A save that gives a price keeps the currency. -/
theorem priceSave_keeps (rt : Runtime) (store : Store) (price : Rat) (checkedAt : Int) (typed : store.Typed) :
    KeepsCurrency rt store (.save (priceSave price checkedAt)) := by
  intro r c revises _ _
  have coded := (revises.sound typed).currency
  obtain ⟨id, row, v, edits, rfl⟩ := revises
  obtain ⟨given, input, -, -, rfl, -⟩ := clean_plan edits.cleaned
  cases input
  exact coded

theorem prices_keep_currency :
    Transition.Always (fun ledger action => ledger.run exactRuntime action) Ledger.Keeps ⟨staffStore, []⟩
      [.save (priceSave 12 5), .save (priceSave 15 7)] := by
  refine currencies_kept exactRuntime staffStore _ staffStore_typed rfl
    ⟨priceSave_keeps _ _ 12 5 staffStore_typed, priceSave_keeps _ _ 15 7 ?_, trivial⟩
  exact Action.run_typed exactRuntime _ staffStore_typed

/-- A save that states the plan's price in euros, on 2026-01-01. -/
def euroSave : Save where
  kind := .plans
  input := some [("currency", .str "EUR"), ("price_monthly", .num 12), ("checked_at", .num 1767225600000)]
  id := some "pln_1"
  actor := "usr_1"
  now := 1767225600000
  newId := "pln_2"

def euroLedger : Ledger := Ledger.run exactRuntime ⟨staffStore, []⟩ (.save euroSave)

/-- The ten dollars of before are the first point of a trend in euros, and a change of the
month is shown in euros from them. -/
theorem dollars_as_euros : ¬ euroLedger.TrendKeeps ∧ ¬ euroLedger.RecentKeeps := by
  have entries : euroLedger.entries = [⟨⟨"pln_1", 1767225600000, "EUR", 10, 12⟩, some "USD"⟩] := by decide +kernel
  have now_euros : (euroLedger.store.plans.get "pln_1").map (fun row => (row "currency", row "price_monthly")) =
      some (.str "EUR", .decimal 12) := by decide +kernel
  constructor
  · intro keeps
    have first : (match planPrices euroLedger.store "pln_1" 1767312000000 with
        | .ok prices => prices.trend.bind fun t => t.points.head?.map fun p => (p.price, t.currency)
        | .error _ => none) = some (.finite 10, some "EUR") := by decide +kernel
    split at first
    · rename_i prices made
      obtain ⟨t, isTrend, shows⟩ := Option.bind_eq_some_iff.mp first
      obtain ⟨p, isFirst, shown⟩ := Option.map_eq_some_iff.mp shows
      obtain ⟨ten, euros⟩ := Prod.mk.inj shown
      obtain ⟨code, price, x, inCurrency, states, value, rounded⟩ :=
        (keeps "pln_1" _ prices t made isTrend).1 p (List.mem_of_head? isFirst)
      rw [euros] at inCurrency
      obtain rfl := Option.some.inj inCurrency
      -- The only price in euros is twelve.
      have twelve : price = 12 := by
        rcases states with ⟨row, stored, -, priced⟩ | ⟨e, mem, -, side⟩
        · rw [stored] at now_euros
          have decimal := (Prod.mk.inj (Option.some.inj now_euros)).2
          exact Value.decimal.inj (priced.symm.trans decimal)
        · rw [entries, List.mem_singleton] at mem
          subst mem
          rcases side with ⟨dollars, -⟩ | ⟨-, after⟩
          · exact absurd dollars (by decide)
          · exact after.symm
      subst twelve
      have shownTwelve : number 12 = .finite 12 ∧ Trends.round4 (.finite 12) = .finite 12 := by decide +kernel
      rw [shownTwelve.1] at value
      rw [← Double.finite.inj value, shownTwelve.2, ten] at rounded
      exact absurd rounded (by decide +kernel)
    · cases first
  · intro keeps
    have listed : (match recentChanges ⟨id, id, fun _ _ => 0⟩ euroLedger.store 1767312000000 8 with
        | .ok items => items.any fun i => i.type = .plan
        | .error _ => false) = true := by decide +kernel
    split at listed
    · rename_i items made
      obtain ⟨i, mem, type⟩ := List.any_eq_true.mp listed
      obtain ⟨e, among, same, -⟩ := keeps _ _ _ items made i mem (of_decide_eq_true type)
      rw [entries, List.mem_singleton] at among
      subst among
      exact absurd (Option.some.inj same) (by decide)
    · cases listed

theorem euroSave_mislabels : staffStore.Typed ∧ staffStore.priceChanges = [] ∧
    ¬ Transition.Always (fun ledger action => ledger.run exactRuntime action) Ledger.Keeps ⟨staffStore, []⟩
      [.save euroSave] :=
  ⟨staffStore_typed, rfl, fun always => dollars_as_euros.1 always.2.trend⟩

end OpenVibeHost.Catalog
