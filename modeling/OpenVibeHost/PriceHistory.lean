import OpenVibeHost.CatalogRuns
import OpenVibeHost.Histories

/-! The history of a plan's price. Staff saves and the feeds' items both rewrite a plan
and record the change under the time of its observation. A row with that time that is
there already keeps the new one out, and one observed earlier comes in before older
changes, so the history is a chain up to the current price in the runs where each
change is observed after every change recorded before it. -/
namespace OpenVibeHost.Catalog

open Histories (Linked)

/-! ### The revision of a price -/

namespace Revision

variable {r : Revision} {store : Store} {p : Rat} {c : PriceChange}

theorem Sound.write_price (sound : r.Sound) :
    (Column.fixed 12 4).write (r.value "price_monthly") =
      if storableFixed 12 4 r.price then some (.decimal (Decimals.rounded 4 r.price)) else none := by
  rcases sound.price with price | price
  · rw [price]; rfl
  · rw [price]; rfl

/-- The recorded change of a stored plan. -/
theorem Sound.change_ok (sound : r.Sound) (stored : r.row "price_monthly" = .decimal p)
    (exact : Decimals.Exact 4 p) (recorded : r.change = .ok c) :
    c = ⟨r.id, r.observedAt, r.currency, p, Decimals.rounded 4 r.price⟩ ∧ p ≠ Decimals.rounded 4 r.price := by
  unfold change Store.changeOf at recorded
  rw [sound.observedAt, sound.currency, stored, sound.write_price] at recorded
  simp only [Column.write, show Decimals.rounded 4 p = p from exact] at recorded
  split at recorded
  · rename_i time currency before after timed coded kept rounded
    simp only [Option.ite_none_right_eq_some, Option.some.injEq, Value.num.injEq, Value.str.injEq,
      Value.decimal.injEq] at timed coded kept rounded
    obtain ⟨-, rfl⟩ := timed
    obtain ⟨-, rfl⟩ := coded
    obtain ⟨-, rfl⟩ := kept
    obtain ⟨-, rfl⟩ := rounded
    split at recorded
    · cases recorded
    · rename_i differ
      exact ⟨(Except.ok.inj recorded).symm, differ⟩
  · cases recorded

/-- A plan that is not repriced keeps its price. -/
theorem Sound.price_of_not_moved (sound : r.Sound) (stored : r.row "price_monthly" = .decimal p)
    (still : r.moved = false) : r.price = p := by
  have same : numbersDiffer (r.row "price_monthly") (r.value "price_monthly") = false := by
    unfold moved repriced at still
    exact (Bool.or_eq_false_iff.mp still).1
  have equal : ¬ p ≠ r.price := by
    rcases sound.price with price | price
    · simpa [stored, price, numbersDiffer, Value.number] using same
    · simpa [stored, price, numbersDiffer, Value.number] using same
  exact (not_not.mp equal).symm

theorem Sound.price_written (sound : r.Sound) {new : Row}
    (row : written (column .plans) r.columns (required .plans) r.value r.row = .ok new) :
    new "price_monthly" = .decimal (Decimals.rounded 4 r.price) ∧ storableFixed 12 4 r.price := by
  have kept := (wrote row).column "price_monthly" (sound.columns _ (by simp))
  have type : column .plans "price_monthly" = .fixed 12 4 := by simp [column]
  rw [type, sound.write_price] at kept
  simp only [Option.ite_none_right_eq_some, Option.some.injEq] at kept
  exact ⟨kept.2.symm, kept.1⟩

/-- The row of the revision can be stored. -/
def Fits (r : Revision) (store : Store) : Prop := ∃ written, r.update store = .ok written

/-- Whether it can depends on the plans alone. -/
theorem Fits.of_plans {store' : Store} (fits : r.Fits store) (same : store'.plans = store.plans) :
    r.Fits store' := by
  obtain ⟨written, updated⟩ := fits
  obtain ⟨written', done, -⟩ := Store.update_same same updated
  exact ⟨written', done⟩

end Revision

/-! ### The chain -/

/-- A plan's price. -/
def priceOf (store : Store) (id : String) : Option Rat :=
  (store.plans.get id).bind fun row => row.number "price_monthly"

def changesOf (store : Store) (id : String) : List PriceChange :=
  store.priceChanges.filter fun c => c.planId = id

/-- Every plan's recorded changes, in the order of their observation, lead from one to the
next and to the plan's price. -/
def Chained (store : Store) : Prop :=
  ∀ id, Linked PriceChange.before PriceChange.after
    (Histories.ordered PriceChange.observedAt (changesOf store id)) (priceOf store id)

/-- A change of a plan's price is recorded. -/
def Recorded (store store' : Store) : Prop :=
  ∀ id p q, priceOf store id = some p → priceOf store' id = some q → p ≠ q →
    ∃ c, c.planId = id ∧ c.before = p ∧ c.after = q ∧ store'.priceChanges = store.priceChanges ++ [c]

/-- Where an action moves a plan's price, no recorded change of the plan was observed as
late, and outside a transaction the new row can be stored. -/
def Timely (rt : Runtime) (store : Store) (action : Action) : Prop :=
  ∀ r, action.Revises rt store r → priceOf store r.id ≠ some (Decimals.rounded 4 r.price) →
    (r.Fits store → ∀ c ∈ store.priceChanges, c.planId = r.id → c.observedAt < r.observedAt) ∧
    (action.atomic = true ∨ r.Fits store)

variable {rt : Runtime} {store store' : Store}

theorem priceOf_stored {id : String} {row : Row} {p : Rat} (there : store.plans.get id = some row)
    (stored : row "price_monthly" = .decimal p) : priceOf store id = some p := by
  simp [priceOf, there, Row.number, stored, Value.number]

theorem Beside.chained (beside : Beside store store') (chained : Chained store) : Chained store' := by
  intro id
  have same := chained id
  unfold changesOf priceOf at *
  rwa [beside.plans, beside.changes]

theorem Beside.recorded (beside : Beside store store') : Recorded store store' := by
  intro id p q before after differ
  unfold priceOf at before after
  rw [beside.plans, before] at after
  exact absurd (Option.some.inj after) differ

theorem Beside.then_recorded {last : Store} (beside : Beside store store') (recorded : Recorded store' last) :
    Recorded store last := by
  intro id p q before after differ
  rw [← beside.changes]
  refine recorded id p q ?_ after differ
  rw [← before]
  simp only [priceOf, beside.plans]

/-- A plan that is added has no history. -/
theorem chained_insert {id : String} {columns : List String} {value : String → Value}
    (chained : Chained store) (inserted : Store.insert .plans id columns value store = .ok store') :
    Chained store' ∧ Recorded store store' := by
  obtain ⟨row, table, -, -, -, -, added, rfl⟩ := Store.insert_ok inserted
  have others : ∀ other, other ≠ id → priceOf (store.withTable .plans table) other = priceOf store other := by
    intro other ne
    simp only [priceOf, Store.tables_withTable, Table.get_add_ne added ne]
  have absent : priceOf store id = none := by
    simp only [priceOf, Table.get_before_add added, Option.bind_none]
  constructor
  · intro other
    by_cases same : other = id
    · subst same
      have empty := Histories.linked_none (absent ▸ chained other)
      rw [changesOf, Store.priceChanges_withTable, ← changesOf, empty]
      trivial
    · rw [others other same]
      exact chained other
  · intro other p q before after differ
    by_cases same : other = id
    · subst same
      cases absent.symm.trans before
    · rw [others other same, before] at after
      exact absurd (Option.some.inj after) differ

theorem priceOf_set_ne {id other : String} {new : Row} (ne : other ≠ id) :
    priceOf (store.withTable .plans (store.plans.set id new)) other = priceOf store other := by
  simp only [priceOf, Store.tables_withTable, Table.get_set_ne ne]

/-- A row that keeps its plan's price keeps the chain. -/
theorem chained_set {id : String} {row new : Row} {p : Rat} (chained : Chained store)
    (there : store.plans.get id = some row) (stored : row "price_monthly" = .decimal p)
    (kept : new "price_monthly" = .decimal p) :
    Chained (store.withTable .plans (store.plans.set id new)) ∧
      Recorded store (store.withTable .plans (store.plans.set id new)) := by
  have same : ∀ other, priceOf (store.withTable .plans (store.plans.set id new)) other = priceOf store other := by
    intro other
    by_cases here : other = id
    · subst here
      rw [priceOf_stored there stored]
      exact priceOf_stored (by rw [Store.plans_withTable]; exact Table.get_set there) kept
    · exact priceOf_set_ne here
  constructor
  · intro other
    rw [same]
    exact chained other
  · intro other p q before after differ
    rw [same, before] at after
    exact absurd (Option.some.inj after) differ

/-- A change recorded later than the others of its plan keeps the chain. -/
theorem chained_record {id : String} {row new : Row} {p q : Rat} {c : PriceChange} (chained : Chained store)
    (there : store.plans.get id = some row) (stored : row "price_monthly" = .decimal p)
    (kept : new "price_monthly" = .decimal q) (ours : c.planId = id) (before : c.before = p)
    (after : c.after = q)
    (later : ∀ d ∈ store.priceChanges, d.planId = id → d.observedAt < c.observedAt) :
    let written := { store with priceChanges := store.priceChanges ++ [c] }.withTable .plans
      (store.plans.set id new)
    Chained written ∧ Recorded store written := by
  intro written
  have price : priceOf written id = some q :=
    priceOf_stored (by simp only [written, Store.plans_withTable]; exact Table.get_set there) kept
  have other_price : ∀ other, other ≠ id → priceOf written other = priceOf store other := fun other ne => by
    simp only [written, priceOf, Store.tables_withTable, Table.get_set_ne ne]
  constructor
  · intro other
    by_cases here : other = id
    · subst here
      have changes : changesOf written other = changesOf store other ++ [c] := by
        simp [written, changesOf, ours]
      rw [changes, price, ← after]
      refine Histories.linked_record (priceOf_stored there stored ▸ chained other) ?_ before
      intro d mem
      have recorded := List.mem_filter.mp mem
      exact later d recorded.1 (by simpa using recorded.2)
    · have changes : changesOf written other = changesOf store other := by
        have not_ours : ¬ c.planId = other := fun same => here (same.symm.trans ours)
        simp [written, changesOf, not_ours]
      rw [changes, other_price other here]
      exact chained other
  · intro other p' q' first second differ
    by_cases here : other = id
    · subst here
      rw [priceOf_stored there stored] at first
      rw [price] at second
      exact ⟨c, ours, before.trans (Option.some.inj first), after.trans (Option.some.inj second), rfl⟩
    · rw [other_price other here, first] at second
      exact absurd (Option.some.inj second) differ

/-- One action that is timely keeps every chain and records what it changes. -/
theorem run_chained {action : Action} (typed : store.Typed) (chained : Chained store)
    (timely : Timely rt store action) :
    Chained (action.run rt store) ∧ Recorded store (action.run rt store) := by
  rcases Action.run_cases rt store action with beside | ⟨r, store', ended, revises, beside, ends, done⟩ |
    ⟨store', id, columns, value, beside, inserted⟩
  · exact ⟨beside.chained chained, beside.recorded⟩
  · rw [done]
    have sound := revises.sound typed
    obtain ⟨p, stored, -, exact⟩ := (typed _ _ _ revises.stored).2.price
    have there : store'.plans.get r.id = some r.row := beside.plans ▸ revises.stored
    have chained' := beside.chained chained
    have price : priceOf store r.id = some p := priceOf_stored revises.stored stored
    -- What is recorded has another price, so the action is one that must be timely.
    have on_time {c : PriceChange} (recorded : r.change = .ok c) :=
      timely r revises (by
        rw [price]
        exact fun same => (sound.change_ok stored exact recorded).2 (Option.some.inj same))
    have goal : Chained (action.settled store ended) ∧ Recorded store' (action.settled store ended) ∨
        action.settled store ended = store := by
      cases ends with
      | refused moved refused =>
        cases atomic : action.atomic with
        | true => exact .inr (by simp [Action.settled, atomic])
        | false =>
          left
          simp only [Action.settled, atomic, Bool.false_eq_true, if_false]
          exact ⟨chained', (Beside.refl store').recorded⟩
      | @unwritten recorded fault kept failed =>
        cases atomic : action.atomic with
        | true => exact .inr (by simp [Action.settled, atomic])
        | false =>
          left
          simp only [Action.settled, atomic, Bool.false_eq_true, if_false]
          cases kept with
          | nothing still => exact ⟨chained', (Beside.refl store').recorded⟩
          | dropped moved change taken => exact ⟨chained', (Beside.refl store').recorded⟩
          | added moved change fresh =>
            have fits := ((on_time change).2.resolve_left (by simp [atomic])).of_plans beside.plans
            obtain ⟨written, updated⟩ := Revision.Fits.of_plans fits
              (show ({ store' with priceChanges := store'.priceChanges ++ [_] } : Store).plans = _ from rfl)
            cases failed.symm.trans updated
      | @written recorded new kept row updated =>
        left
        obtain ⟨price', -⟩ := sound.price_written row
        cases kept with
        | nothing still =>
          have same : Decimals.rounded 4 r.price = p := by
            rw [sound.price_of_not_moved stored still]
            exact exact
          exact chained_set chained' there stored (same ▸ price')
        | @dropped c moved change taken =>
          have fits : r.Fits store := Revision.Fits.of_plans ⟨_, updated⟩ beside.plans.symm
          obtain ⟨d, mem, same_plan, same_time⟩ := taken
          obtain ⟨rfl, -⟩ := sound.change_ok stored exact change
          have earlier := (on_time change).1 fits d (beside.changes ▸ mem) same_plan
          rw [same_time] at earlier
          exact absurd earlier (lt_irrefl _)
        | @added c moved change fresh =>
          have fits : r.Fits store := Revision.Fits.of_plans ⟨_, updated⟩ beside.plans.symm
          obtain ⟨rfl, -⟩ := sound.change_ok stored exact change
          refine chained_record chained' there stored price' rfl rfl rfl fun d mem ours => ?_
          exact (on_time change).1 fits d (beside.changes ▸ mem) ours
    rcases goal with ⟨kept, recorded⟩ | same
    · exact ⟨kept, beside.then_recorded recorded⟩
    · rw [same]
      exact ⟨chained, (Beside.refl store).recorded⟩
  · obtain ⟨kept, recorded⟩ := chained_insert (beside.chained chained) inserted
    exact ⟨kept, beside.then_recorded recorded⟩

/-- In every run of deliveries and saves that are timely, each plan's recorded changes form
a chain that ends in its price, and every change of a price is recorded. -/
theorem prices_chain_when_timely (rt : Runtime) (store : Store) (actions : List Action) (typed : store.Typed)
    (chained : Chained store)
    (timely : Transition.Along (fun store action => action.run rt store) (Timely rt) store actions) :
    Transition.Always (fun store action => action.run rt store) Chained store actions ∧
    Transition.Along (fun store action => action.run rt store)
      (fun store action => Recorded store (action.run rt store)) store actions := by
  have always : Transition.Always (fun store action => action.run rt store)
      (fun store => store.Typed ∧ Chained store) store actions := Transition.always_of_invariant
    (fun store action inv timely => ⟨action.run_typed rt inv.1, (run_chained inv.1 inv.2 timely).1⟩)
    actions ⟨typed, chained⟩ timely
  exact ⟨Transition.always_mono (fun _ inv => inv.2) actions always,
    Transition.along_of_always (fun _ _ inv timely => (run_chained inv.1 inv.2 timely).2) actions always timely⟩

/-! ### Changes that the table refuses -/

namespace Revision

variable {r : Revision} {p : Rat}

/-- A change of a row that can be stored is refused just where its two prices are kept as
the same. -/
theorem Sound.change_iff (sound : r.Sound) (stored : r.row "price_monthly" = .decimal p)
    (storable : storableFixed 12 4 p) (exact : Decimals.Exact 4 p)
    (there : store.plans.get r.id = some r.row) (fits : r.Fits store) :
    (∃ c, r.change = .ok c) ↔ p ≠ Decimals.rounded 4 r.price := by
  constructor
  · rintro ⟨c, recorded⟩
    exact (sound.change_ok stored exact recorded).2
  · intro differ
    obtain ⟨written, updated⟩ := fits
    obtain ⟨new, row, -, -⟩ := Store.update_ok there updated
    have time := (wrote row).column "checked_at" (sound.columns _ (by simp))
    have code := (wrote row).column "currency" (sound.columns _ (by simp))
    have price := (sound.price_written row).2
    simp only [column, sound.observedAt, sound.currency] at time code
    simp only [List.mem_cons, String.reduceEq, List.not_mem_nil, or_false, if_true, if_false,
      Column.write, Option.ite_none_right_eq_some] at time code
    refine ⟨⟨r.id, r.observedAt, r.currency, p, Decimals.rounded 4 r.price⟩, ?_⟩
    unfold change Store.changeOf
    rw [sound.observedAt, sound.currency, stored, sound.write_price, if_pos price]
    simp only [Column.write, time.1, code.1, storable, if_true, show Decimals.rounded 4 p = p from exact,
      if_neg differ, Rat.num_intCast]

/-- What a revision that moves the price comes to, where its row can be stored. -/
theorem apply_recorded (moved : r.moved = true) (there : store.plans.get r.id = some r.row)
    (fits : r.Fits store) : (∃ written, r.apply store = (written, .ok ())) ↔ ∃ c, r.change = .ok c := by
  have ends := apply_ends there
  generalize r.apply store = ended at ends
  cases ends with
  | refused moved refused => simp [refused]
  | unwritten kept failed =>
    obtain ⟨written, updated⟩ := fits.of_plans kept.plans
    cases failed.symm.trans updated
  | written kept row updated =>
    refine ⟨fun _ => ?_, fun _ => ⟨_, rfl⟩⟩
    cases kept with
    | nothing still => cases moved.symm.trans still
    | dropped moved change taken => exact ⟨_, change⟩
    | added moved change fresh => exact ⟨_, change⟩

end Revision

/-- Of a stored plan of price `p`, an item or a save that moves the price or the currency
has its change recorded, and succeeds, just where its price is kept as another than `p`: it
lies half of the fourth place from `p` at least. -/
theorem change_recorded_iff_apart (rt : Runtime) (store : Store) (action : Action) (r : Revision) (p : Rat)
    (typed : store.Typed) (known : action.Known rt store) (revises : action.Revises rt store r)
    (stored : r.row "price_monthly" = .decimal p) (moved : r.moved = true) (fits : r.Fits store) :
    (∃ c, r.change = .ok c) ∧ action.Succeeds rt store ↔
      (r.price < p - 1 / 20000 ∨ p + 1 / 20000 ≤ r.price) := by
  have sound := revises.sound typed
  have there := revises.stored
  obtain ⟨p', stored', storable, exact⟩ := (typed _ _ _ there).2.price
  obtain rfl : p' = p := Value.decimal.inj (stored'.symm.trans stored)
  have nonneg : 0 ≤ p' ∧ 0 ≤ r.price := by
    obtain ⟨written, updated⟩ := fits
    obtain ⟨new, row, -, -⟩ := Store.update_ok there updated
    have price := (sound.price_written row).2
    simp only [storableFixed, Bool.decide_and, Bool.and_eq_true, decide_eq_true_eq] at price storable
    exact ⟨storable.1, price.1⟩
  have apart : p' ≠ Decimals.rounded 4 r.price ↔ r.price < p' - 1 / 20000 ∨ p' + 1 / 20000 ≤ r.price := by
    rw [ne_comm, ne_eq, Decimals.rounded_eq_iff exact nonneg.2 nonneg.1, not_and_or, not_le, not_lt]
    norm_num
  rw [revises.succeeds_iff known, Revision.apply_recorded moved there fits, and_self,
    sound.change_iff stored storable exact there fits, apart]

/-! ### Two saves -/

/-- Doubles that are exact, and the currencies and dates of the runs below. -/
def exactRuntime : Runtime where
  floats := ⟨(· * ·), (· / ·)⟩
  numberText x := toString x.num
  parseDate
    | .str "2026-01-01T00:00:00Z" => some 1767225600000
    | .str "2026-01-02T00:00:00Z" => some 1767312000000
    | _ => none
  httpUrl url := "https://".toList.isPrefixOf url.toList
  currency code := code ∈ ["EUR", "USD"]
  domainToASCII := id

/-- A provider that staff keep, with one plan. -/
def staffStore : Store where
  tables
    | .providers => ⟨[("prv_1", Row.of [("slug", .str "acme"), ("name", .str "Acme"),
        ("homepage_url", .str "https://acme.example/"), ("status", .str "active"), ("created_at", .num 1),
        ("updated_at", .num 1)])], by decide⟩
    | .plans => ⟨[("pln_1", Row.of [("provider_id", .str "prv_1"), ("external_id", .str "small"),
        ("name", .str "Small"), ("kind", .str "vps"), ("currency", .str "USD"), ("price_monthly", .decimal 10),
        ("origin", .str "staff"), ("source_url", .str "https://acme.example/"), ("checked_at", .num 1),
        ("first_seen_at", .num 1), ("last_seen_at", .num 1), ("status", .str "active"),
        ("created_at", .num 1), ("updated_at", .num 1)])], by decide⟩
    | .promos => Table.empty
  priceChanges := []
  tldPrices := Table.empty
  tldChanges := []

/-- A save that gives a price and the time it was checked. -/
def priceSave (price : Rat) (checkedAt : Int) : Save where
  kind := .plans
  input := some [("price_monthly", .num price), ("checked_at", .num checkedAt)]
  id := some "pln_1"
  actor := "usr_1"
  now := 10
  newId := "pln_2"

theorem staffStore_typed : staffStore.Typed := by
  intro kind id row there
  have mem := Table.mem_of_get there
  cases kind with
  | providers =>
    obtain ⟨rfl, rfl⟩ := Prod.mk.inj (List.mem_singleton.mp mem)
    exact ⟨by decide, fits_of (by decide +kernel) (by decide +kernel) (by decide +kernel)⟩
  | plans =>
    obtain ⟨rfl, rfl⟩ := Prod.mk.inj (List.mem_singleton.mp mem)
    exact ⟨by decide, fits_of (by decide +kernel) (by decide +kernel) (by decide +kernel)⟩
  | promos => cases mem

theorem staffStore_chained : Chained staffStore := fun _ => trivial

theorem priceSave_observedAt {rt : Runtime} {store : Store} {row : Row} {v : String → Option Value} {id : String}
    {price : Rat} {checkedAt : Int} (edits : Edits rt (priceSave price checkedAt) store id row v) :
    ((priceSave price checkedAt).revision id row v).observedAt = checkedAt := by
  obtain ⟨given, input, -, -, rfl, -⟩ := clean_plan edits.cleaned
  cases input
  rfl

/-- A save observed after the recorded changes is timely. -/
theorem priceSave_timely {rt : Runtime} {store : Store} {price : Rat} {checkedAt : Int}
    (later : ∀ c ∈ store.priceChanges, c.observedAt < checkedAt) :
    Timely rt store (.save (priceSave price checkedAt)) := by
  rintro r ⟨id, row, v, edits, rfl⟩ -
  refine ⟨fun _ c mem _ => ?_, .inl rfl⟩
  rw [priceSave_observedAt edits]
  exact later c mem

theorem prices_chain_in_order :
    Transition.Always (fun store action => Action.run exactRuntime store action) Chained staffStore
      [.save (priceSave 12 5), .save (priceSave 15 7)] := by
  apply (prices_chain_when_timely exactRuntime staffStore _ staffStore_typed staffStore_chained ?_).1
  exact ⟨priceSave_timely (by decide), priceSave_timely (by decide +kernel), trivial⟩

/-- Of two changes with one time the second is dropped: the history ends in a price that is
not the plan's. -/
theorem second_change_dropped : staffStore.Typed ∧ Chained staffStore ∧
    ¬ Transition.Always (fun store action => Action.run exactRuntime store action) Chained staffStore
      [.save (priceSave 12 7), .save (priceSave 15 7)] := by
  refine ⟨staffStore_typed, staffStore_chained, fun always => ?_⟩
  have last := Transition.always_last _ always "pln_1"
  revert last
  decide +kernel

/-- The merged entry of a save of the one plan. -/
def entryOf (s : Save) (row : Row) : String → Option Value :=
  Function.update (merged (s.input.getD []) (some row)) "checked_at"
    (checkedAt (s.input.getD []) (some row) s.now)

/-- A save that passes every check rewrites the one plan. -/
theorem staffStore_edits {s : Save} {row : Row} (kind : s.kind = .plans) (entry : s.id = some "pln_1")
    (stored : staffStore.plans.get "pln_1" = some row) (allowed : editsSources s row = false)
    (cleaned : (clean exactRuntime .plans s.input (some row) s.now).isOk = true)
    (others : ((checkOthers s (entryOf s row)).alone staffStore).2.isOk = true) :
    Edits exactRuntime s staffStore "pln_1" row (entryOf s row) := by
  cases result : clean exactRuntime .plans s.input (some row) s.now with
  | error fault => simp [result, Except.isOk, Except.toBool] at cleaned
  | ok v =>
    obtain ⟨given, input, -, -, whole, -⟩ := clean_plan result
    have same : v = entryOf s row := by
      rw [whole, entryOf, input]
      rfl
    refine ⟨kind, entry, stored, allowed, result.trans (by rw [same]), ?_⟩
    have kept := checkOthers_alone s (entryOf s row) staffStore
    generalize (checkOthers s (entryOf s row)).alone staffStore = ended at kept others ⊢
    rcases ended with ⟨after, fault | _⟩
    · simp [Except.isOk, Except.toBool] at others
    · obtain rfl : after = staffStore := kept
      rfl

/-- A save that gives another currency alone. -/
def currencySave : Save where
  kind := .plans
  input := some [("currency", .str "EUR")]
  id := some "pln_1"
  actor := "usr_1"
  now := 10
  newId := "pln_2"

theorem exists_of_isOk {α : Type} {answer : Except Fault α} (ok : answer.isOk = true) :
    ∃ result, answer = .ok result := by
  cases answer with
  | ok result => exact ⟨result, rfl⟩
  | error fault => cases ok

theorem price_save_succeeds : (Action.save (priceSave 12 7)).Succeeds exactRuntime staffStore := by
  have edits := staffStore_edits (s := priceSave 12 7) rfl rfl rfl (by decide +kernel) (by decide +kernel)
    (by decide +kernel)
  refine ((change_recorded_iff_apart exactRuntime staffStore (.save (priceSave 12 7)) _ 10 staffStore_typed
    trivial ⟨_, _, _, edits, rfl⟩ rfl (by decide +kernel) (exists_of_isOk (by decide +kernel))).mpr
    (.inr ?_)).2
  decide +kernel

/-- A save that gives another currency is refused for the row of its history: its two
prices are the same. Without that row it would be stored. -/
theorem currency_save_refused :
    (clean exactRuntime .plans currencySave.input (staffStore.plans.get "pln_1") 10).isOk = true ∧
    ((save exactRuntime currencySave).alone staffStore).2.isOk = false ∧
    (Store.update .plans "pln_1" ["currency"] (fun _ => .str "EUR") staffStore).isOk = true ∧
    (Store.recordChange "pln_1" (.num 1) (.str "EUR") (.decimal 10) (.decimal 10) staffStore).isOk = false := by
  decide +kernel

end OpenVibeHost.Catalog
