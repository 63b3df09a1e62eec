import OpenVibeHost.PriceHistory

/-! An item applied again. The first application leaves the item's values in the row, as
the columns keep them; the second compares them with the item's own, so it is without
effect where the columns keep the item's prices as they are. -/
namespace OpenVibeHost.Catalog

open Answers (bind_ok)

/-! ### What an applied item leaves -/

/-- The row states what an item says. -/
structure States (v : Mapping.Mapped) (row : Row) : Prop where
  columns : ∀ k ∈ itemColumns, (column .plans k).write (v.value k) = some (row k)
  seen : (column .plans "last_seen_at").write (.num v.checkedAt) = some (row "last_seen_at")
  origin : row "origin" = .str "sources"
  checked : Store.checked .plans row = true

theorem providerOf_found {source : Mapping.Source} {d : Delivery} {store store' : Store} {id : String}
    (done : (providerOf source d).alone store = (store', .ok id)) :
    ∃ row, store'.providers.find (· "slug" = .str source.slug) = some (id, row) := by
  unfold providerOf at done
  rw [Session.alone_select] at done
  cases found : store.providers.find (· "slug" = .str source.slug) with
  | some entry =>
    simp only [found, Session.pure_eq, Session.alone_ret, Prod.mk.injEq, Except.ok.injEq] at done
    obtain ⟨rfl, rfl⟩ := done
    exact ⟨entry.2, found⟩
  | none =>
    simp only [found] at done
    rw [Session.alone_execute] at done
    split at done
    · rename_i written inserted
      simp only [Session.pure_eq, Session.alone_ret, Prod.mk.injEq, Except.ok.injEq] at done
      obtain ⟨rfl, rfl⟩ := done
      obtain ⟨row, table, -, new_row, -, -, added, rfl⟩ := Store.insert_ok inserted
      refine ⟨row, ?_⟩
      have slug := (write_text ((wrote new_row).column "slug" (by simp))).2
      rw [Store.providers_withTable]
      exact Table.find_add added found (by simpa using slug)
    · cases done

theorem itemColumns_present (v : Mapping.Mapped) : ∀ k ∈ itemColumns, k ∈ required .plans → v.value k ≠ .null := by
  intro k mem needed
  simp only [itemColumns, List.mem_cons, List.not_mem_nil, or_false] at mem
  rcases mem with rfl | rfl | rfl | rfl | rfl | rfl | rfl | rfl | rfl | rfl | rfl | rfl | rfl | rfl | rfl |
    rfl | rfl | rfl | rfl | rfl | rfl <;> simp [required, Mapping.Mapped.value] at needed ⊢

/-- The stamps of a new row are none of an item's columns. -/
theorem value_of_stamped {v : Mapping.Mapped} {stamps : List (String × Value)} {k : String} (mem : k ∈ itemColumns)
    (apart : ∀ entry ∈ stamps, entry.1 ∉ itemColumns) : (stamps.lookup k).getD (v.value k) = v.value k := by
  have none : stamps.lookup k = none := by
    rw [List.lookup_eq_none_iff]
    intro entry there
    simp only [bne_iff_ne, ne_eq]
    rintro rfl
    exact apart entry there mem
  rw [none]
  rfl

theorem Mapping.Mapped.revision_value (v : Mapping.Mapped) (now : Int) (id : String) (row : Row) {k : String}
    (mem : k ∈ itemColumns) : (v.revision now id row).value k = v.value k :=
  value_of_stamped mem (by simp [itemColumns])

theorem time_write {time : Int} (clock : time.natAbs ≤ 8640000000000000) :
    Column.bigint.write (.num time) = some (.num time) := by
  simp [Column.write, storable_time clock]

/-- The time of an item that its column takes. -/
theorem Mapping.Mapped.checkedAt_write {v : Mapping.Mapped}
    (columns : ∀ k ∈ itemColumns, ((column .plans k).write (v.value k)).isSome) :
    Column.bigint.write (.num v.checkedAt) = some (.num v.checkedAt) := by
  have kept := columns "checked_at" (by decide)
  have type : column .plans "checked_at" = .bigint := by simp [column]
  rw [type] at kept
  obtain ⟨held, whole⟩ := Option.isSome_iff_exists.mp kept
  exact whole.trans (congrArg some (write_bigint whole).2)

/-- A plan is rewritten by an item whose values its columns take. -/
theorem Mapping.Mapped.revision_written (v : Mapping.Mapped)
    (columns : ∀ k ∈ itemColumns, ((column .plans k).write (v.value k)).isSome) (now : Int)
    (clock : now.natAbs ≤ 8640000000000000) (id : String) (row : Row) :
    ∃ new, written (column .plans) (v.revision now id row).columns (required .plans)
      (v.revision now id row).value row = .ok new := by
  have seen : (v.revision now id row).value "last_seen_at" = .num v.checkedAt := rfl
  have updated : (v.revision now id row).value "updated_at" = .num now := rfl
  apply written_of
  · intro k mem
    rcases List.mem_append.mp mem with item | other
    · rw [v.revision_value now id row item]
      exact columns k item
    · simp only [List.mem_cons, List.not_mem_nil, or_false] at other
      rcases other with rfl | rfl
      · simp [seen, column, v.checkedAt_write columns]
      · simp [updated, column, time_write clock]
  · intro k mem needed
    rcases List.mem_append.mp mem with item | other
    · rw [v.revision_value now id row item]
      exact itemColumns_present v k item needed
    · simp only [List.mem_cons, List.not_mem_nil, or_false] at other
      rcases other with rfl | rfl
      · exact seen ▸ Value.noConfusion
      · exact updated ▸ Value.noConfusion

/-- A plan that an item adds states the item. -/
theorem firstSeen_states {v : Mapping.Mapped} {d : Delivery} {providerId : String} {store store' : Store}
    (done : (firstSeen v d providerId).alone store = (store', .ok .applied))
    (absent : planOf store providerId v.externalId = none) :
    ∃ id row, planOf store' providerId v.externalId = some (id, row) ∧ States v row ∧
      store'.providers = store.providers := by
  unfold firstSeen at done
  dsimp only at done
  rw [Session.alone_execute] at done
  split at done
  · rename_i written inserted
    simp only [Session.pure_eq, Session.alone_ret, Prod.mk.injEq, and_true] at done
    subst done
    obtain ⟨row, table, -, new_row, -, checked, added, rfl⟩ := Store.insert_ok inserted
    have columns := (wrote new_row).column
    have provider := (write_text (columns "provider_id" (by simp))).2
    have external := (write_text (columns "external_id" (by simp))).2
    refine ⟨d.rowId, row, ?_, ⟨fun k mem => ?_, columns "last_seen_at" (by simp), ?_, checked⟩,
      Store.tables_withTable_ne (by decide) table⟩
    · unfold planOf at absent ⊢
      rw [Store.plans_withTable]
      exact Table.find_add added absent (by simp [provider, external])
    · have kept := columns k (List.mem_append_left _ mem)
      rwa [value_of_stamped mem (by simp [itemColumns])] at kept
    · exact (write_text (columns "origin" (by simp))).2
  · cases done

/-- A plan that an item rewrites states the item. -/
theorem restated_states {v : Mapping.Mapped} {now : Int} {id providerId : String} {row : Row}
    {store store' : Store} (stored : planOf store providerId v.externalId = some (id, row))
    (sources : row "origin" = .str "sources")
    (done : (v.revision now id row).apply store = (store', .ok ())) :
    ∃ new, planOf store' providerId v.externalId = some (id, new) ∧ States v new ∧
      store'.providers = store.providers := by
  obtain ⟨there, wanted⟩ := Table.get_of_find stored
  have ends := (v.revision now id row).apply_ends there
  rw [done] at ends
  cases ends with
  | @written recorded new kept new_row updated =>
    have columns := (wrote new_row).column
    have others := (wrote new_row).other
    have provider : new "provider_id" = row "provider_id" := others _ (by simp [Mapping.Mapped.revision, itemColumns])
    have external : new "external_id" = row "external_id" := others _ (by simp [Mapping.Mapped.revision, itemColumns])
    have origin : new "origin" = row "origin" := others _ (by simp [Mapping.Mapped.revision, itemColumns])
    obtain ⟨new', made, checked, -⟩ := Store.update_ok (kept.plans ▸ there) updated
    obtain rfl : new' = new := Except.ok.inj (made.symm.trans new_row)
    refine ⟨new', ?_, ⟨fun k mem => ?_, columns "last_seen_at" (by simp [Mapping.Mapped.revision]),
      origin.trans sources, checked⟩, ?_⟩
    · unfold planOf at stored ⊢
      rw [Store.plans_withTable]
      exact Table.find_set stored (by simpa [provider, external] using wanted)
    · have written := columns k (List.mem_append_left _ mem)
      have value : (v.revision now id row).value k = v.value k := value_of_stamped mem (by simp [itemColumns])
      rwa [value] at written
    · have kept_providers : recorded.providers = store.providers := by cases kept <;> rfl
      exact (Store.tables_withTable_ne (by decide) _).trans kept_providers

/-- After a plan's item was applied, its plan is there and states it. -/
theorem applyPlan_states {v : Mapping.Mapped} {d : Delivery} {store store' : Store}
    (done : (applyPlan v d).alone store = (store', .ok .applied)) :
    ∃ providerId provider id row,
      store'.providers.find (· "slug" = .str v.provider.slug) = some (providerId, provider) ∧
      planOf store' providerId v.externalId = some (id, row) ∧ States v row := by
  unfold applyPlan at done
  rw [Session.alone_bind] at done
  cases first : (providerOf v.provider d).alone store with
  | mk known answer =>
    rw [first] at done
    cases answer with
    | error fault => cases done
    | ok providerId =>
      obtain ⟨provider, found⟩ := providerOf_found first
      dsimp only at done
      rw [Session.alone_select] at done
      cases stored : planOf known providerId v.externalId with
      | none =>
        rw [stored] at done
        obtain ⟨id, row, there, states, providers⟩ := firstSeen_states done stored
        exact ⟨providerId, provider, id, row, providers ▸ found, there, states⟩
      | some entry =>
        obtain ⟨id, row⟩ := entry
        rw [stored] at done
        dsimp only at done
        by_cases held : row "origin" ≠ .str "sources" ∨ older v.checkedAt row = true
        · unfold reprice at done
          rw [if_pos held] at done
          cases done
        · rw [not_or, not_not, Bool.not_eq_true] at held
          rw [reprice_alone held.1 held.2] at done
          cases ended : (v.revision d.now id row).apply known with
          | mk written answer =>
            rw [ended] at done
            cases answer with
            | error fault => cases done
            | ok _ =>
              cases done
              obtain ⟨new, there, states, providers⟩ := restated_states stored held.1 ended
              exact ⟨providerId, provider, id, new, providers ▸ found, there, states⟩

/-! ### The second application of a plan's item -/

namespace States

variable {v : Mapping.Mapped} {row : Row} (states : States v row)
include states

theorem price : row "price_monthly" = .decimal (Decimals.rounded 4 v.priceMonthly) ∧
    storableFixed 12 4 v.priceMonthly := by
  have kept := states.columns "price_monthly" (by decide)
  have type : column .plans "price_monthly" = .fixed 12 4 := by simp [column]
  rw [type] at kept
  exact (write_fixed kept).symm

theorem currency : row "currency" = .str v.currency := by
  have kept := states.columns "currency" (by decide)
  have type : column .plans "currency" = .text := by simp [column]
  rw [type] at kept
  exact (write_text kept).2

theorem checkedAt : row "checked_at" = .num v.checkedAt := by
  have kept := states.columns "checked_at" (by decide)
  have type : column .plans "checked_at" = .bigint := by simp [column]
  rw [type] at kept
  exact (write_bigint kept).2

theorem newer : older v.checkedAt row = false := by
  simp [older, states.checkedAt, Value.number]

/-- The row that states an item is repriced by it just where its price was rounded. -/
theorem moved_iff (now : Int) (id : String) :
    (v.revision now id row).moved = false ↔ Decimals.Exact 4 v.priceMonthly := by
  have moved : (v.revision now id row).moved = repriced row (.num v.priceMonthly) (.str v.currency) := rfl
  rw [moved, repriced, states.currency, states.price.1]
  simp [numbersDiffer, Value.number, Decimals.Exact]

/-- Rewritten by the item, it changes in the time of the update alone. -/
theorem again (now : Int) (clock : now.natAbs ≤ 8640000000000000) (id : String) :
    ∃ new, written (column .plans) (v.revision now id row).columns (required .plans)
        (v.revision now id row).value row = .ok new ∧ ∀ k, k ≠ "updated_at" → new k = row k := by
  obtain ⟨new, made⟩ := v.revision_written (fun k mem => by rw [states.columns k mem]; rfl) now clock id row
  refine ⟨new, made, fun k ne => ?_⟩
  by_cases mem : k ∈ (v.revision now id row).columns
  · have kept := (wrote made).column k mem
    rcases List.mem_append.mp mem with item | other
    · rw [v.revision_value now id row item, states.columns k item] at kept
      exact (Option.some.inj kept).symm
    · simp only [List.mem_cons, List.not_mem_nil, or_false] at other
      rcases other with rfl | rfl
      · rw [show (v.revision now id row).value "last_seen_at" = .num v.checkedAt from rfl, states.seen] at kept
        exact (Option.some.inj kept).symm
      · exact absurd rfl ne
  · exact (wrote made).other k mem

end States

/-- A row without the time it was last updated. -/
def Row.unstamped (row : Row) : Row := Function.update row "updated_at" .null

def Domains.TldPrice.unstamped (price : Domains.TldPrice) : Domains.TldPrice := { price with updatedAt := 0 }

/-- Every stored column but `updated_at` is as it was, and no change of a price was added. -/
structure Restamped (store store' : Store) : Prop where
  rows : ∀ kind id, ((store'.tables kind).get id).map Row.unstamped =
    ((store.tables kind).get id).map Row.unstamped
  changes : store'.priceChanges = store.priceChanges
  tldPrices : ∀ id, (store'.tldPrices.get id).map Domains.TldPrice.unstamped =
    (store.tldPrices.get id).map Domains.TldPrice.unstamped
  tldChanges : store'.tldChanges = store.tldChanges

theorem Row.unstamped_eq {row new : Row} (same : ∀ k, k ≠ "updated_at" → new k = row k) :
    new.unstamped = row.unstamped := by
  funext k
  by_cases stamp : k = "updated_at"
  · simp [Row.unstamped, stamp]
  · simp [Row.unstamped, stamp, same k stamp]

theorem restamped_set {store : Store} {id : String} {row new : Row} (there : store.plans.get id = some row)
    (same : ∀ k, k ≠ "updated_at" → new k = row k) :
    Restamped store (store.withTable .plans (store.plans.set id new)) := by
  refine ⟨fun kind key => ?_, rfl, fun _ => rfl, rfl⟩
  by_cases plans : kind = .plans
  · subst plans
    rw [Store.tables_withTable]
    by_cases here : key = id
    · subst here
      rw [Table.get_set there, there]
      simp [Row.unstamped_eq same]
    · rw [Table.get_set_ne here]
  · rw [Store.tables_withTable_ne plans]

/-- Applied a second time, a plan's item changes nothing just where its price has four
places at most. -/
theorem plan_again_iff {rt : Runtime} {d d' : Delivery} {v : Mapping.Mapped} {store store' : Store}
    (feed : (Domains.sources.lookup (Mapping.textOr (Mapping.get d.item "source_key"))).isSome = false)
    (kept : (Mapping.get d.item "removed").truthy = false)
    (mapped : Mapping.mapItem rt d.item = .ok (some v)) (same : d'.item = d.item)
    (done : (applyItem rt d).alone store = (store', .ok .applied)) :
    (∃ again, (applyItem rt d').alone store' = (again, .ok .applied) ∧ Restamped store' again) ↔
      Decimals.Exact 4 v.priceMonthly := by
  have first : applyItem rt d = applyPlan v d := by
    unfold applyItem
    dsimp only
    rw [if_neg (Bool.not_eq_true _ ▸ feed), if_neg (Bool.not_eq_true _ ▸ kept), mapped, Session.ofExcept_ok,
      Session.ret_bind]
  rw [first] at done
  obtain ⟨providerId, provider, id, row, found, stored, states⟩ := applyPlan_states done
  have restates : Restates rt store' d' v id row := by
    refine ⟨same ▸ feed, same ▸ kept, same ▸ mapped, ?_, states.origin, states.newer⟩
    unfold providerIdOf
    rw [found]
    exact stored
  have there := (Table.get_of_find stored).1
  rw [restates.alone (by rw [found]; rfl), ← states.moved_iff d'.now id]
  constructor
  · rintro ⟨again, result, -⟩
    have ends := (v.revision d'.now id row).apply_ends there
    generalize (v.revision d'.now id row).apply store' = ended at ends result
    cases ends with
    | refused moved refused => cases result
    | unwritten kept failed => cases result
    | written recorded new_row updated =>
      -- A change between one price and itself is refused.
      have never {c : PriceChange} (change : (v.revision d'.now id row).change = .ok c) : False := by
        have nonneg : 0 ≤ v.priceMonthly := by
          have storable := states.price.2
          simp only [storableFixed, Bool.decide_and, Bool.and_eq_true, decide_eq_true_eq] at storable
          exact storable.1
        exact ((v.revision_sound d'.now id row).change_ok states.price.1
          (Decimals.rounded_exact nonneg) change).2 rfl
      cases recorded with
      | nothing still => exact still
      | dropped moved change taken => exact (never change).elim
      | added moved change fresh => exact (never change).elim
  · intro still
    obtain ⟨new, made, unchanged⟩ := states.again d'.now d'.clock id
    have updated := Store.update_of there made ((Store.checked_congr unchanged).trans states.checked)
      (by simp [Mapping.Mapped.revision, itemColumns, unique])
    refine ⟨_, ?_, restamped_set there unchanged⟩
    simp only [Revision.apply, still, Bool.false_eq_true, if_false, Revision.update]
    rw [show Store.update .plans (v.revision d'.now id row).id (v.revision d'.now id row).columns
      (v.revision d'.now id row).value store' = _ from updated]

/-! ### The second application of a TLD's item -/

namespace Domains

/-- The row states what an item says. -/
structure States (v : Mapped) (row : TldPrice) : Prop where
  prices : keep v.toPrices = .ok row.toPrices
  tld : row.tld = v.tld
  currency : row.currency = v.currency
  item : row.sourceItemId = v.sourceItemId ∧ v.sourceItemId.isText = true
  url : row.sourceUrl = v.sourceUrl
  checked : row.checkedAt = v.checkedAt
  seen : row.lastSeenAt = v.checkedAt
  origin : row.origin = "sources"
  status : row.status ≠ "gone"

theorem keepPrice_iff {x kept : Option Rat} :
    keepPrice x = .ok kept ↔ (∀ y, x = some y → storableFixed 12 4 y) ∧ kept = x.map (Decimals.rounded 4) := by
  cases x with
  | none =>
    simp only [keepPrice, Except.ok.injEq, reduceCtorEq, false_implies, implies_true, true_and, Option.map_none]
    exact eq_comm
  | some y =>
    by_cases storable : storableFixed 12 4 y = true
    · simp only [keepPrice, storable, if_true, Except.ok.injEq, Option.some.injEq, forall_eq', true_and,
        Option.map_some]
      exact eq_comm
    · simp [keepPrice, storable]

theorem keep_iff {prices kept : Prices} :
    keep prices = .ok kept ↔ keepPrice prices.register = .ok kept.register ∧
      keepPrice prices.renew = .ok kept.renew ∧ keepPrice prices.transfer = .ok kept.transfer := by
  unfold keep
  constructor
  · intro done
    obtain ⟨register, first, done⟩ := bind_ok.mp done
    obtain ⟨renew, second, done⟩ := bind_ok.mp done
    obtain ⟨transfer, third, done⟩ := bind_ok.mp done
    cases done
    exact ⟨first, second, third⟩
  · rintro ⟨first, second, third⟩
    rw [first, second, third]
    rfl

theorem keepPrice_kept {x kept : Option Rat} (done : keepPrice x = .ok kept) : keepPrice kept = .ok kept := by
  obtain ⟨storable, rfl⟩ := keepPrice_iff.mp done
  cases x with
  | none => rfl
  | some y =>
    have fits := storable y rfl
    have nonneg : 0 ≤ y := by
      simp only [storableFixed, Bool.decide_and, Bool.and_eq_true, decide_eq_true_eq] at fits
      exact fits.1
    refine keepPrice_iff.mpr ⟨?_, ?_⟩
    · rintro z same
      exact Option.some.inj same ▸ storableFixed_rounded fits
    · simp [Decimals.rounded_rounded nonneg]

/-- What is kept of prices is kept as it is. -/
theorem keep_kept {prices kept : Prices} (done : keep prices = .ok kept) : keep kept = .ok kept := by
  obtain ⟨register, renew, transfer⟩ := keep_iff.mp done
  exact keep_iff.mpr ⟨keepPrice_kept register, keepPrice_kept renew, keepPrice_kept transfer⟩

/-- Every price that is given has four places at most. -/
def Prices.Exact (prices : Prices) : Prop :=
  ∀ x, (prices.register = some x ∨ prices.renew = some x ∨ prices.transfer = some x) → Decimals.Exact 4 x

theorem keepPrice_same_iff {x kept : Option Rat} (done : keepPrice x = .ok kept) :
    kept = x ↔ ∀ y, x = some y → Decimals.Exact 4 y := by
  obtain ⟨-, rfl⟩ := keepPrice_iff.mp done
  cases x with
  | none => simp
  | some y => simp [Decimals.Exact]

theorem exact_iff {prices kept : Prices} (done : keep prices = .ok kept) :
    prices.Exact ↔ kept.register = prices.register ∧ kept.renew = prices.renew ∧ kept.transfer = prices.transfer := by
  obtain ⟨register, renew, transfer⟩ := keep_iff.mp done
  rw [keepPrice_same_iff register, keepPrice_same_iff renew, keepPrice_same_iff transfer]
  constructor
  · exact fun exact => ⟨fun y same => exact y (.inl same), fun y same => exact y (.inr (.inl same)),
      fun y same => exact y (.inr (.inr same))⟩
  · rintro ⟨first, second, third⟩ x (same | same | same)
    · exact first x same
    · exact second x same
    · exact third x same

theorem rowOf_ok {v : Mapped} {providerId status : String} {firstSeenAt createdAt now : Int} {row : TldPrice}
    (made : rowOf v providerId firstSeenAt createdAt now status = .ok row) :
    v.sourceItemId.isText = true ∧ keep v.toPrices = .ok row.toPrices ∧
      row = { row with
        providerId, tld := v.tld, currency := v.currency, origin := "sources", sourceKey := some v.sourceKey
        sourceItemId := v.sourceItemId, sourceUrl := v.sourceUrl, checkedAt := v.checkedAt
        firstSeenAt, lastSeenAt := v.checkedAt, status, createdAt, updatedAt := now } := by
  unfold rowOf at made
  dsimp only at made
  split at made
  · cases made
  · rename_i text
    obtain ⟨prices, kept, made⟩ := bind_ok.mp made
    cases made
    exact ⟨by simpa using text, kept, rfl⟩

theorem States.moved_iff {v : Mapped} {row : TldPrice} (states : States v row) :
    moved row v = false ↔ v.toPrices.Exact := by
  rw [exact_iff states.prices]
  simp [moved, states.currency]

theorem rowOf_states {v : Mapped} {providerId status : String} {firstSeenAt createdAt now : Int} {row : TldPrice}
    (made : rowOf v providerId firstSeenAt createdAt now status = .ok row) (there : status ≠ "gone") :
    States v row ∧ row.providerId = providerId := by
  obtain ⟨text, kept, whole⟩ := rowOf_ok made
  rw [whole]
  exact ⟨⟨kept, rfl, rfl, ⟨rfl, text⟩, rfl, rfl, rfl, rfl, there⟩, rfl⟩

/-- What the UPDATE of a price leaves, where it does not fail. -/
theorem updatePrice_ok {id : String} {v : Mapped} {now : Int} {old : TldPrice} {store store' : Store}
    (there : store.tldPrices.get id = some old) (updated : updatePrice id v now store = .ok store') :
    ∃ row, rowOf v old.providerId old.firstSeenAt old.createdAt now
        (if old.status = "gone" then "active" else old.status) = .ok row ∧
      store' = { store with tldPrices :=
        (store.tldPrices.set id { row with tld := old.tld, origin := old.origin, sourceKey := old.sourceKey }) } := by
  unfold updatePrice at updated
  rw [there] at updated
  dsimp only at updated
  obtain ⟨row, made, updated⟩ := bind_ok.mp updated
  exact ⟨row, made, (Except.ok.inj updated).symm⟩

theorem recordChange_ok {id : String} {old : TldPrice} {v : Mapped} {store store' : Store}
    (recorded : recordChange id old v store = .ok store') :
    ∃ before after, keep old.toPrices = .ok before ∧ keep v.toPrices = .ok after ∧
      store' = if store.tldChanges.any (fun c => c.priceId = id ∧ c.observedAt = v.checkedAt) then store
        else { store with tldChanges := store.tldChanges ++ [⟨id, v.checkedAt, v.currency, before, after⟩] } := by
  unfold recordChange at recorded
  obtain ⟨before, first, recorded⟩ := bind_ok.mp recorded
  obtain ⟨after, second, recorded⟩ := bind_ok.mp recorded
  refine ⟨before, after, first, second, ?_⟩
  split at recorded
  · rename_i taken
    rw [if_pos taken]
    exact (Except.ok.inj recorded).symm
  · rename_i fresh
    rw [if_neg fresh]
    exact (Except.ok.inj recorded).symm

theorem insertPrice_ok {id providerId : String} {v : Mapped} {now : Int} {store store' : Store}
    (inserted : insertPrice id v providerId now store = .ok store') :
    ∃ row table, rowOf v providerId v.firstSeenAt now now "active" = .ok row ∧
      store.tldPrices.add id row = some table ∧ store' = { store with tldPrices := table } := by
  unfold insertPrice at inserted
  obtain ⟨row, made, inserted⟩ := bind_ok.mp inserted
  dsimp only at inserted
  split at inserted
  · cases inserted
  · split at inserted
    · cases inserted
    · split at inserted
      · rename_i table added
        exact ⟨row, table, made, added, (Except.ok.inj inserted).symm⟩
      · cases inserted

theorem reprice_alone {v : Mapped} {now : Int} {id : String} {old : TldPrice} {store : Store}
    (sources : old.origin = "sources") (newer : ¬ v.checkedAt < old.checkedAt) :
    (reprice v now id old).alone store =
      match if moved old v then recordChange id old v store else .ok store with
      | .error fault => (store, .error fault)
      | .ok recorded =>
        match updatePrice id v now recorded with
        | .error fault => (recorded, .error fault)
        | .ok written => (written, .ok .applied) := by
  unfold reprice
  rw [if_neg (not_or.mpr ⟨not_not.mpr sources, newer⟩)]
  split
  · rw [Session.alone_execute]
    cases kept : recordChange id old v store with
    | error fault => rfl
    | ok recorded =>
      dsimp only
      rw [Session.alone_execute]
      cases updatePrice id v now recorded <;> rfl
  · rw [Session.alone_execute]
    dsimp only
    cases updatePrice id v now store <;> rfl

/-- What recording a change leaves alone. -/
theorem recordChange_prices {id : String} {old : TldPrice} {v : Mapped} {store store' : Store}
    (recorded : recordChange id old v store = .ok store') :
    store'.tldPrices = store.tldPrices ∧ store'.tables = store.tables ∧
      store'.priceChanges = store.priceChanges := by
  obtain ⟨before, after, -, -, rfl⟩ := recordChange_ok recorded
  split <;> exact ⟨rfl, rfl, rfl⟩

/-- A price that is rewritten states the item. -/
theorem updatePrice_states {id providerId : String} {v : Mapped} {now : Int} {old : TldPrice} {store store' : Store}
    (stored : priceOf store providerId v.tld = some (id, old)) (sources : old.origin = "sources")
    (updated : updatePrice id v now store = .ok store') :
    (∃ new, priceOf store' providerId v.tld = some (id, new) ∧ States v new) ∧ store'.tables = store.tables := by
  obtain ⟨there, wanted⟩ := Table.get_of_find stored
  simp only [decide_eq_true_eq] at wanted
  obtain ⟨row, made, rfl⟩ := updatePrice_ok there updated
  have active : (if old.status = "gone" then "active" else old.status) ≠ "gone" := by
    split
    · decide
    · assumption
  obtain ⟨states, provider⟩ := rowOf_states made active
  have states' : States v { row with tld := old.tld, origin := old.origin, sourceKey := old.sourceKey } :=
    ⟨states.prices, wanted.2, states.currency, states.item, states.url, states.checked, states.seen, sources,
      states.status⟩
  refine ⟨⟨_, ?_, states'⟩, rfl⟩
  exact Table.find_set stored (by simp [provider, wanted])

/-- After a TLD's item was applied, its price is there and states it. -/
theorem applyPrice_states {v : Mapped} {d : Delivery} {store store' : Store}
    (done : (applyPrice v d).alone store = (store', .ok .applied)) :
    ∃ providerId provider id row,
      store'.providers.find (· "slug" = .str v.provider.slug) = some (providerId, provider) ∧
      priceOf store' providerId v.tld = some (id, row) ∧ States v row := by
  unfold applyPrice at done
  rw [Session.alone_bind] at done
  cases first : (providerOf v.provider d).alone store with
  | mk known answer =>
    rw [first] at done
    cases answer with
    | error fault => cases done
    | ok providerId =>
      obtain ⟨provider, found⟩ := providerOf_found first
      dsimp only at done
      rw [Session.alone_select] at done
      cases stored : priceOf known providerId v.tld with
      | none =>
        rw [stored] at done
        dsimp only at done
        rw [Session.alone_execute] at done
        split at done
        · rename_i written inserted
          cases done
          obtain ⟨row, table, made, added, rfl⟩ := insertPrice_ok inserted
          obtain ⟨states, same⟩ := rowOf_states made (by decide)
          refine ⟨providerId, provider, d.rowId, row, found, Table.find_add added stored ?_, states⟩
          simp [same, states.tld]
        · cases done
      | some entry =>
        obtain ⟨id, old⟩ := entry
        rw [stored] at done
        dsimp only at done
        by_cases held : old.origin ≠ "sources" ∨ v.checkedAt < old.checkedAt
        · unfold reprice at done
          rw [if_pos held] at done
          cases done
        · rw [not_or, not_not] at held
          rw [reprice_alone held.1 held.2] at done
          cases kept : if moved old v = true then recordChange id old v known else .ok known with
          | error fault =>
            rw [kept] at done
            cases done
          | ok recorded =>
            rw [kept] at done
            have same : recorded.tldPrices = known.tldPrices ∧ recorded.tables = known.tables := by
              split at kept
              · obtain ⟨prices, tables, -⟩ := recordChange_prices kept
                exact ⟨prices, tables⟩
              · cases kept
                exact ⟨rfl, rfl⟩
            have stored' : priceOf recorded providerId v.tld = some (id, old) := by
              unfold priceOf at stored ⊢
              rw [same.1]
              exact stored
            cases updated : updatePrice id v d.now recorded with
            | error fault =>
              simp only [updated] at done
              cases done
            | ok written =>
              simp only [updated] at done
              cases done
              obtain ⟨⟨new, there, states⟩, tables⟩ := updatePrice_states stored' held.1 updated
              refine ⟨providerId, provider, id, new, ?_, there, states⟩
              have providers : store'.providers = known.providers := congrFun (tables.trans same.2) .providers
              rw [providers]
              exact found

/-- The stored price that an item is about. -/
def storedPrice (store : Store) (v : Mapped) : Option (String × TldPrice) :=
  (store.providers.find (· "slug" = .str v.provider.slug)).bind fun provider => priceOf store provider.1 v.tld

/-- A change of that price is recorded at the item's time. -/
def Noted (store : Store) (v : Mapped) : Prop :=
  ∃ id row, storedPrice store v = some (id, row) ∧
    ∃ c ∈ store.tldChanges, c.priceId = id ∧ c.observedAt = v.checkedAt

theorem restamped_price {store : Store} {id : String} {row new : TldPrice}
    (there : store.tldPrices.get id = some row) (same : new.unstamped = row.unstamped) :
    Restamped store { store with tldPrices := store.tldPrices.set id new } := by
  refine ⟨fun _ _ => rfl, rfl, fun key => ?_, rfl⟩
  by_cases here : key = id
  · subst here
    rw [show ({ store with tldPrices := store.tldPrices.set key new } : Store).tldPrices.get key = some new
      from Table.get_set there, there, Option.map_some, Option.map_some, same]
  · rw [show ({ store with tldPrices := store.tldPrices.set id new } : Store).tldPrices.get key =
      store.tldPrices.get key from Table.get_set_ne here]

/-- Rewritten by the item, the row changes in the time of the update alone. -/
theorem States.again {v : Mapped} {row : TldPrice} (states : States v row) (now : Int) {id : String} {store : Store}
    (there : store.tldPrices.get id = some row) :
    ∃ new, updatePrice id v now store = .ok { store with tldPrices := store.tldPrices.set id new } ∧
      new.unstamped = row.unstamped := by
  refine ⟨{ row with updatedAt := now }, ?_, rfl⟩
  unfold updatePrice rowOf
  rw [there]
  dsimp only
  rw [if_neg (by simp [states.item.2]), states.prices, if_neg states.status]
  simp only [bind, Except.bind, pure, Except.pure]
  obtain ⟨-, -, currency, ⟨item, -⟩, url, checked, seen, -, -⟩ := states
  rw [show ({ row with updatedAt := now } : TldPrice) = { row with
    currency := row.currency, sourceItemId := row.sourceItemId, sourceUrl := row.sourceUrl
    checkedAt := row.checkedAt, lastSeenAt := row.lastSeenAt, updatedAt := now } from rfl,
    currency, item, url, checked, seen]

/-- Applied a second time, a TLD's item changes nothing just where its prices have four
places at most, or a change at its time is recorded already. -/
theorem price_again_iff {rt : Runtime} {d d' : Delivery} {v : Mapped} {store store' : Store}
    (feed : (sources.lookup (Mapping.textOr (Mapping.get d.item "source_key"))).isSome = true)
    (kept : (Mapping.get d.item "removed").truthy = false)
    (mapped : mapTldPrice rt d.item = .ok (some v)) (same : d'.item = d.item)
    (done : (applyItem rt d).alone store = (store', .ok .applied)) :
    (∃ again, (applyItem rt d').alone store' = (again, .ok .applied) ∧ Restamped store' again) ↔
      v.toPrices.Exact ∨ Noted store' v := by
  have program : ∀ e : Delivery, e.item = d.item → applyItem rt e = applyPrice v e := by
    intro e item
    unfold applyItem apply
    dsimp only
    rw [item, if_pos feed, if_neg (Bool.not_eq_true _ ▸ kept), mapped, Session.ofExcept_ok, Session.ret_bind]
  rw [program d rfl] at done
  obtain ⟨providerId, provider, id, row, found, stored, states⟩ := applyPrice_states done
  have there := (Table.get_of_find stored).1
  have held : storedPrice store' v = some (id, row) := by
    unfold storedPrice
    rw [found]
    exact stored
  have second : (applyItem rt d').alone store' = (reprice v d'.now id row).alone store' := by
    rw [program d' same, applyPrice, providerOf_known found, Session.alone_select, stored]
  rw [second, reprice_alone states.origin (by simp [states.checked]), ← states.moved_iff]
  by_cases moves : moved row v = true
  · -- The change is of the kept prices to themselves; its key may be taken.
    have recorded : recordChange id row v store' = .ok (if store'.tldChanges.any
        (fun c => c.priceId = id ∧ c.observedAt = v.checkedAt) then store'
        else { store' with tldChanges := store'.tldChanges ++
          [⟨id, v.checkedAt, v.currency, row.toPrices, row.toPrices⟩] }) := by
      unfold recordChange
      rw [keep_kept states.prices, states.prices]
      simp only [bind, Except.bind, pure, Except.pure]
      split <;> rfl
    rw [if_pos moves, recorded]
    by_cases noted : store'.tldChanges.any (fun c => c.priceId = id ∧ c.observedAt = v.checkedAt) = true
    · rw [if_pos noted]
      obtain ⟨new, updated, unchanged⟩ := states.again d'.now there
      simp only [updated]
      refine ⟨fun _ => .inr ⟨id, row, held, ?_⟩, fun _ => ⟨_, rfl, restamped_price there unchanged⟩⟩
      simpa using noted
    · rw [if_neg noted]
      constructor
      · rintro ⟨again, result, unchanged⟩
        -- The change that was added shows.
        dsimp only at result
        split at result
        · cases result
        · rename_i written updated
          obtain ⟨rfl, -⟩ := Prod.mk.inj result
          obtain ⟨_, _, rfl⟩ := updatePrice_ok (by exact there) updated
          have longer := congrArg List.length unchanged.tldChanges
          simp at longer
      · rintro (still | ⟨id', row', held', c, mem, about, time⟩)
        · exact absurd moves (by simp [still])
        · cases held.symm.trans held'
          exact absurd (List.any_eq_true.mpr ⟨c, mem, by simp [about, time]⟩) noted
  · rw [if_neg moves]
    obtain ⟨new, updated, unchanged⟩ := states.again d'.now there
    simp only [updated]
    refine ⟨fun _ => .inl (by simpa using moves), fun _ => ⟨_, rfl, restamped_price there unchanged⟩⟩

end Domains

/-! ### Items applied again -/

/-- A second application of an item that was just applied succeeds and leaves every column
but `updated_at` and every recorded change as they were just where: the price of a plan's
item has four places at most; the prices of a TLD's item have four places at most, or a
change at the item's time is recorded already. -/
theorem reapplied_iff (rt : Runtime) (d d' : Delivery) (store store' : Store) (same : d'.item = d.item)
    (kept : (Mapping.get d.item "removed").truthy = false)
    (done : (applyItem rt d).alone store = (store', .ok .applied)) :
    let again := ∃ again, (applyItem rt d').alone store' = (again, .ok .applied) ∧ Restamped store' again
    let domain := (Domains.sources.lookup (Mapping.textOr (Mapping.get d.item "source_key"))).isSome
    (∀ v, domain = false → Mapping.mapItem rt d.item = .ok (some v) →
      (again ↔ Decimals.Exact 4 v.priceMonthly)) ∧
    (∀ v, domain = true → Domains.mapTldPrice rt d.item = .ok (some v) →
      (again ↔ v.toPrices.Exact ∨ Domains.Noted store' v)) :=
  ⟨fun _ feed mapped => plan_again_iff feed kept mapped same done,
    fun _ feed mapped => Domains.price_again_iff feed kept mapped same done⟩

/-- A delivery of an item at a time. -/
def deliveryOf (item : Json) (now : Int) (clock : now.natAbs ≤ 8640000000000000) : Delivery :=
  ⟨item, now, clock, "prv_2", "row_2"⟩

/-- Linode's plan at a monthly price, as it was on a date. -/
def planItemOn (date : String) (price : Rat) : Json :=
  .obj [("id", .str "itm_1"), ("source_key", .str "linode-types"), ("category", .str "hosting"),
    ("identity", .str "g6-nanode-1"), ("title", .str "Nanode 1GB"), ("fields", .obj [("price_monthly", .num price)]),
    ("provenance", .obj [("retrieved_at", .str date), ("first_seen_at", .str date)])]

/-- Porkbun's ending at a price for the first year, as it was on a date. -/
def tldItemOn (date price : String) : Json :=
  .obj [("id", .str "itm_2"), ("source_key", .str "porkbun-tld-pricing"), ("category", .str "hosting"),
    ("identity", .str "dev"), ("fields", .obj [("registration", .str price)]),
    ("provenance", .obj [("retrieved_at", .str date), ("first_seen_at", .str date)])]

def planItem (price : Rat) : Json := planItemOn "2026-01-01T00:00:00Z" price

def tldItem (price : String) : Json := tldItemOn "2026-01-01T00:00:00Z" price

def firstDelivery (item : Json) : Delivery := deliveryOf item 1767400000000 (by decide)
def secondDelivery (item : Json) : Delivery := deliveryOf item 1767500000000 (by decide)

/-- The rows once an item was applied. -/
def appliedOnce (item : Json) : Store := ((applyItem exactRuntime (firstDelivery item)).alone staffStore).1

def gives {α : Type} (answer : Except Fault (Option α)) (wanted : α → Bool) : Bool :=
  match answer with
  | .ok (some v) => wanted v
  | _ => false

theorem exists_of_gives {α : Type} (answer : Except Fault (Option α)) (wanted : α → Bool)
    (holds : gives answer wanted = true) : ∃ v, answer = .ok (some v) ∧ wanted v = true := by
  unfold gives at holds
  split at holds
  · exact ⟨_, rfl, holds⟩
  · cases holds

theorem appliedOnce_done {item : Json}
    (done : ((applyItem exactRuntime (firstDelivery item)).alone staffStore).2 = .ok .applied) :
    (applyItem exactRuntime (firstDelivery item)).alone staffStore = (appliedOnce item, .ok .applied) :=
  Prod.ext rfl done

theorem prices_reapplied :
    (∃ again, (applyItem exactRuntime (secondDelivery (planItem 5))).alone (appliedOnce (planItem 5)) =
      (again, .ok .applied) ∧ Restamped (appliedOnce (planItem 5)) again) ∧
    (∃ again, (applyItem exactRuntime (secondDelivery (tldItem "12.50"))).alone (appliedOnce (tldItem "12.50")) =
      (again, .ok .applied) ∧ Restamped (appliedOnce (tldItem "12.50")) again) := by
  constructor
  · obtain ⟨v, mapped, price⟩ := exists_of_gives (Mapping.mapItem exactRuntime (planItem 5))
      (fun v => Decimals.Exact 4 v.priceMonthly) (by decide +kernel)
    exact ((reapplied_iff exactRuntime (firstDelivery (planItem 5)) (secondDelivery (planItem 5)) staffStore _ rfl
      (by decide +kernel) (appliedOnce_done (by decide +kernel))).1 v (by decide +kernel) mapped).mpr
      (of_decide_eq_true price)
  · obtain ⟨v, mapped, price⟩ := exists_of_gives (Domains.mapTldPrice exactRuntime (tldItem "12.50"))
      (fun v => v.toPrices = ⟨some (25 / 2), none, none⟩) (by decide +kernel)
    have prices : v.toPrices = ⟨some (25 / 2), none, none⟩ := of_decide_eq_true price
    refine ((reapplied_iff exactRuntime (firstDelivery (tldItem "12.50")) (secondDelivery (tldItem "12.50"))
      staffStore _ rfl (by decide +kernel) (appliedOnce_done (by decide +kernel))).2 v (by decide +kernel)
      mapped).mpr (.inl ?_)
    rw [prices]
    rintro x (same | same | same)
    · cases same
      decide +kernel
    · cases same
    · cases same

theorem rounded_price_refused_again :
    ((applyItem exactRuntime (firstDelivery (planItem 5.00001))).alone staffStore).2 = .ok .applied ∧
    ((applyItem exactRuntime (secondDelivery (planItem 5.00001))).alone (appliedOnce (planItem 5.00001))).2 =
      .error (.database "catalog_price_changes_check") ∧
    ((applyItem exactRuntime (firstDelivery (tldItem "12.50001"))).alone staffStore).2 = .ok .applied ∧
    ((applyItem exactRuntime (secondDelivery (tldItem "12.50001"))).alone
      (appliedOnce (tldItem "12.50001"))).1.tldChanges ≠ (appliedOnce (tldItem "12.50001")).tldChanges := by
  decide +kernel

end OpenVibeHost.Catalog
