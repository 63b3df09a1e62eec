import OpenVibeHost.Observations
import OpenVibeHost.Reapplying

/-! A feed replayed. What is stored of a plan, or of a registrar's price, is a register of
observations: an item replaces it unless it is older. So whatever the order in which a
feed's items are delivered, and however often, the newest is what stays. -/
namespace OpenVibeHost.Catalog

/-! ### Where an item comes from -/

theorem mem_of_lookup {β : Type} {entries : List (String × β)} {key : String} {value : β}
    (found : entries.lookup key = some value) : (key, value) ∈ entries := by
  obtain ⟨before, after, rfl, -⟩ := List.lookup_eq_some_iff.mp found
  exact List.mem_append_right _ List.mem_cons_self

theorem Mapping.mapItem_provider {rt : Runtime} {item : Json} {v : Mapped}
    (mapped : mapItem rt item = .ok (some v)) :
    sources.lookup (textOr (get item "source_key")) = some v.provider := by
  unfold mapItem at mapped
  dsimp only at mapped
  split at mapped
  · cases mapped
  · rename_i provider found
    rw [found]
    simp only [throw, throwThe, MonadExceptOf.throw, bind, Except.bind] at mapped
    split at mapped
    · cases mapped
    · split at mapped
      · split at mapped
        · cases mapped
        · split at mapped
          · cases mapped
          · split at mapped
            · cases mapped
              rfl
            · cases mapped
      · cases mapped

theorem Domains.mapTldPrice_provider {rt : Runtime} {item : Json} {v : Mapped}
    (mapped : mapTldPrice rt item = .ok (some v)) :
    sources.lookup (Mapping.textOr (Mapping.get item "source_key")) = some v.provider := by
  unfold mapTldPrice at mapped
  dsimp only at mapped
  split at mapped
  · cases mapped
  · rename_i provider found
    rw [found]
    simp only [throw, throwThe, MonadExceptOf.throw, bind, Except.bind] at mapped
    split at mapped
    · cases mapped
    · split at mapped
      · split at mapped
        · cases mapped
        · split at mapped
          · split at mapped
            · cases mapped
            · cases mapped
              rfl
          · cases mapped
      · cases mapped

/-- A source that may create a provider. -/
def Mapping.Source.Listed (source : Mapping.Source) : Prop :=
  (∃ key, Mapping.sources.lookup key = some source) ∨ ∃ key, Domains.sources.lookup key = some source

theorem Mapping.Source.Listed.storable {source : Mapping.Source} (listed : source.Listed) :
    storableText source.slug ∧ storableText source.name ∧ storableText source.homepageUrl := by
  have plans : ∀ entry ∈ Mapping.sources, storableText entry.2.slug ∧ storableText entry.2.name ∧
      storableText entry.2.homepageUrl := by decide +kernel
  have domains : ∀ entry ∈ Domains.sources, storableText entry.2.slug ∧ storableText entry.2.name ∧
      storableText entry.2.homepageUrl := by decide +kernel
  rcases listed with ⟨key, found⟩ | ⟨key, found⟩
  · exact plans _ (mem_of_lookup found)
  · exact domains _ (mem_of_lookup found)

/-- The ids of a delivery are new. -/
structure Fresh (store : Store) (d : Delivery) : Prop where
  texts : storableText d.providerId = true ∧ storableText d.rowId = true
  provider : store.providers.get d.providerId = none
  row : store.plans.get d.rowId = none
  price : store.tldPrices.get d.rowId = none
  plans : ∀ id row, store.plans.get id = some row → row "provider_id" ≠ .str d.providerId
  prices : ∀ id row, store.tldPrices.get id = some row → row.providerId ≠ d.providerId

theorem text_write {text : String} (storable : storableText text) : Column.text.write (.str text) = some (.str text) := by
  simp [Column.write, storable]

/-- The provider of an item is found, or inserted. -/
theorem providerOf_done {source : Mapping.Source} {d : Delivery} {store : Store} (listed : source.Listed)
    (fresh : store.providers.find (· "slug" = .str source.slug) = none → Fresh store d) :
    ∃ store' row, (providerOf source d).alone store = (store', .ok (providerIdOf store source d)) ∧
      store'.providers.find (· "slug" = .str source.slug) = some (providerIdOf store source d, row) ∧
      store'.plans = store.plans ∧ store'.tldPrices = store.tldPrices := by
  unfold providerOf providerIdOf
  rw [Session.alone_select]
  cases found : store.providers.find (· "slug" = .str source.slug) with
  | some entry => exact ⟨store, entry.2, rfl, found, rfl, rfl⟩
  | none =>
    obtain ⟨slug, name, homepage⟩ := listed.storable
    have status : storableText "active" := by decide
    dsimp only
    generalize given : [("slug", Value.str source.slug), ("name", .str source.name),
      ("homepage_url", .str source.homepageUrl), ("status", .str "active"),
      ("created_at", .num d.now), ("updated_at", .num d.now)] = values
    have each : ∀ k ∈ values.map (·.1), (column .providers k).write ((values.lookup k).getD .null) =
        some ((values.lookup k).getD .null) ∧ (values.lookup k).getD .null ≠ .null := by
      subst given
      simp [column, text_write slug, text_write name, text_write homepage, text_write status, time_write d.clock,
        List.lookup_cons]
    obtain ⟨row, made⟩ : ∃ row, written (column .providers) (values.map (·.1)) (required .providers)
        (fun k => (values.lookup k).getD .null) (default .providers) = .ok row :=
      written_of (fun k mem => by rw [(each k mem).1]; rfl) fun k mem _ => (each k mem).2
    have holds : ∀ k ∈ values.map (·.1), row k = (values.lookup k).getD .null := fun k mem =>
      Option.some.inj (((wrote made).column k mem).symm.trans (each k mem).1)
    have slug_held : row "slug" = .str source.slug := by
      rw [holds _ (by simp [← given])]
      simp [← given]
    have apart : store.clashes .providers d.providerId row = false := by
      simp only [Table.find, List.find?_eq_none, decide_eq_true_eq] at found
      simp only [Store.clashes, unique, List.all_cons, List.all_nil, Bool.and_true, slug_held,
        decide_eq_false_iff_not, not_and, Bool.not_eq_true, List.any_eq_false, decide_eq_true_eq]
      exact fun _ entry mem _ => found entry mem
    obtain ⟨table, added, inserted⟩ := Store.insert_of (fresh found).texts.1 made (by
      intro k needed
      have mem : k ∈ values.map (·.1) := by
        simpa [required, ← given] using needed
      rw [holds k mem]
      exact (each k mem).2) (by
      have active : row "status" = .str "active" := by
        rw [holds _ (by simp [← given])]
        simp [← given, List.lookup_cons]
      simp [Store.checked, active, Store.oneOf]) apart (fresh found).provider
    rw [Session.alone_execute, inserted]
    refine ⟨_, row, rfl, ?_, Store.tables_withTable_ne (by decide) table, rfl⟩
    rw [Store.providers_withTable]
    exact Table.find_add added found (by simpa using slug_held)

/-! ### Plans -/

/-- The row of an item's plan when it is new, as its columns keep it. -/
def Mapping.Mapped.row (v : Mapping.Mapped) : Row := fun k =>
  if k = "origin" then .str "sources"
  else if k = "status" then .str "active"
  else ((column .plans k).write (v.value k)).getD .null

/-- The item's plan can be stored. -/
structure Mapping.Mapped.Storable (v : Mapping.Mapped) : Prop where
  columns : ∀ k ∈ itemColumns, ((column .plans k).write (v.value k)).isSome
  first : storableInteger 64 v.firstSeenAt
  external : storableText v.externalId
  checked : Store.checked .plans v.row = true

/-- Of a plan's row the item's columns and its status decide the CHECKs. -/
theorem checked_plan_of {row new : Row} (checked : Store.checked .plans row = true)
    (same : ∀ k ∈ ["kind", "disk_type", "currency", "price_term", "origin", "ipv4", "source_key", "source_item_id"],
      new k = row k)
    (status : Store.oneOf ["active", "gone", "hidden"] (new "status") = true) :
    Store.checked .plans new = true := by
  simp only [List.mem_cons, List.not_mem_nil, or_false, forall_eq_or_imp, forall_eq] at same
  obtain ⟨kind, disk, currency, term, origin, ipv4, key, item⟩ := same
  simp only [Store.checked, kind, disk, currency, term, origin, ipv4, key, item, status, Bool.and_true,
    Bool.and_eq_true] at checked ⊢
  obtain ⟨⟨⟨⟨⟨⟨⟨kinds, disks⟩, codes⟩, terms⟩, origins⟩, -⟩, numbers⟩, sourced⟩ := checked
  exact ⟨⟨⟨⟨⟨⟨kinds, disks⟩, codes⟩, terms⟩, origins⟩, numbers⟩, sourced⟩

theorem row_checks {v : Mapping.Mapped} {new : Row}
    (columns : ∀ k ∈ itemColumns, (column .plans k).write (v.value k) = some (new k))
    (origin : new "origin" = .str "sources") :
    ∀ k ∈ ["kind", "disk_type", "currency", "price_term", "origin", "ipv4", "source_key", "source_item_id"],
      new k = v.row k := by
  have same : ∀ k ∈ itemColumns, new k = v.row k := by
    intro k mem
    have other : k ≠ "origin" ∧ k ≠ "status" := by
      constructor
      · rintro rfl
        exact absurd mem (by decide)
      · rintro rfl
        exact absurd mem (by decide)
    simp [Mapping.Mapped.row, other, columns k mem]
  intro k mem
  by_cases source : k = "origin"
  · subst source
    simp [Mapping.Mapped.row, origin]
  · refine same k ?_
    revert source
    revert k
    decide

/-- A plan that nothing stands in for can be added. -/
theorem firstSeen_done {v : Mapping.Mapped} {d : Delivery} {providerId : String} {store : Store}
    (storable : v.Storable) (provider : storableText providerId) (row_id : storableText d.rowId)
    (absent : planOf store providerId v.externalId = none) (fresh : store.plans.get d.rowId = none) :
    ∃ store', (firstSeen v d providerId).alone store = (store', .ok .applied) := by
  have status : storableText "active" := by decide
  have origin : storableText "sources" := by decide
  unfold firstSeen
  dsimp only
  generalize given : [("provider_id", Value.str providerId), ("external_id", .str v.externalId),
    ("origin", .str "sources"), ("first_seen_at", .num v.firstSeenAt), ("last_seen_at", .num v.checkedAt),
    ("status", .str "active"), ("created_at", .num d.now), ("updated_at", .num d.now)] = stamps
  have seen := v.checkedAt_write storable.columns
  have first : Column.bigint.write (.num v.firstSeenAt) = some (.num v.firstSeenAt) := by
    simp [Column.write, storable.first]
  have each : ∀ k ∈ stamps.map (·.1), (column .plans k).write ((stamps.lookup k).getD (v.value k)) =
      some ((stamps.lookup k).getD (v.value k)) ∧ (stamps.lookup k).getD (v.value k) ≠ .null := by
    subst given
    simp [column, text_write provider, text_write storable.external, text_write origin, text_write status,
      time_write d.clock, seen, first, List.lookup_cons]
  have item : ∀ k ∈ itemColumns, (stamps.lookup k).getD (v.value k) = v.value k := fun k mem =>
    value_of_stamped mem (by subst given; simp [itemColumns])
  obtain ⟨row, made⟩ : ∃ row, written (column .plans) (itemColumns ++ stamps.map (·.1)) (required .plans)
      (fun k => (stamps.lookup k).getD (v.value k)) (default .plans) = .ok row := by
    apply written_of
    · intro k mem
      rcases List.mem_append.mp mem with ours | stamp
      · rw [item k ours]
        exact storable.columns k ours
      · rw [(each k stamp).1]
        rfl
    · intro k mem needed
      rcases List.mem_append.mp mem with ours | stamp
      · rw [item k ours]
        exact itemColumns_present v k ours needed
      · exact (each k stamp).2
  have holds : ∀ k ∈ stamps.map (·.1), row k = (stamps.lookup k).getD (v.value k) := fun k mem =>
    Option.some.inj (((wrote made).column k (List.mem_append_right _ mem)).symm.trans (each k mem).1)
  have provider_held : row "provider_id" = .str providerId := by
    rw [holds _ (by simp [← given])]
    simp [← given]
  have external_held : row "external_id" = .str v.externalId := by
    rw [holds _ (by simp [← given])]
    simp [← given, List.lookup_cons]
  have origin_held : row "origin" = .str "sources" := by
    rw [holds _ (by simp [← given])]
    simp [← given, List.lookup_cons]
  have status_held : row "status" = .str "active" := by
    rw [holds _ (by simp [← given])]
    simp [← given, List.lookup_cons]
  have present : ∀ k ∈ required .plans, row k ≠ .null := by
    intro k needed
    have mem : k ∈ itemColumns ++ stamps.map (·.1) := by
      have keys : stamps.map (·.1) = ["provider_id", "external_id", "origin", "first_seen_at", "last_seen_at",
          "status", "created_at", "updated_at"] := by subst given; rfl
      rw [keys]
      revert k
      decide
    intro null
    exact (wrote made).present k mem needed (write_null (null ▸ (wrote made).column k mem))
  have checks : Store.checked .plans row = true := by
    refine checked_plan_of storable.checked (row_checks (fun k mem => ?_) origin_held) (by rw [status_held]; decide)
    have kept := (wrote made).column k (List.mem_append_left _ mem)
    rwa [item k mem] at kept
  have apart : store.clashes .plans d.rowId row = false := by
    simp only [planOf, Table.find, List.find?_eq_none, decide_eq_true_eq] at absent
    simp only [Store.clashes, unique, List.all_cons, List.all_nil, Bool.and_true, provider_held, external_held,
      decide_eq_false_iff_not, not_and, Bool.not_eq_true, List.any_eq_false, Bool.and_eq_true, decide_eq_true_eq]
    exact fun _ entry mem _ first second => absent entry mem ⟨first, second⟩
  obtain ⟨table, -, inserted⟩ := Store.insert_of row_id made present checks apart fresh
  rw [Session.alone_execute, inserted]
  exact ⟨_, rfl⟩

/-- What a plan or an item says of a price. -/
structure Observation where
  price : Rat
  currency : String
  time : Int
  deriving DecidableEq

def Mapping.Mapped.observation (v : Mapping.Mapped) : Observation := ⟨v.priceMonthly, v.currency, v.checkedAt⟩

/-- A stored row shows an observation. -/
structure Shows (row : Row) (o : Observation) : Prop where
  price : row "price_monthly" = .decimal o.price
  currency : row "currency" = .str o.currency
  time : row "checked_at" = .num o.time

/-- The plan of a provider's slug and an external id. -/
def planAt (store : Store) (slug externalId : String) : Option (String × Row) :=
  (store.providers.find (· "slug" = .str slug)).bind fun provider => planOf store provider.1 externalId

/-- A delivery of an item of that plan, in one currency and with a price of four places at
most, that can be stored. -/
structure PlanItem (rt : Runtime) (slug externalId currency : String) (d : Delivery) (v : Mapping.Mapped) : Prop where
  feed : (Domains.sources.lookup (Mapping.textOr (Mapping.get d.item "source_key"))).isSome = false
  kept : (Mapping.get d.item "removed").truthy = false
  mapped : Mapping.mapItem rt d.item = .ok (some v)
  slug : v.provider.slug = slug
  plan : v.externalId = externalId
  currency : v.currency = currency
  exact : Decimals.Exact 4 v.priceMonthly
  storable : v.Storable

/-- The store keeps an observation of the plan, or has none and takes one from each of the
deliveries that wait. -/
def KeepsPlan (store : Store) (slug externalId currency : String) (waiting : List Delivery) :
    Option Observation → Prop
  | none => planAt store slug externalId = none ∧ ∀ d ∈ waiting, Fresh store d
  | some o => o.currency = currency ∧ ∃ id row, planAt store slug externalId = some (id, row) ∧ Shows row o ∧
      row "origin" = .str "sources"

theorem States.shows {v : Mapping.Mapped} {row : Row} (states : States v row)
    (exact : Decimals.Exact 4 v.priceMonthly) : Shows row v.observation :=
  ⟨states.price.1.trans (congrArg Value.decimal exact), states.currency, states.checkedAt⟩

theorem planAt_of {store : Store} {slug externalId providerId id : String} {provider row : Row}
    (found : store.providers.find (· "slug" = .str slug) = some (providerId, provider))
    (stored : planOf store providerId externalId = some (id, row)) :
    planAt store slug externalId = some (id, row) := by
  unfold planAt
  rw [found]
  exact stored

/-- A stored plan from a source can be rewritten by an item in its currency. -/
theorem revision_applied {v : Mapping.Mapped} {o : Observation} {store : Store} {id : String} {row : Row}
    (typed : store.Typed) (there : store.plans.get id = some row) (shows : Shows row o)
    (sources : row "origin" = .str "sources") (currency : o.currency = v.currency)
    (exact : Decimals.Exact 4 v.priceMonthly) (storable : v.Storable) (d : Delivery) :
    ∃ written, (v.revision d.now id row).apply store = (written, .ok ()) := by
  obtain ⟨new, made⟩ := v.revision_written storable.columns d.now d.clock id row
  have other := (wrote made).other
  have fits_row := (typed .plans id row there).2
  have checks : Store.checked .plans new = true := by
    refine checked_plan_of storable.checked (row_checks (fun k mem => ?_) ?_) ?_
    · have kept := (wrote made).column k (List.mem_append_left _ mem)
      rwa [v.revision_value d.now id row mem] at kept
    · rw [other _ (by simp [Mapping.Mapped.revision, itemColumns]), sources]
    · rw [other _ (by simp [Mapping.Mapped.revision, itemColumns])]
      have checked := fits_row.checked
      simp only [Store.checked, Bool.and_eq_true] at checked
      exact checked.1.1.2
  have updated := Store.update_of there made checks (by simp [Mapping.Mapped.revision, itemColumns, unique])
  by_cases moved : (v.revision d.now id row).moved = true
  · obtain ⟨p, price, storable_price, exact_price⟩ := fits_row.price
    refine (Revision.apply_recorded moved there ⟨_, updated⟩).mpr
      (((v.revision_sound d.now id row).change_iff price storable_price exact_price there ⟨_, updated⟩).mpr ?_)
    have differ : numbersDiffer (row "price_monthly") (.num v.priceMonthly) = true ∨
        row "currency" ≠ .str v.currency := by
      have whole : (v.revision d.now id row).moved = repriced row (.num v.priceMonthly) (.str v.currency) := rfl
      rw [whole, repriced] at moved
      simpa using moved
    rcases differ with number | code
    · rw [price] at number
      have apart : p ≠ v.priceMonthly := by simpa [numbersDiffer, Value.number] using number
      rw [show (v.revision d.now id row).price = v.priceMonthly from rfl, show Decimals.rounded 4 v.priceMonthly = _ from exact]
      exact apart
    · exact absurd (shows.currency.trans (congrArg Value.str currency)) code
  · refine ⟨store.withTable .plans (store.plans.set id new), ?_⟩
    simp only [Revision.apply, moved, Bool.false_eq_true, if_false, Revision.update]
    rw [show Store.update .plans (v.revision d.now id row).id (v.revision d.now id row).columns
      (v.revision d.now id row).value store = _ from updated]

/-- An item that is delivered succeeds, and is kept unless the stored one is newer. -/
theorem plan_delivered {rt : Runtime} {slug externalId currency : String} {waiting : List Delivery} {d : Delivery}
    {v : Mapping.Mapped} {store : Store} {current : Option Observation} (typed : store.Typed)
    (keeps : KeepsPlan store slug externalId currency waiting current)
    (item : PlanItem rt slug externalId currency d v) (waits : d ∈ waiting) :
    ∃ store' answer, (applyItem rt d).alone store = (store', .ok answer) ∧
      KeepsPlan store' slug externalId currency waiting (Observations.keep Observation.time current v.observation) := by
  obtain ⟨feed, kept, mapped, rfl, rfl, rfl, exact, storable⟩ := item
  have program : applyItem rt d = applyPlan v d := by
    unfold applyItem
    dsimp only
    rw [if_neg (Bool.not_eq_true _ ▸ feed), if_neg (Bool.not_eq_true _ ▸ kept), mapped, Session.ofExcept_ok,
      Session.ret_bind]
  cases current with
  | none =>
    obtain ⟨absent, fresh⟩ := keeps
    obtain ⟨known, provider, done, found, plans, -⟩ :=
      providerOf_done (.inl ⟨_, Mapping.mapItem_provider mapped⟩) fun _ => fresh d waits
    have none_there : planOf known (providerIdOf store v.provider d) v.externalId = none := by
      unfold planAt at absent
      unfold planOf at absent ⊢
      rw [plans]
      unfold providerIdOf
      cases there : store.providers.find (· "slug" = .str v.provider.slug) with
      | some entry => simpa [there] using absent
      | none =>
        simp only [Table.find, List.find?_eq_none, decide_eq_true_eq]
        rintro ⟨id, row⟩ mem ⟨provided, -⟩
        exact (fresh d waits).plans id row (Table.get_of_mem mem) provided
    have known_typed : known.Typed := by
      have beside := (providerOf_beside v.provider d).alone Beside.refl (fun _ _ _ => Beside.trans) store
      rw [done] at beside
      exact beside.typed typed
    obtain ⟨store', added⟩ := firstSeen_done storable
      (known_typed .providers _ _ (Table.get_of_find found).1).1 (fresh d waits).texts.2 none_there
      (plans ▸ (fresh d waits).row)
    obtain ⟨id, row, stored, states, providers⟩ := firstSeen_states added none_there
    refine ⟨store', .applied, ?_, rfl, id, row, planAt_of (providers ▸ found) stored, states.shows exact,
      states.origin⟩
    rw [program, applyPlan, Session.alone_bind, done]
    dsimp only
    rw [Session.alone_select, none_there]
    exact added
  | some o =>
    obtain ⟨currency, id, row, there, shows, sources⟩ := keeps
    obtain ⟨⟨providerId, provider⟩, found, stored⟩ := Option.bind_eq_some_iff.mp there
    by_cases held : v.checkedAt < o.time
    · refine ⟨store, .hold, ?_, ?_⟩
      · rw [program, applyPlan, providerOf_known found, Session.alone_select, stored]
        dsimp only
        unfold reprice
        rw [if_pos (.inr (by simp [older, shows.time, Value.number, held]))]
        rfl
      · have same : Observations.keep Observation.time (some o) v.observation = some o := by
          simp [Observations.keep, Mapping.Mapped.observation, held]
        rw [same]
        exact ⟨currency, id, row, there, shows, sources⟩
    · have newer : older v.checkedAt row = false := by simp [older, shows.time, Value.number, held]
      obtain ⟨written, applied⟩ := revision_applied typed (Table.get_of_find stored).1 shows sources currency exact
        storable d
      obtain ⟨new, stored', states, providers⟩ := restated_states stored sources applied
      refine ⟨written, .applied, ?_, ?_⟩
      · rw [program, applyPlan, providerOf_known found, Session.alone_select, stored]
        dsimp only
        rw [reprice_alone sources newer, applied]
      · have same : Observations.keep Observation.time (some o) v.observation = some v.observation := by
          simp [Observations.keep, Mapping.Mapped.observation, held]
        rw [same]
        exact ⟨rfl, id, new, planAt_of (providers ▸ found) stored', states.shows exact, states.origin⟩

/-- A stored plan shows an observation. -/
theorem Fits.shows {row : Row} (fits : Fits .plans row) : ∃ o, Shows row o := by
  obtain ⟨p, price, -, -⟩ := fits.price
  have code : ∃ code, row "currency" = .str code := by
    have kept := fits.kept "currency"
    have present := fits.present "currency" (by decide)
    simp only [column] at kept
    cases value : row "currency" <;> simp_all [Column.write]
  have time : ∃ time : Int, row "checked_at" = .num time := by
    have kept := fits.kept "checked_at"
    have present := fits.present "checked_at" (by decide)
    simp only [column] at kept
    cases value : row "checked_at" with
    | num t =>
      simp only [value, List.mem_cons, String.reduceEq, List.not_mem_nil, or_false, if_false, if_true, Column.write,
        Option.ite_none_right_eq_some, storableInteger, Bool.decide_and, Bool.and_eq_true, decide_eq_true_eq] at kept
      exact ⟨t.num, by rw [Rat.coe_int_num_of_den_eq_one kept.1.1]⟩
    | _ => simp_all [Column.write]
  obtain ⟨code, code_held⟩ := code
  obtain ⟨time, time_held⟩ := time
  exact ⟨⟨p, code, time⟩, price, code_held, time_held⟩

/-! ### Prices of endings -/

namespace Domains

structure Observation where
  prices : Prices
  currency : String
  time : Int
  deriving DecidableEq

def Mapped.observation (v : Mapped) : Observation := ⟨v.toPrices, v.currency, v.checkedAt⟩

/-- A stored price shows an observation. -/
structure Shows (row : TldPrice) (o : Observation) : Prop where
  prices : row.toPrices = o.prices
  currency : row.currency = o.currency
  time : row.checkedAt = o.time

/-- The price of a provider's slug and an ending. -/
def priceAt (store : Store) (slug tld : String) : Option (String × TldPrice) :=
  (store.providers.find (· "slug" = .str slug)).bind fun provider => priceOf store provider.1 tld

/-- A delivery of an item of that price, with prices of four places at most, that can be
stored. -/
structure PriceItem (rt : Runtime) (slug tld : String) (d : Delivery) (v : Mapped) : Prop where
  feed : (sources.lookup (Mapping.textOr (Mapping.get d.item "source_key"))).isSome = true
  kept : (Mapping.get d.item "removed").truthy = false
  mapped : mapTldPrice rt d.item = .ok (some v)
  slug : v.provider.slug = slug
  tld : v.tld = tld
  exact : keep v.toPrices = .ok v.toPrices
  item : v.sourceItemId.isText = true
  length : v.tld.length ≤ 120

/-- The store keeps an observation of the price, or has none and takes one from each of the
deliveries that wait. -/
def KeepsPrice (store : Store) (slug tld : String) (waiting : List Delivery) : Option Observation → Prop
  | none => priceAt store slug tld = none ∧ ∀ d ∈ waiting, Fresh store d
  | some o => ∃ id row, priceAt store slug tld = some (id, row) ∧ Shows row o ∧ row.origin = "sources" ∧
      keep row.toPrices = .ok row.toPrices

theorem priceAt_of {store : Store} {slug tld providerId id : String} {provider : Row} {row : TldPrice}
    (found : store.providers.find (· "slug" = .str slug) = some (providerId, provider))
    (stored : priceOf store providerId tld = some (id, row)) : priceAt store slug tld = some (id, row) := by
  unfold priceAt
  rw [found]
  exact stored

theorem States.shows {v : Mapped} {row : TldPrice} (states : States v row) (exact : keep v.toPrices = .ok v.toPrices) :
    Shows row v.observation ∧ keep row.toPrices = .ok row.toPrices := by
  have same : row.toPrices = v.toPrices := Except.ok.inj (states.prices.symm.trans exact)
  exact ⟨⟨same, states.currency, states.checked⟩, keep_kept states.prices⟩

theorem rowOf_of {v : Mapped} (exact : keep v.toPrices = .ok v.toPrices) (item : v.sourceItemId.isText = true)
    (providerId : String) (firstSeenAt createdAt now : Int) (status : String) :
    ∃ row, rowOf v providerId firstSeenAt createdAt now status = .ok row := by
  unfold rowOf
  dsimp only
  rw [if_neg (by simp [item]), exact]
  exact ⟨_, rfl⟩

/-- An item that is delivered succeeds, and is kept unless the stored one is newer. -/
theorem price_delivered {rt : Runtime} {slug tld : String} {waiting : List Delivery} {d : Delivery} {v : Mapped}
    {store : Store} {current : Option Observation} (keeps : KeepsPrice store slug tld waiting current)
    (item : PriceItem rt slug tld d v) (waits : d ∈ waiting) :
    ∃ store' answer, (applyItem rt d).alone store = (store', .ok answer) ∧
      KeepsPrice store' slug tld waiting (Observations.keep Observation.time current v.observation) := by
  obtain ⟨feed, kept, mapped, rfl, rfl, exact, text, length⟩ := item
  have program : applyItem rt d = applyPrice v d := by
    unfold applyItem apply
    dsimp only
    rw [if_pos feed, if_neg (Bool.not_eq_true _ ▸ kept), mapped, Session.ofExcept_ok, Session.ret_bind]
  cases current with
  | none =>
    obtain ⟨absent, fresh⟩ := keeps
    obtain ⟨known, provider, done, found, -, prices⟩ :=
      providerOf_done (.inr ⟨_, mapTldPrice_provider mapped⟩) fun _ => fresh d waits
    have none_there : priceOf known (providerIdOf store v.provider d) v.tld = none := by
      unfold priceAt at absent
      unfold priceOf at absent ⊢
      rw [prices]
      unfold providerIdOf
      cases there : store.providers.find (· "slug" = .str v.provider.slug) with
      | some entry => simpa [there] using absent
      | none =>
        simp only [Table.find, List.find?_eq_none, decide_eq_true_eq]
        rintro ⟨id, row⟩ mem ⟨provided, -⟩
        exact (fresh d waits).prices id row (Table.get_of_mem mem) provided
    obtain ⟨row, made⟩ := rowOf_of exact text (providerIdOf store v.provider d) v.firstSeenAt d.now d.now "active"
    obtain ⟨table, added⟩ : ∃ table, known.tldPrices.add d.rowId row = some table :=
      Table.add_of_get_none (prices ▸ (fresh d waits).price)
    have inserted : insertPrice d.rowId v (providerIdOf store v.provider d) d.now known =
        .ok { known with tldPrices := table } := by
      unfold insertPrice
      rw [made]
      simp only [bind, Except.bind]
      rw [if_neg (by omega), none_there]
      simp [added, pure, Except.pure]
    obtain ⟨states, same⟩ := rowOf_states made (by decide)
    have stored : priceOf { known with tldPrices := table } (providerIdOf store v.provider d) v.tld =
        some (d.rowId, row) := Table.find_add added none_there (by simp [same, states.tld])
    obtain ⟨shows, kept_prices⟩ := states.shows exact
    have found' : ({ known with tldPrices := table } : Store).providers.find (· "slug" = .str v.provider.slug) =
        some (providerIdOf store v.provider d, provider) := found
    refine ⟨{ known with tldPrices := table }, .applied, ?_, d.rowId, row, priceAt_of found' stored, shows,
      states.origin, kept_prices⟩
    rw [program, applyPrice, Session.alone_bind, done]
    dsimp only
    rw [Session.alone_select, none_there]
    dsimp only
    rw [Session.alone_execute, inserted]
    rfl
  | some o =>
    obtain ⟨id, row, there, shows, origin, kept_prices⟩ := keeps
    obtain ⟨⟨providerId, provider⟩, found, stored⟩ := Option.bind_eq_some_iff.mp there
    by_cases held : v.checkedAt < o.time
    · refine ⟨store, .hold, ?_, ?_⟩
      · rw [program, applyPrice, providerOf_known found, Session.alone_select, stored]
        dsimp only
        unfold reprice
        rw [if_pos (.inr (by simp [shows.time, held]))]
        rfl
      · have same : Observations.keep Observation.time (some o) v.observation = some o := by
          simp [Observations.keep, Mapped.observation, held]
        rw [same]
        exact ⟨id, row, there, shows, origin, kept_prices⟩
    · have newer : ¬ v.checkedAt < row.checkedAt := by rwa [shows.time]
      obtain ⟨recorded, noted⟩ : ∃ recorded, (if moved row v = true then recordChange id row v store
          else .ok store) = .ok recorded := by
        split
        · unfold recordChange
          rw [kept_prices, exact]
          simp only [bind, Except.bind, pure, Except.pure]
          split
          · exact ⟨_, rfl⟩
          · exact ⟨_, rfl⟩
        · exact ⟨_, rfl⟩
      have same : recorded.tldPrices = store.tldPrices ∧ recorded.tables = store.tables := by
        split at noted
        · obtain ⟨prices, tables, -⟩ := recordChange_prices noted
          exact ⟨prices, tables⟩
        · cases noted
          exact ⟨rfl, rfl⟩
      have stored' : priceOf recorded providerId v.tld = some (id, row) := by
        unfold priceOf at stored ⊢
        rw [same.1]
        exact stored
      obtain ⟨new, made⟩ := rowOf_of exact text row.providerId row.firstSeenAt row.createdAt d.now
        (if row.status = "gone" then "active" else row.status)
      obtain ⟨written, updated⟩ : ∃ written, updatePrice id v d.now recorded = .ok written := by
        unfold updatePrice
        rw [(Table.get_of_find stored').1]
        dsimp only
        rw [made]
        exact ⟨_, rfl⟩
      obtain ⟨⟨new, stored'', states⟩, tables⟩ := updatePrice_states stored' origin updated
      obtain ⟨shows', kept'⟩ := states.shows exact
      have providers : written.providers = store.providers := congrFun (tables.trans same.2) .providers
      refine ⟨written, .applied, ?_, ?_⟩
      · rw [program, applyPrice, providerOf_known found, Session.alone_select, stored]
        dsimp only
        rw [reprice_alone origin newer, noted]
        dsimp only
        rw [updated]
      · have replaced : Observations.keep Observation.time (some o) v.observation = some v.observation := by
          simp [Observations.keep, Mapped.observation, held]
        rw [replaced]
        exact ⟨id, new, priceAt_of (providers ▸ found) stored'', shows', states.origin, kept'⟩

end Domains

/-! ### Feeds -/

/-- A delivery, in a transaction or not. -/
def deliverStep (rt : Runtime) (store : Store) (e : Delivery × Bool) : Store := (Action.deliver e.1 e.2).run rt store

/-- The delivery fails with nothing. -/
def Delivered (rt : Runtime) (store : Store) (e : Delivery × Bool) : Prop :=
  ∃ answer, ((applyItem rt e.1).alone store).2 = .ok answer

theorem deliverStep_of {rt : Runtime} {store store' : Store} {e : Delivery × Bool} {answer : Applied}
    (done : (applyItem rt e.1).alone store = (store', .ok answer)) : deliverStep rt store e = store' := by
  obtain ⟨d, atomic⟩ := e
  cases atomic with
  | true => simp [deliverStep, Action.run, Session.atomically, done]
  | false => simp [deliverStep, Action.run, done]

/-- A store that keeps an observation over each delivery keeps it over all of them. -/
theorem register_run {ο : Type} {time : ο → Int} {rt : Runtime} {keeps : Store → Option ο → Prop}
    {observed : Delivery → ο} {waiting : List Delivery}
    (step : ∀ store current d, d ∈ waiting → keeps store current →
      ∃ store' answer, (applyItem rt d).alone store = (store', .ok answer) ∧
        keeps store' (Observations.keep time current (observed d)))
    (deliveries : List (Delivery × Bool)) (ours : ∀ e ∈ deliveries, e.1 ∈ waiting) {store : Store}
    {current : Option ο} (start : keeps store current) :
    Transition.Along (deliverStep rt) (Delivered rt) store deliveries ∧
      keeps (Transition.run (deliverStep rt) store deliveries)
        (Observations.kept time current (deliveries.map fun e => observed e.1)) := by
  induction deliveries generalizing store current with
  | nil => exact ⟨trivial, start⟩
  | cons e rest ih =>
    obtain ⟨store', answer, done, kept⟩ := step store current e.1 (ours e List.mem_cons_self) start
    have next : deliverStep rt store e = store' := deliverStep_of done
    obtain ⟨along, last⟩ := ih (fun e mem => ours e (List.mem_cons_of_mem _ mem)) kept
    refine ⟨⟨⟨answer, by rw [done]⟩, next ▸ along⟩, ?_⟩
    rw [Transition.run, List.foldl_cons, next]
    exact last

/-- In the end it keeps the newest one. -/
theorem register_newest {ο : Type} {time : ο → Int} {rt : Runtime} {keeps : Store → Option ο → Prop}
    {observed : Delivery → ο} {deliveries : List (Delivery × Bool)}
    (step : ∀ store current d, d ∈ deliveries.map (·.1) → keeps store current →
      ∃ store' answer, (applyItem rt d).alone store = (store', .ok answer) ∧
        keeps store' (Observations.keep time current (observed d)))
    {newest : Delivery × Bool} (there : newest ∈ deliveries)
    (latest : ∀ e ∈ deliveries, time (observed e.1) ≤ time (observed newest.1))
    (alone : ∀ e ∈ deliveries, time (observed e.1) = time (observed newest.1) → observed e.1 = observed newest.1)
    {store : Store} {current : Option ο} (start : keeps store current)
    (recent : ∀ o, current = some o → time o ≤ time (observed newest.1)) :
    Transition.Along (deliverStep rt) (Delivered rt) store deliveries ∧
      keeps (Transition.run (deliverStep rt) store deliveries) (some (observed newest.1)) := by
  obtain ⟨along, last⟩ := register_run step deliveries (fun e mem => List.mem_map_of_mem mem) start
  refine ⟨along, ?_⟩
  have kept : Observations.kept time current (deliveries.map fun e => observed e.1) = some (observed newest.1) := by
    apply Observations.kept_newest _ _ (List.mem_map.mpr ⟨newest, there, rfl⟩) recent
    · intro o mem
      obtain ⟨e, ours, rfl⟩ := List.mem_map.mp mem
      exact latest e ours
    · intro o mem same
      obtain ⟨e, ours, rfl⟩ := List.mem_map.mp mem
      exact alone e ours same
  rwa [kept] at last

theorem plan_feed_newest {rt : Runtime} {store : Store} (typed : store.Typed)
    {deliveries : List (Delivery × Bool)} {newest : Delivery × Bool} (there : newest ∈ deliveries)
    {slug externalId currency : String} {v : Delivery → Mapping.Mapped}
    (items : ∀ e ∈ deliveries, PlanItem rt slug externalId currency e.1 (v e.1))
    (distinct : ∀ e ∈ deliveries, ∀ e' ∈ deliveries, (v e.1).checkedAt = (v e'.1).checkedAt → e.1.item = e'.1.item)
    (latest : ∀ e ∈ deliveries, (v e.1).checkedAt ≤ (v newest.1).checkedAt)
    (fresh : planAt store slug externalId = none → ∀ e ∈ deliveries, Fresh store e.1)
    (stored : ∀ id row, planAt store slug externalId = some (id, row) → row "origin" = .str "sources" ∧
      row "currency" = .str currency ∧ older (v newest.1).checkedAt row = false) :
    Transition.Along (deliverStep rt) (Delivered rt) store deliveries ∧
      ∃ id row, planAt (Transition.run (deliverStep rt) store deliveries) slug externalId = some (id, row) ∧
        Shows row (v newest.1).observation := by
  obtain ⟨current, start, recent⟩ : ∃ current,
      KeepsPlan store slug externalId currency (deliveries.map (·.1)) current ∧
      ∀ o, current = some o → o.time ≤ (v newest.1).checkedAt := by
    cases held : planAt store slug externalId with
    | none =>
      refine ⟨none, ⟨held, fun d mem => ?_⟩, fun o none => nomatch none⟩
      obtain ⟨e, ours, rfl⟩ := List.mem_map.mp mem
      exact fresh held e ours
    | some entry =>
      obtain ⟨id, row⟩ := entry
      obtain ⟨sources, code, newer⟩ := stored id row held
      obtain ⟨provider, -, found⟩ := Option.bind_eq_some_iff.mp held
      obtain ⟨o, shows⟩ := (typed .plans id row (Table.get_of_find found).1).2.shows
      refine ⟨some o, ⟨Value.str.inj (shows.currency.symm.trans code), id, row, held, shows, sources⟩, ?_⟩
      intro o' same
      obtain rfl := Option.some.inj same
      simpa [older, shows.time, Value.number] using newer
  have step : ∀ store current d, d ∈ deliveries.map (·.1) →
      (store.Typed ∧ KeepsPlan store slug externalId currency (deliveries.map (·.1)) current) →
      ∃ store' answer, (applyItem rt d).alone store = (store', .ok answer) ∧
        (store'.Typed ∧ KeepsPlan store' slug externalId currency (deliveries.map (·.1))
          (Observations.keep Observation.time current (v d).observation)) := by
    rintro store current d mem ⟨typed, keeps⟩
    obtain ⟨e, ours, rfl⟩ := List.mem_map.mp mem
    obtain ⟨store', answer, done, kept⟩ := plan_delivered typed keeps (items e ours) mem
    have still := (Action.deliver e.1 false).run_typed rt typed
    simp only [Action.run, done] at still
    exact ⟨store', answer, done, still, kept⟩
  have alone : ∀ e ∈ deliveries, (v e.1).checkedAt = (v newest.1).checkedAt →
      (v e.1).observation = (v newest.1).observation := by
    intro e mem same
    have mapped := (items e mem).mapped
    rw [distinct e mem newest there same, (items newest there).mapped] at mapped
    rw [Option.some.inj (Except.ok.inj mapped)]
  obtain ⟨along, -, -, id, row, last, shows, -⟩ := register_newest step there latest alone ⟨typed, start⟩ recent
  exact ⟨along, id, row, last, shows⟩

theorem price_feed_newest {rt : Runtime} {store : Store}
    {deliveries : List (Delivery × Bool)} {newest : Delivery × Bool} (there : newest ∈ deliveries)
    {slug tld : String} {v : Delivery → Domains.Mapped}
    (items : ∀ e ∈ deliveries, Domains.PriceItem rt slug tld e.1 (v e.1))
    (distinct : ∀ e ∈ deliveries, ∀ e' ∈ deliveries, (v e.1).checkedAt = (v e'.1).checkedAt → e.1.item = e'.1.item)
    (latest : ∀ e ∈ deliveries, (v e.1).checkedAt ≤ (v newest.1).checkedAt)
    (fresh : Domains.priceAt store slug tld = none → ∀ e ∈ deliveries, Fresh store e.1)
    (stored : ∀ id row, Domains.priceAt store slug tld = some (id, row) → row.origin = "sources" ∧
      Domains.keep row.toPrices = .ok row.toPrices ∧ row.checkedAt ≤ (v newest.1).checkedAt) :
    Transition.Along (deliverStep rt) (Delivered rt) store deliveries ∧
      ∃ id row, Domains.priceAt (Transition.run (deliverStep rt) store deliveries) slug tld = some (id, row) ∧
        Domains.Shows row (v newest.1).observation := by
  obtain ⟨current, start, recent⟩ : ∃ current,
      Domains.KeepsPrice store slug tld (deliveries.map (·.1)) current ∧
      ∀ o, current = some o → o.time ≤ (v newest.1).checkedAt := by
    cases held : Domains.priceAt store slug tld with
    | none =>
      refine ⟨none, ⟨held, fun d mem => ?_⟩, fun o none => nomatch none⟩
      obtain ⟨e, ours, rfl⟩ := List.mem_map.mp mem
      exact fresh held e ours
    | some entry =>
      obtain ⟨id, row⟩ := entry
      obtain ⟨origin, kept, recent⟩ := stored id row held
      refine ⟨some ⟨row.toPrices, row.currency, row.checkedAt⟩, ⟨id, row, held, ⟨rfl, rfl, rfl⟩, origin, kept⟩, ?_⟩
      intro o same
      obtain rfl := Option.some.inj same
      exact recent
  have step : ∀ store current d, d ∈ deliveries.map (·.1) →
      Domains.KeepsPrice store slug tld (deliveries.map (·.1)) current →
      ∃ store' answer, (applyItem rt d).alone store = (store', .ok answer) ∧
        Domains.KeepsPrice store' slug tld (deliveries.map (·.1))
          (Observations.keep Domains.Observation.time current (v d).observation) := by
    intro store current d mem keeps
    obtain ⟨e, ours, rfl⟩ := List.mem_map.mp mem
    exact Domains.price_delivered keeps (items e ours) mem
  have alone : ∀ e ∈ deliveries, (v e.1).checkedAt = (v newest.1).checkedAt →
      (v e.1).observation = (v newest.1).observation := by
    intro e mem same
    have mapped := (items e mem).mapped
    rw [distinct e mem newest there same, (items newest there).mapped] at mapped
    rw [Option.some.inj (Except.ok.inj mapped)]
  obtain ⟨along, id, row, last, shows, -⟩ := register_newest step there latest alone start recent
  exact ⟨along, id, row, last, shows⟩

/-- Of the items of one plan of a source, or of one registrar's price of an ending, with
pairwise distinct times, prices of four places at most and, for a plan, one currency, that
can be stored, delivered in any order and any number of times, every delivery succeeds and
the newest is what is stored in the end. -/
theorem newest_item_stored (rt : Runtime) (store : Store) (typed : store.Typed)
    (deliveries : List (Delivery × Bool)) (newest : Delivery × Bool) (there : newest ∈ deliveries) :
    (∀ (slug externalId currency : String) (v : Delivery → Mapping.Mapped),
      (∀ e ∈ deliveries, PlanItem rt slug externalId currency e.1 (v e.1)) →
      (∀ e ∈ deliveries, ∀ e' ∈ deliveries, (v e.1).checkedAt = (v e'.1).checkedAt → e.1.item = e'.1.item) →
      (∀ e ∈ deliveries, (v e.1).checkedAt ≤ (v newest.1).checkedAt) →
      (planAt store slug externalId = none → ∀ e ∈ deliveries, Fresh store e.1) →
      (∀ id row, planAt store slug externalId = some (id, row) → row "origin" = .str "sources" ∧
        row "currency" = .str currency ∧ older (v newest.1).checkedAt row = false) →
      Transition.Along (deliverStep rt) (Delivered rt) store deliveries ∧
      ∃ id row, planAt (Transition.run (deliverStep rt) store deliveries) slug externalId = some (id, row) ∧
        Shows row (v newest.1).observation) ∧
    (∀ (slug tld : String) (v : Delivery → Domains.Mapped),
      (∀ e ∈ deliveries, Domains.PriceItem rt slug tld e.1 (v e.1)) →
      (∀ e ∈ deliveries, ∀ e' ∈ deliveries, (v e.1).checkedAt = (v e'.1).checkedAt → e.1.item = e'.1.item) →
      (∀ e ∈ deliveries, (v e.1).checkedAt ≤ (v newest.1).checkedAt) →
      (Domains.priceAt store slug tld = none → ∀ e ∈ deliveries, Fresh store e.1) →
      (∀ id row, Domains.priceAt store slug tld = some (id, row) → row.origin = "sources" ∧
        Domains.keep row.toPrices = .ok row.toPrices ∧ row.checkedAt ≤ (v newest.1).checkedAt) →
      Transition.Along (deliverStep rt) (Delivered rt) store deliveries ∧
      ∃ id row, Domains.priceAt (Transition.run (deliverStep rt) store deliveries) slug tld = some (id, row) ∧
        Domains.Shows row (v newest.1).observation) := by
  exact ⟨fun _ _ _ _ items distinct latest fresh stored =>
      plan_feed_newest typed there items distinct latest fresh stored,
    fun _ _ _ items distinct latest fresh stored => price_feed_newest there items distinct latest fresh stored⟩

/-- The same item on two days, the later delivered between two deliveries of the earlier. -/
def replayed (item : String → Json) : List (Delivery × Bool) :=
  [(firstDelivery (item "2026-01-01T00:00:00Z"), true), (secondDelivery (item "2026-01-02T00:00:00Z"), false),
    (firstDelivery (item "2026-01-01T00:00:00Z"), false)]

theorem mem_replayed {item : String → Json} {e : Delivery × Bool} (mem : e ∈ replayed item) :
    e.1 = firstDelivery (item "2026-01-01T00:00:00Z") ∨ e.1 = secondDelivery (item "2026-01-02T00:00:00Z") := by
  simp only [replayed, List.mem_cons, List.not_mem_nil, or_false] at mem
  rcases mem with rfl | rfl | rfl
  · exact .inl rfl
  · exact .inr rfl
  · exact .inl rfl

/-- What the later of two items of a feed is mapped to, and else the earlier. -/
def onDay {α : Type} (earlier later : α) (d : Delivery) : α := if d.now = 1767500000000 then later else earlier

theorem deliveryOf_fresh (item : Json) (now : Int) (clock : now.natAbs ≤ 8640000000000000) :
    Fresh staffStore (deliveryOf item now clock) where
  texts := show storableText "prv_2" = true ∧ storableText "row_2" = true by decide
  provider := show staffStore.providers.get "prv_2" = none by decide
  row := show staffStore.plans.get "row_2" = none by decide
  price := rfl
  plans := by
    intro id row there
    obtain ⟨rfl, rfl⟩ := Prod.mk.inj (List.mem_singleton.mp (Table.mem_of_get there))
    exact show Value.str "prv_1" ≠ .str "prv_2" by decide
  prices id row there := nomatch there

theorem replayed_fresh (item : String → Json) : ∀ e ∈ replayed item, Fresh staffStore e.1 := by
  intro e mem
  rcases mem_replayed mem with same | same
  · exact same ▸ deliveryOf_fresh _ _ _
  · exact same ▸ deliveryOf_fresh _ _ _

section Replayed

variable {α : Type} {item : String → Json} {earlier later : α}

theorem onDay_first : onDay earlier later (firstDelivery (item "2026-01-01T00:00:00Z")) = earlier := by
  simp [onDay, firstDelivery, deliveryOf]

theorem onDay_second : onDay earlier later (secondDelivery (item "2026-01-02T00:00:00Z")) = later := by
  simp [onDay, secondDelivery, deliveryOf]

theorem replayed_items (Item : Delivery → α → Prop) (first : Item (firstDelivery (item "2026-01-01T00:00:00Z")) earlier)
    (second : Item (secondDelivery (item "2026-01-02T00:00:00Z")) later) :
    ∀ e ∈ replayed item, Item e.1 (onDay earlier later e.1) := by
  intro e mem
  rcases mem_replayed mem with same | same
  · rw [same, onDay_first]
    exact first
  · rw [same, onDay_second]
    exact second

theorem replayed_distinct {time : α → Int} (before : time earlier < time later) :
    ∀ e ∈ replayed item, ∀ e' ∈ replayed item, time (onDay earlier later e.1) = time (onDay earlier later e'.1) →
      e.1.item = e'.1.item := by
  intro e mem e' mem' same
  rcases mem_replayed mem with first | second <;> rcases mem_replayed mem' with first' | second'
  · rw [first, first']
  · rw [first, second', onDay_first, onDay_second] at same
    omega
  · rw [second, first', onDay_first, onDay_second] at same
    omega
  · rw [second, second']

theorem replayed_latest {time : α → Int} (before : time earlier < time later) :
    ∀ e ∈ replayed item, time (onDay earlier later e.1) ≤
      time (onDay earlier later (secondDelivery (item "2026-01-02T00:00:00Z"))) := by
  intro e mem
  rw [onDay_second]
  rcases mem_replayed mem with same | same
  · rw [same, onDay_first]
    omega
  · rw [same, onDay_second]

end Replayed

/-- What can be read off what an item of Linode's plan is mapped to. -/
def linodePlan (price : Rat) (time : Int) (v : Mapping.Mapped) : Bool :=
  v.provider.slug = "linode" ∧ v.externalId = "g6-nanode-1" ∧ v.currency = "USD" ∧ v.checkedAt = time ∧
    v.priceMonthly = price ∧ Decimals.Exact 4 v.priceMonthly ∧
    (∀ k ∈ itemColumns, ((column .plans k).write (v.value k)).isSome) ∧ storableInteger 64 v.firstSeenAt ∧
    storableText v.externalId ∧ Store.checked .plans v.row

theorem linodePlan_item {date : String} {price : Rat} {time : Int} {now : Int} {clock : now.natAbs ≤ 8640000000000000}
    {v : Mapping.Mapped} (mapped : Mapping.mapItem exactRuntime (planItemOn date price) = .ok (some v))
    (holds : linodePlan price time v = true) :
    PlanItem exactRuntime "linode" "g6-nanode-1" "USD" (deliveryOf (planItemOn date price) now clock) v ∧
      v.checkedAt = time ∧ v.priceMonthly = price := by
  obtain ⟨slug, plan, currency, seen, monthly, exact, columns, first, external, checked⟩ := of_decide_eq_true holds
  exact ⟨⟨rfl, rfl, mapped, slug, plan, currency, exact, columns, first, external, checked⟩, seen, monthly⟩

/-- What can be read off what an item of Porkbun's price is mapped to. -/
def porkbunPrice (time : Int) (v : Domains.Mapped) : Bool :=
  v.provider.slug = "porkbun" ∧ v.tld = "dev" ∧ v.checkedAt = time ∧ Domains.keep v.toPrices = .ok v.toPrices ∧
    v.sourceItemId.isText ∧ v.tld.length ≤ 120

theorem porkbunPrice_item {date price : String} {time : Int} {now : Int} {clock : now.natAbs ≤ 8640000000000000}
    {v : Domains.Mapped} (mapped : Domains.mapTldPrice exactRuntime (tldItemOn date price) = .ok (some v))
    (holds : porkbunPrice time v = true) :
    Domains.PriceItem exactRuntime "porkbun" "dev" (deliveryOf (tldItemOn date price) now clock) v ∧
      v.checkedAt = time := by
  obtain ⟨slug, tld, seen, kept, item, length⟩ := of_decide_eq_true holds
  exact ⟨⟨rfl, rfl, mapped, slug, tld, kept, item, length⟩, seen⟩

theorem feeds_replayed :
    (∃ id row, planAt (Transition.run (deliverStep exactRuntime) staffStore (replayed (planItemOn · 6))) "linode"
      "g6-nanode-1" = some (id, row) ∧ row "checked_at" = .num 1767312000000) ∧
    (∃ id row, Domains.priceAt (Transition.run (deliverStep exactRuntime) staffStore
      (replayed (tldItemOn · "12.50"))) "porkbun" "dev" = some (id, row) ∧ row.checkedAt = 1767312000000) := by
  constructor
  · obtain ⟨v₁, mapped₁, holds₁⟩ := exists_of_gives (Mapping.mapItem exactRuntime (planItemOn "2026-01-01T00:00:00Z" 6))
      (linodePlan 6 1767225600000) (by decide +kernel)
    obtain ⟨v₂, mapped₂, holds₂⟩ := exists_of_gives (Mapping.mapItem exactRuntime (planItemOn "2026-01-02T00:00:00Z" 6))
      (linodePlan 6 1767312000000) (by decide +kernel)
    obtain ⟨earlier, seen₁, -⟩ := linodePlan_item mapped₁ holds₁
    obtain ⟨later, seen₂, -⟩ := linodePlan_item mapped₂ holds₂
    have before : v₁.checkedAt < v₂.checkedAt := by omega
    obtain ⟨-, id, row, stored, shows⟩ := (newest_item_stored exactRuntime staffStore staffStore_typed
      (replayed (planItemOn · 6)) (secondDelivery (planItemOn "2026-01-02T00:00:00Z" 6), false) (by simp [replayed])).1
      "linode" "g6-nanode-1" "USD" (onDay v₁ v₂)
      (replayed_items (PlanItem exactRuntime "linode" "g6-nanode-1" "USD") earlier later)
      (replayed_distinct before) (replayed_latest before) (fun _ => replayed_fresh _) (fun id row there => nomatch there)
    exact ⟨id, row, stored, shows.time.trans (congrArg (fun t : Int => Value.num t) seen₂)⟩
  · obtain ⟨v₁, mapped₁, holds₁⟩ := exists_of_gives
      (Domains.mapTldPrice exactRuntime (tldItemOn "2026-01-01T00:00:00Z" "12.50"))
      (porkbunPrice 1767225600000) (by decide +kernel)
    obtain ⟨v₂, mapped₂, holds₂⟩ := exists_of_gives
      (Domains.mapTldPrice exactRuntime (tldItemOn "2026-01-02T00:00:00Z" "12.50"))
      (porkbunPrice 1767312000000) (by decide +kernel)
    obtain ⟨earlier, seen₁⟩ := porkbunPrice_item mapped₁ holds₁
    obtain ⟨later, seen₂⟩ := porkbunPrice_item mapped₂ holds₂
    have before : v₁.checkedAt < v₂.checkedAt := by omega
    obtain ⟨-, id, row, stored, shows⟩ := (newest_item_stored exactRuntime staffStore staffStore_typed
      (replayed (tldItemOn · "12.50")) (secondDelivery (tldItemOn "2026-01-02T00:00:00Z" "12.50"), false)
      (by simp [replayed])).2 "porkbun" "dev" (onDay v₁ v₂)
      (replayed_items (Domains.PriceItem exactRuntime "porkbun" "dev") earlier later)
      (replayed_distinct before) (replayed_latest before) (fun _ => replayed_fresh _) (fun id row there => nomatch there)
    exact ⟨id, row, stored, shows.time.trans seen₂⟩

end OpenVibeHost.Catalog
