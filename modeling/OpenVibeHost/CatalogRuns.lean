import OpenVibeHost.Answers
import OpenVibeHost.StoreFacts

/-! What the programs of the catalog's store come to when nobody interrupts them: which
of them reach a plan, and what they do to it there. -/
namespace OpenVibeHost.Catalog

open Answers (bind_ok)
open Session (Steps)

/-! ### Beside the plans -/

/-- Plans and their recorded changes are left alone. -/
structure Beside (store store' : Store) : Prop where
  plans : store'.plans = store.plans
  changes : store'.priceChanges = store.priceChanges
  typed : store.Typed → store'.Typed

theorem Beside.refl (store : Store) : Beside store store := ⟨rfl, rfl, id⟩

theorem Beside.trans {a b c : Store} (first : Beside a b) (second : Beside b c) : Beside a c :=
  ⟨second.plans.trans first.plans, second.changes.trans first.changes, second.typed ∘ first.typed⟩

theorem insert_beside {kind : Kind} {id : String} {columns : List String} {value : String → Value}
    {store store' : Store} (other : kind ≠ .plans)
    (inserted : Store.insert kind id columns value store = .ok store') : Beside store store' := by
  refine ⟨?_, ?_, fun typed => Store.insert_typed typed inserted⟩
  · obtain ⟨row, table, -, -, -, -, -, rfl⟩ := Store.insert_ok inserted
    exact Store.tables_withTable_ne (Ne.symm other) table
  · obtain ⟨row, table, -, -, -, -, -, rfl⟩ := Store.insert_ok inserted
    rfl

theorem providerOf_beside (source : Mapping.Source) (d : Delivery) :
    (providerOf source d).Steps Beside := by
  apply (Session.steps_select Beside.refl _).bind
  intro found
  cases found with
  | some entry => trivial
  | none =>
    exact (Session.steps_execute Beside.refl none fun _ _ => insert_beside (by decide)).bind fun _ => trivial

/-- The provider of a slug, or the one that is inserted for it. -/
def providerIdOf (store : Store) (source : Mapping.Source) (d : Delivery) : String :=
  match store.providers.find (· "slug" = .str source.slug) with
  | some (id, _) => id
  | none => d.providerId

theorem providerOf_alone (source : Mapping.Source) (d : Delivery) (store : Store) :
    (∃ fault, (providerOf source d).alone store = (store, .error fault)) ∨
      ∃ store', Beside store store' ∧
        (providerOf source d).alone store = (store', .ok (providerIdOf store source d)) := by
  unfold providerOf providerIdOf
  rw [Session.alone_select]
  cases found : store.providers.find (· "slug" = .str source.slug) with
  | some entry => exact .inr ⟨store, .refl store, rfl⟩
  | none =>
    dsimp only
    rw [Session.alone_execute]
    split
    · rename_i store' inserted
      exact .inr ⟨store', insert_beside (by decide) inserted, rfl⟩
    · rename_i fault _
      exact .inl ⟨fault, rfl⟩

theorem providerOf_known {α : Type} {source : Mapping.Source} {d : Delivery} {store : Store} {id : String}
    {row : Row} (found : store.providers.find (· "slug" = .str source.slug) = some (id, row))
    (rest : String → Client α) : (providerOf source d >>= rest).alone store = (rest id).alone store := by
  unfold providerOf
  rw [Session.alone_bind, Session.alone_select, found]
  rfl

namespace Domains

theorem beside_of_tables {store store' : Store} (tables : store'.tables = store.tables)
    (changes : store'.priceChanges = store.priceChanges) : Beside store store' := by
  refine ⟨congrFun tables .plans, changes, fun typed kind id row there => ?_⟩
  rw [tables] at there
  exact typed kind id row there

theorem recordChange_beside {id : String} {old : TldPrice} {v : Mapped} {store store' : Store}
    (recorded : recordChange id old v store = .ok store') : Beside store store' := by
  unfold recordChange at recorded
  cases before : keep old.toPrices with
  | error fault => simp [before, bind, Except.bind] at recorded
  | ok before' =>
    cases after : keep v.toPrices with
    | error fault => simp [before, after, bind, Except.bind] at recorded
    | ok after' =>
      simp only [before, after, bind, Except.bind, pure, Except.pure] at recorded
      split at recorded
      · exact Except.ok.inj recorded ▸ .refl store
      · exact Except.ok.inj recorded ▸ beside_of_tables rfl rfl

theorem updatePrice_beside {id : String} {v : Mapped} {now : Int} {store store' : Store}
    (updated : updatePrice id v now store = .ok store') : Beside store store' := by
  unfold updatePrice at updated
  split at updated
  · exact Except.ok.inj updated ▸ .refl store
  · rename_i old _
    cases row : rowOf v old.providerId old.firstSeenAt old.createdAt now
        (if old.status = "gone" then "active" else old.status) with
    | error fault => simp [row, bind, Except.bind] at updated
    | ok new =>
      simp only [row, bind, Except.bind, pure, Except.pure] at updated
      exact Except.ok.inj updated ▸ beside_of_tables rfl rfl

theorem insertPrice_beside {id : String} {v : Mapped} {providerId : String} {now : Int} {store store' : Store}
    (inserted : insertPrice id v providerId now store = .ok store') : Beside store store' := by
  unfold insertPrice at inserted
  cases row : rowOf v providerId v.firstSeenAt now now "active" with
  | error fault => simp [row, bind, Except.bind] at inserted
  | ok new =>
    simp only [row, bind, Except.bind, pure, Except.pure, throw, throwThe, MonadExceptOf.throw] at inserted
    split at inserted
    · cases inserted
    · split at inserted
      · cases inserted
      · split at inserted
        · exact Except.ok.inj inserted ▸ beside_of_tables rfl rfl
        · cases inserted

/-- Applying a TLD's item leaves the plans alone. -/
theorem apply_beside (rt : Runtime) (d : Delivery) : (apply rt d).Steps Beside := by
  unfold apply
  split
  · split
    · trivial
    · exact ⟨fun store => beside_of_tables rfl rfl, fun store => trivial⟩
  · apply (Session.steps_ofExcept _).bind
    intro mapped
    cases mapped with
    | none => trivial
    | some v =>
      apply (providerOf_beside v.provider d).bind
      intro providerId
      apply (Session.steps_select Beside.refl _).bind
      intro found
      cases found with
      | none =>
        exact (Session.steps_execute Beside.refl none fun _ _ => insertPrice_beside).bind fun _ => trivial
      | some entry =>
        obtain ⟨id, old⟩ := entry
        dsimp only
        unfold reprice
        split
        · trivial
        · split
          · apply (Session.steps_execute Beside.refl none fun _ _ => recordChange_beside).bind
            intro _
            exact (Session.steps_execute Beside.refl (some id) fun _ _ => updatePrice_beside).bind fun _ => trivial
          · exact (Session.steps_execute Beside.refl (some id) fun _ _ => updatePrice_beside).bind fun _ => trivial

end Domains

/-! ### Plans rewritten -/

/-- A plan's row as it was read, and what its columns are set to. -/
structure Revision where
  id : String
  row : Row
  columns : List String
  value : String → Value

namespace Revision

variable (r : Revision)

def price : Rat := (r.value "price_monthly").number.getD 0
def currency : String :=
  match r.value "currency" with
  | .str s => s
  | _ => ""
def observedAt : Int := ((r.value "checked_at").number.getD 0).num

/-- The price or the currency is another than the plan's. -/
def moved : Bool := repriced r.row (r.value "price_monthly") (r.value "currency")

def record (store : Store) : Except Fault Store :=
  Store.recordChange r.id (r.value "checked_at") (r.value "currency") (r.row "price_monthly")
    (r.value "price_monthly") store

def update (store : Store) : Except Fault Store := Store.update .plans r.id r.columns r.value store

/-- A change of the price recorded where there is one, then the row rewritten. -/
def apply (store : Store) : Store × Except Fault Unit :=
  match if r.moved then r.record store else .ok store with
  | .error fault => (store, .error fault)
  | .ok recorded =>
    match r.update recorded with
    | .error fault => (recorded, .error fault)
    | .ok written => (written, .ok ())

/-- The price, the currency and the time of a revision that is well formed. -/
structure Sound : Prop where
  columns : ∀ k ∈ ["price_monthly", "currency", "checked_at"], k ∈ r.columns
  price : r.value "price_monthly" = .num r.price ∨ r.value "price_monthly" = .decimal r.price
  currency : r.value "currency" = .str r.currency
  observedAt : r.value "checked_at" = .num r.observedAt

/-- The row of the recorded change. -/
def change : Except Fault PriceChange :=
  Store.changeOf r.id (r.value "checked_at") (r.value "currency") (r.row "price_monthly")
    (r.value "price_monthly")

/-- What is recorded of a revision. -/
inductive Recorded (store : Store) : Store → Prop
  | nothing (same : r.moved = false) : Recorded store store
  | dropped {c : PriceChange} (moved : r.moved = true) (change : r.change = .ok c) (taken : store.taken c) :
    Recorded store store
  | added {c : PriceChange} (moved : r.moved = true) (change : r.change = .ok c) (fresh : ¬ store.taken c) :
    Recorded store { store with priceChanges := store.priceChanges ++ [c] }

/-- How a revision ends. -/
inductive Ends (store : Store) : Store × Except Fault Unit → Prop
  | refused {fault : Fault} (moved : r.moved = true) (refused : r.change = .error fault) :
    Ends store (store, .error fault)
  | unwritten {recorded : Store} {fault : Fault} (kept : r.Recorded store recorded)
      (failed : r.update recorded = .error fault) : Ends store (recorded, .error fault)
  | written {recorded : Store} {new : Row} (kept : r.Recorded store recorded)
      (row : Catalog.written (column .plans) r.columns (required .plans) r.value r.row = .ok new)
      (updated : r.update recorded = .ok (recorded.withTable .plans (store.plans.set r.id new))) :
    Ends store (recorded.withTable .plans (store.plans.set r.id new), .ok ())

variable {r}

theorem Recorded.plans {store recorded : Store} (kept : r.Recorded store recorded) :
    recorded.plans = store.plans := by
  cases kept <;> rfl

theorem Recorded.typed {store recorded : Store} (kept : r.Recorded store recorded) (typed : store.Typed) :
    recorded.Typed := by
  cases kept <;> exact typed

theorem ends_update {store recorded : Store} (there : store.plans.get r.id = some r.row)
    (kept : r.Recorded store recorded) :
    r.Ends store (match r.update recorded with
      | .error fault => (recorded, .error fault)
      | .ok written => (written, .ok ())) := by
  cases updated : r.update recorded with
  | error fault => exact .unwritten kept updated
  | ok written =>
    obtain ⟨new, row, -, rfl⟩ := Store.update_ok (kept.plans ▸ there) updated
    have same : (recorded.tables .plans).set r.id new = store.plans.set r.id new :=
      congrArg (fun plans : Table Row => plans.set r.id new) kept.plans
    rw [same] at updated ⊢
    exact .written kept row updated

theorem apply_ends {store : Store} (there : store.plans.get r.id = some r.row) :
    r.Ends store (r.apply store) := by
  unfold apply
  by_cases moved : r.moved = true
  · rw [if_pos moved]
    cases recorded : r.record store with
    | error fault =>
      refine .refused moved ?_
      cases row : r.change with
      | error other =>
        unfold record Store.recordChange at recorded
        unfold change at row
        simpa [row, bind, Except.bind] using recorded
      | ok c =>
        obtain ⟨written, done⟩ := Store.recordChange_of row
        cases recorded.symm.trans done
    | ok store' =>
      obtain ⟨c, row, ⟨rfl, taken⟩ | ⟨rfl, fresh⟩⟩ := Store.recordChange_ok recorded
      · exact ends_update there (.dropped moved row taken)
      · exact ends_update there (.added moved row fresh)
  · rw [if_neg moved]
    exact ends_update there (.nothing (Bool.not_eq_true _ ▸ moved))

end Revision

/-! ### Items -/

/-- The item of a delivery gives a plan that is stored, from a source and not checked later. -/
structure Restates (rt : Runtime) (store : Store) (d : Delivery) (v : Mapping.Mapped) (id : String)
    (row : Row) : Prop where
  feed : (Domains.sources.lookup (Mapping.textOr (Mapping.get d.item "source_key"))).isSome = false
  kept : (Mapping.get d.item "removed").truthy = false
  mapped : Mapping.mapItem rt d.item = .ok (some v)
  stored : planOf store (providerIdOf store v.provider d) v.externalId = some (id, row)
  sources : row "origin" = .str "sources"
  newer : older v.checkedAt row = false

/-- What an item makes of a plan. -/
def Mapping.Mapped.revision (v : Mapping.Mapped) (now : Int) (id : String) (row : Row) : Revision where
  id
  row
  columns := itemColumns ++ ["last_seen_at", "updated_at"]
  value k := ([("last_seen_at", Value.num v.checkedAt), ("updated_at", .num now)].lookup k).getD (v.value k)

theorem Mapping.Mapped.revision_sound (v : Mapping.Mapped) (now : Int) (id : String) (row : Row) :
    (v.revision now id row).Sound where
  columns := by simp [Mapping.Mapped.revision, itemColumns]
  price := .inl rfl
  currency := rfl
  observedAt := rfl

/-- An optional record and an update, as a program. -/
theorem Revision.alone_apply {α : Type} (r : Revision) (rest : Client α) (store : Store) :
    (if r.moved then Session.execute none r.record >>= fun _ => Session.execute (some r.id) r.update >>= fun _ => rest
      else Session.execute (some r.id) r.update >>= fun _ => rest).alone store =
      match r.apply store with
      | (written, .ok _) => rest.alone written
      | (written, .error fault) => (written, .error fault) := by
  unfold Revision.apply
  split
  · rw [Session.alone_execute]
    cases recorded : r.record store with
    | error fault => rfl
    | ok store' =>
      dsimp only
      rw [Session.alone_execute]
      cases updated : r.update store' with
      | error fault => rfl
      | ok written => rfl
  · rw [Session.alone_execute]
    dsimp only
    cases updated : r.update store with
    | error fault => rfl
    | ok written => rfl

theorem reprice_alone {v : Mapping.Mapped} {now : Int} {id : String} {row : Row} {store : Store}
    (sources : row "origin" = .str "sources") (newer : older v.checkedAt row = false) :
    (reprice v now id row).alone store =
      match (v.revision now id row).apply store with
      | (written, .ok _) => (written, .ok .applied)
      | (written, .error fault) => (written, .error fault) := by
  have program : reprice v now id row = if (v.revision now id row).moved then
      Session.execute none (v.revision now id row).record >>= fun _ =>
        Session.execute (some id) (v.revision now id row).update >>= fun _ => .ret .applied
      else Session.execute (some id) (v.revision now id row).update >>= fun _ => .ret .applied := by
    unfold reprice
    rw [if_neg (by simp [sources, newer])]
    rfl
  rw [program]
  exact (v.revision now id row).alone_apply (.ret Applied.applied) store

/-- What applying an item comes to: it leaves the plans alone, rewrites one, or adds one. -/
theorem applyItem_cases (rt : Runtime) (d : Delivery) (store : Store) :
    Beside store ((applyItem rt d).alone store).1 ∨
    (∃ v id row store', Restates rt store d v id row ∧ Beside store store' ∧
      (applyItem rt d).alone store = (reprice v d.now id row).alone store') ∨
    (∃ v store', planOf store (providerIdOf store v.provider d) v.externalId = none ∧ Beside store store' ∧
      (applyItem rt d).alone store = (firstSeen v d (providerIdOf store v.provider d)).alone store') := by
  unfold applyItem
  dsimp only
  by_cases domain : (Domains.sources.lookup (Mapping.textOr (Mapping.get d.item "source_key"))).isSome = true
  · rw [if_pos domain]
    exact .inl ((Domains.apply_beside rt d).alone Beside.refl (fun _ _ _ => Beside.trans) store)
  · rw [if_neg domain]
    by_cases removed : (Mapping.get d.item "removed").truthy = true
    · rw [if_pos removed]
      exact .inl (.refl store)
    · rw [if_neg removed, Session.alone_ofExcept]
      cases mapped : Mapping.mapItem rt d.item with
      | error fault => exact .inl (.refl store)
      | ok answer =>
        cases answer with
        | none => exact .inl (.refl store)
        | some v =>
          dsimp only
          unfold applyPlan
          rw [Session.alone_bind]
          rcases providerOf_alone v.provider d store with ⟨fault, failed⟩ | ⟨store', beside, found⟩
          · rw [failed]
            exact .inl (.refl store)
          · rw [found]
            dsimp only
            rw [Session.alone_select]
            have same : planOf store' (providerIdOf store v.provider d) v.externalId =
                planOf store (providerIdOf store v.provider d) v.externalId := by
              unfold planOf
              rw [beside.plans]
            rw [same]
            cases stored : planOf store (providerIdOf store v.provider d) v.externalId with
            | none => exact .inr (.inr ⟨v, store', stored, beside, rfl⟩)
            | some entry =>
              obtain ⟨id, row⟩ := entry
              by_cases held : row "origin" ≠ .str "sources" ∨ older v.checkedAt row = true
              · left
                dsimp only
                unfold reprice
                rw [if_pos held]
                exact beside
              · rw [not_or, not_not, Bool.not_eq_true] at held
                right; left
                exact ⟨v, id, row, store', ⟨Bool.not_eq_true _ ▸ domain, Bool.not_eq_true _ ▸ removed, mapped, stored,
                  held.1, held.2⟩, beside, rfl⟩

/-! ### Saves -/

theorem refuseFirst_ok {ks : List String} {wrong : String → Bool} {message : String → String} {u : Unit} :
    refuseFirst ks wrong message = .ok u ↔ ∀ k ∈ ks, wrong k = false := by
  unfold refuseFirst
  cases found : ks.find? wrong with
  | none => simpa using found
  | some k =>
    have mem := List.mem_of_find?_eq_some found
    have holds := List.find?_some found
    simp only [reduceCtorEq, false_iff, not_forall]
    exact ⟨k, mem, by simp [holds]⟩

theorem refuseIf_ok {wrong : Bool} {message : String} {u : Unit} :
    refuseIf wrong message = .ok u ↔ wrong = false := by
  cases wrong <;> simp [refuseIf]

/-- What a plan that passes the checks is: the input over the stored row, with a time. -/
theorem clean_plan {rt : Runtime} {input : Input} {current : Option Row} {now : Int}
    {v : String → Option Value} (cleaned : clean rt .plans input current now = .ok v) :
    ∃ given, input = some given ∧ (∀ k ∈ given.map (·.1), k ∈ fields .plans) ∧
      (∀ k ∈ needed .plans, ∃ value, merged given current k = some value ∧ value ≠ .null) ∧
      v = Function.update (merged given current) "checked_at" (checkedAt given current now) ∧
      cleanPlan rt given v = .ok () := by
  unfold clean at cleaned
  cases input with
  | none => cases cleaned
  | some given =>
    obtain ⟨_, known, cleaned⟩ := bind_ok.mp cleaned
    obtain ⟨_, texts, cleaned⟩ := bind_ok.mp cleaned
    obtain ⟨_, there, cleaned⟩ := bind_ok.mp cleaned
    obtain ⟨_, urls, cleaned⟩ := bind_ok.mp cleaned
    obtain ⟨_, plan, cleaned⟩ := bind_ok.mp cleaned
    cases cleaned
    refine ⟨given, rfl, ?_, ?_, rfl, plan⟩
    · intro k mem
      simpa using refuseFirst_ok.mp known k mem
    · intro k mem
      have fine := refuseFirst_ok.mp there k mem
      simp only [Bool.or_eq_false_iff, Option.isNone_eq_false_iff, present] at fine
      obtain ⟨value, holds⟩ := Option.isSome_iff_exists.mp fine.1
      rw [Option.filter_eq_some_iff] at holds
      exact ⟨value, holds.1, by simpa using holds.2⟩

/-- What the checks of a plan say of its price, its currency and its time. -/
theorem cleanPlan_ok {rt : Runtime} {given : List (String × Value)} {v : String → Option Value}
    (fine : cleanPlan rt given v = .ok ()) :
    (∃ code, v "currency" = some (.str code)) ∧
    (∀ k ∈ numbers, ∀ value, given.lookup k = some value → value ≠ .null → ∃ x, value = .num x ∧ 0 ≤ x) ∧
    (∃ t : Int, v "checked_at" = some (.num t)) := by
  obtain ⟨_, coded, fine⟩ := bind_ok.mp fine
  obtain ⟨_, counted, fine⟩ := bind_ok.mp fine
  obtain ⟨_, -, fine⟩ := bind_ok.mp fine
  obtain ⟨_, -, fine⟩ := bind_ok.mp fine
  obtain ⟨_, -, fine⟩ := bind_ok.mp fine
  obtain ⟨_, -, fine⟩ := bind_ok.mp fine
  obtain ⟨_, -, fine⟩ := bind_ok.mp fine
  obtain ⟨_, -, fine⟩ := bind_ok.mp fine
  obtain ⟨_, timed, -⟩ := bind_ok.mp fine
  refine ⟨?_, ?_, ?_⟩
  · have known := refuseIf_ok.mp coded
    cases held : v "currency" with
    | none => simp [held] at known
    | some value =>
      cases value with
      | str code => exact ⟨code, rfl⟩
      | _ => simp [held] at known
  · intro k mem value gives some_value
    have good := refuseFirst_ok.mp counted k mem
    simp only [present, gives, Option.filter_some, some_value, ne_eq, not_false_eq_true, decide_true,
      if_true] at good
    cases value with
    | num x => exact ⟨x, rfl, by simpa using good⟩
    | _ => simp at good
  · have whole := refuseIf_ok.mp timed
    cases held : v "checked_at" with
    | none => simp [held] at whole
    | some value =>
      simp only [held, Bool.or_eq_false_iff, Bool.not_eq_false'] at whole
      cases value with
      | num t =>
        have integer : t.den = 1 := by
          have safe := whole.1
          simp only [Value.isSafeInteger, Bool.decide_and, Bool.and_eq_true, decide_eq_true_eq] at safe
          exact safe.1
        exact ⟨t.num, by rw [Rat.coe_int_num_of_den_eq_one integer]⟩
      | _ => simp [Value.isSafeInteger] at whole

/-- A save that reaches a stored plan. -/
structure Edits (rt : Runtime) (s : Save) (store : Store) (id : String) (row : Row)
    (v : String → Option Value) : Prop where
  kind : s.kind = .plans
  entry : s.id = some id
  stored : store.plans.get id = some row
  allowed : editsSources s row = false
  cleaned : clean rt .plans s.input (some row) s.now = .ok v
  others : (checkOthers s v).alone store = (store, .ok ())

/-- What a save makes of a plan. -/
def Save.revision (s : Save) (id : String) (row : Row) (v : String → Option Value) : Revision where
  id
  row
  columns := columnsOf .plans v ++ ["updated_at"]
  value := stamped v [("updated_at", .num s.now)]

theorem stamped_of_ne {v : String → Option Value} {now : Value} {k : String} (ne : k ≠ "updated_at") :
    stamped v [("updated_at", now)] k = valueOf v k := by
  have other : (k == "updated_at") = false := by simpa using ne
  simp [stamped, List.lookup_cons, other]

theorem Save.revision_sound {rt : Runtime} {s : Save} {row : Row} {v : String → Option Value} {id : String}
    (fits : Fits .plans row) (cleaned : clean rt .plans s.input (some row) s.now = .ok v) :
    (s.revision id row v).Sound := by
  obtain ⟨given, -, -, there, whole, checks⟩ := clean_plan cleaned
  obtain ⟨⟨code, currency⟩, counted, t, time⟩ := cleanPlan_ok checks
  have price : ∃ x, v "price_monthly" = some (.num x) ∨ v "price_monthly" = some (.decimal x) := by
    obtain ⟨value, held, some_value⟩ := there "price_monthly" (by decide)
    have same : v "price_monthly" = some value := by
      rw [whole, Function.update_of_ne (by decide), held]
    cases input : given.lookup "price_monthly" with
    | some value' =>
      have given_value : value' = value := by simpa [merged, input] using held
      obtain ⟨x, number, -⟩ := counted "price_monthly" (by decide) value (given_value ▸ input) some_value
      exact ⟨x, .inl (number ▸ same)⟩
    | none =>
      obtain ⟨p, stored, -⟩ := fits.price
      have kept : value = .decimal p := by
        simpa [merged, input, stored, eq_comm] using held
      exact ⟨p, .inr (kept ▸ same)⟩
  obtain ⟨x, price⟩ := price
  refine ⟨?_, ?_, ?_, ?_⟩
  · have column : ∀ k value, k ∈ fields .plans → v k = some value → k ∈ (s.revision id row v).columns := by
      intro k value mem held
      refine List.mem_append_left _ (List.mem_filter.mpr ⟨mem, by simp [held]⟩)
    intro k mem
    simp only [List.mem_cons, List.not_mem_nil, or_false] at mem
    rcases mem with rfl | rfl | rfl
    · rcases price with held | held
      · exact column _ _ (by decide) held
      · exact column _ _ (by decide) held
    · exact column _ _ (by decide) currency
    · exact column _ _ (by decide) time
  · rcases price with held | held
    · left
      simp [Revision.price, Save.revision, stamped_of_ne, valueOf, held, Value.number]
    · right
      simp [Revision.price, Save.revision, stamped_of_ne, valueOf, held, Value.number]
  · simp [Revision.currency, Save.revision, stamped_of_ne, valueOf, currency]
  · simp [Revision.observedAt, Save.revision, stamped_of_ne, valueOf, time, Value.number]

theorem getEntry_alone (kind : Kind) (id : String) (now : Int) (store : Store) :
    (getEntry kind id now).alone store =
      match (store.tables kind).get id with
      | some row => (store, .ok (out kind now row))
      | none => (store, .error missing) := by
  unfold getEntry
  rw [Session.alone_select]
  cases (store.tables kind).get id <;> rfl

theorem refuseWhere_steps (asked : Bool) (found : Store → Bool) (message : String) {rel : Store → Store → Prop}
    (same : ∀ store, rel store store) : (refuseWhere asked found message).Steps rel := by
  unfold refuseWhere
  split
  · apply (Session.steps_select same _).bind
    intro refused
    cases refused <;> trivial
  · trivial

theorem checkOthers_steps (s : Save) (v : String → Option Value) {rel : Store → Store → Prop}
    (same : ∀ store, rel store store) : (checkOthers s v).Steps rel :=
  (refuseWhere_steps _ _ _ same).bind fun _ => (refuseWhere_steps _ _ _ same).bind fun _ =>
    refuseWhere_steps _ _ _ same

/-- Looking at other rows changes none. -/
theorem checkOthers_alone (s : Save) (v : String → Option Value) (store : Store) :
    ((checkOthers s v).alone store).1 = store :=
  ((checkOthers_steps s v fun _ => rfl).alone (fun _ => rfl) (fun _ _ _ => Eq.trans) store).symm

theorem update_beside {kind : Kind} {id : String} {columns : List String} {value : String → Value}
    {store store' : Store} (other : kind ≠ .plans)
    (updated : Store.update kind id columns value store = .ok store') : Beside store store' := by
  cases there : (store.tables kind).get id with
  | none =>
    simp only [Store.update, there, Except.ok.injEq] at updated
    exact updated ▸ .refl store
  | some row =>
    refine ⟨?_, ?_, fun typed => Store.update_typed typed updated⟩
    · obtain ⟨new, -, -, rfl⟩ := Store.update_ok there updated
      exact Store.tables_withTable_ne (Ne.symm other) _
    · obtain ⟨new, -, -, rfl⟩ := Store.update_ok there updated
      rfl

theorem getEntry_steps (kind : Kind) (id : String) (now : Int) {rel : Store → Store → Prop}
    (same : ∀ store, rel store store) : (getEntry kind id now).Steps rel := by
  apply (Session.steps_select same _).bind
  intro row
  cases row <;> trivial

/-- Saving a provider or a promo leaves the plans alone. -/
theorem save_beside (rt : Runtime) (s : Save) (other : s.kind ≠ .plans) : (save rt s).Steps Beside := by
  unfold save
  split
  · rename_i id _
    apply (getEntry_steps s.kind id s.now Beside.refl).bind
    intro current
    split
    · trivial
    · apply (Session.steps_ofExcept _).bind
      intro v
      apply (checkOthers_steps s v Beside.refl).bind
      intro _
      unfold rewrite
      rw [if_neg fun both => other both.1]
      apply (Session.steps_execute Beside.refl (some id) fun _ _ => update_beside other).bind
      exact fun _ => getEntry_steps s.kind id s.now Beside.refl
  · apply (Session.steps_ofExcept _).bind
    intro v
    apply (checkOthers_steps s v Beside.refl).bind
    intro _
    apply (Session.steps_execute Beside.refl none fun _ _ => insert_beside other).bind
    exact fun _ => getEntry_steps s.kind s.newId s.now Beside.refl

/-- Rewriting a plan, alone: its revision, and then the row that was written is read. -/
theorem rewrite_alone {s : Save} {id : String} {row : Row} {v : String → Option Value} {store : Store}
    (kind : s.kind = .plans) :
    (rewrite s id row v).alone store =
      match (s.revision id row v).apply store with
      | (written, .ok _) => (getEntry .plans id s.now).alone written
      | (written, .error fault) => (written, .error fault) := by
  have program : rewrite s id row v = if (s.revision id row v).moved then
      Session.execute none (s.revision id row v).record >>= fun _ =>
        Session.execute (some id) (s.revision id row v).update >>= fun _ => getEntry .plans id s.now
      else Session.execute (some id) (s.revision id row v).update >>= fun _ => getEntry .plans id s.now := by
    unfold rewrite
    simp only [kind, true_and]
    rfl
  rw [program]
  exact (s.revision id row v).alone_apply _ store

/-- An entry added, and the row that was added read. -/
theorem insertEntry_alone (kind : Kind) (id : String) (now : Int) (columns : List String)
    (value : String → Value) (store : Store) :
    (∃ fault, (Session.execute none (Store.insert kind id columns value) >>= fun _ =>
      getEntry kind id now).alone store = (store, .error fault)) ∨
    ∃ written row, Store.insert kind id columns value store = .ok written ∧
      (Session.execute none (Store.insert kind id columns value) >>= fun _ =>
        getEntry kind id now).alone store = (written, .ok row) := by
  rw [Session.alone_execute]
  cases inserted : Store.insert kind id columns value store with
  | error fault => exact .inl ⟨fault, rfl⟩
  | ok written =>
    obtain ⟨new, table, -, -, -, -, added, rfl⟩ := Store.insert_ok inserted
    right
    dsimp only
    rw [getEntry_alone, Store.tables_withTable, Table.get_add added]
    exact ⟨_, _, rfl, rfl⟩

/-- What a save comes to, in its transaction: it leaves the plans alone, rewrites one, or
adds one. -/
theorem save_cases (rt : Runtime) (s : Save) (store : Store) :
    Beside store ((save rt s).atomically store).1 ∨
    (∃ id row v, Edits rt s store id row v ∧ ((save rt s).atomically store).1 =
      match (s.revision id row v).apply store with
      | (written, .ok _) => written
      | (_, .error _) => store) ∨
    (∃ columns value, Store.insert .plans s.newId columns value store =
      .ok ((save rt s).atomically store).1) := by
  by_cases kind : s.kind = .plans
  · unfold save Session.atomically
    cases entry : s.id with
    | some id =>
      dsimp only
      unfold saveExisting
      rw [Session.alone_bind, getEntry_alone]
      cases stored : (store.tables s.kind).get id with
      | none => exact .inl (.refl store)
      | some row =>
        have plain : out s.kind s.now row = row := by rw [kind]; rfl
        dsimp only
        rw [plain]
        by_cases allowed : editsSources s row = true
        · rw [if_pos allowed]
          exact .inl (.refl store)
        · rw [if_neg allowed, Session.alone_ofExcept]
          cases cleaned : clean rt s.kind s.input (some row) s.now with
          | error fault => exact .inl (.refl store)
          | ok v =>
            dsimp only
            rw [Session.alone_bind]
            have same := checkOthers_alone s v store
            cases checks : (checkOthers s v).alone store with
            | mk after answer =>
              obtain rfl : after = store := by simpa [checks] using same
              cases answer with
              | error fault => exact .inl (.refl _)
              | ok _ =>
                right; left
                rw [kind] at stored cleaned
                refine ⟨id, row, v, ⟨kind, entry, stored, by simpa using allowed, cleaned, checks⟩, ?_⟩
                dsimp only
                rw [rewrite_alone kind]
                have ends := (s.revision id row v).apply_ends stored
                generalize (s.revision id row v).apply after = ended at ends ⊢
                cases ends with
                | refused moved refused => rfl
                | unwritten kept failed => rfl
                | @written recorded new kept new_row updated =>
                  have there : (after.plans.set (s.revision id row v).id new).get id = some new :=
                    Table.get_set stored
                  dsimp only
                  rw [getEntry_alone, Store.tables_withTable, there]
    | none =>
      dsimp only
      unfold saveNew
      rw [Session.alone_ofExcept]
      cases cleaned : clean rt s.kind s.input none s.now with
      | error fault => exact .inl (.refl store)
      | ok v =>
        dsimp only
        rw [Session.alone_bind]
        have same := checkOthers_alone s v store
        cases checks : (checkOthers s v).alone store with
        | mk after answer =>
          obtain rfl : after = store := by simpa [checks] using same
          cases answer with
          | error fault => exact .inl (.refl _)
          | ok _ =>
            dsimp only
            rw [kind]
            rcases insertEntry_alone .plans s.newId s.now _ _ after with
              ⟨fault, failed⟩ | ⟨written, row, inserted, done⟩
            · rw [failed]
              exact .inl (.refl _)
            · rw [done]
              exact .inr (.inr ⟨_, _, inserted⟩)
  · exact .inl ((save_beside rt s kind).atomically Beside.refl (fun _ _ _ => Beside.trans) store)

theorem firstSeen_alone (v : Mapping.Mapped) (d : Delivery) (providerId : String) (store : Store) :
    (∃ fault, (firstSeen v d providerId).alone store = (store, .error fault)) ∨
    ∃ columns value written, Store.insert .plans d.rowId columns value store = .ok written ∧
      (firstSeen v d providerId).alone store = (written, .ok .applied) := by
  unfold firstSeen
  dsimp only
  rw [Session.alone_execute]
  split
  · rename_i written inserted
    exact .inr ⟨_, _, written, inserted, rfl⟩
  · rename_i fault _
    exact .inl ⟨fault, rfl⟩

/-- An item of a stored plan rewrites it. -/
theorem Restates.alone {rt : Runtime} {store : Store} {d : Delivery} {v : Mapping.Mapped} {id : String}
    {row : Row} (restates : Restates rt store d v id row)
    (known : (store.providers.find (· "slug" = .str v.provider.slug)).isSome) :
    (applyItem rt d).alone store =
      match (v.revision d.now id row).apply store with
      | (written, .ok _) => (written, .ok .applied)
      | (written, .error fault) => (written, .error fault) := by
  obtain ⟨⟨providerId, provider⟩, found⟩ := Option.isSome_iff_exists.mp known
  have stored := restates.stored
  simp only [providerIdOf, found] at stored
  unfold applyItem applyPlan
  dsimp only
  rw [if_neg (Bool.not_eq_true _ ▸ restates.feed), if_neg (Bool.not_eq_true _ ▸ restates.kept),
    restates.mapped, Session.ofExcept_ok, Session.ret_bind]
  dsimp only
  rw [providerOf_known found, Session.alone_select, stored]
  exact reprice_alone restates.sources restates.newer

/-- A save of a stored plan rewrites it. -/
theorem Edits.alone {rt : Runtime} {s : Save} {store : Store} {id : String} {row : Row}
    {v : String → Option Value} (edits : Edits rt s store id row v) :
    (save rt s).alone store =
      match (s.revision id row v).apply store with
      | (written, .ok _) => (getEntry .plans id s.now).alone written
      | (written, .error fault) => (written, .error fault) := by
  have stored : (store.tables s.kind).get id = some row := edits.kind ▸ edits.stored
  have cleaned : clean rt s.kind s.input (some row) s.now = .ok v := edits.kind ▸ edits.cleaned
  have plain : out s.kind s.now row = row := by rw [edits.kind]; rfl
  unfold save
  rw [edits.entry]
  unfold saveExisting
  rw [Session.alone_bind, getEntry_alone, stored]
  dsimp only
  rw [plain, edits.allowed, if_neg Bool.false_ne_true, cleaned, Session.ofExcept_ok, Session.ret_bind,
    Session.alone_bind, edits.others]
  exact rewrite_alone edits.kind

/-! ### Deliveries and saves -/

/-- What happens to the catalog: an item applied, in a transaction where the feed is
pulled and statement by statement where it is announced, or an entry saved by staff. -/
inductive Action where
  | deliver (d : Delivery) (atomic : Bool)
  | save (s : Save)

namespace Action

/-- Whether a failure takes everything back. -/
def atomic : Action → Bool
  | deliver _ atomic => atomic
  | save _ => true

def run (rt : Runtime) (store : Store) : Action → Store
  | deliver d true => ((applyItem rt d).atomically store).1
  | deliver d false => ((applyItem rt d).alone store).1
  | save s => ((Catalog.save rt s).atomically store).1

/-- The action rewrites a plan so. -/
def Revises (rt : Runtime) (store : Store) : Action → Revision → Prop
  | deliver d _, r => ∃ v id row, Restates rt store d v id row ∧ r = v.revision d.now id row
  | save s, r => ∃ id row v, Edits rt s store id row v ∧ r = s.revision id row v

/-- The action succeeds. -/
def Succeeds (rt : Runtime) (store : Store) : Action → Prop
  | deliver d _ => ∃ written, (applyItem rt d).alone store = (written, .ok .applied)
  | save s => ∃ written row, (Catalog.save rt s).alone store = (written, .ok row)

/-- The provider that an item names is stored. -/
def Known (rt : Runtime) (store : Store) : Action → Prop
  | deliver d _ => ∀ v, Mapping.mapItem rt d.item = .ok (some v) →
      (store.providers.find (· "slug" = .str v.provider.slug)).isSome
  | save _ => True

variable {rt : Runtime} {store : Store}

/-- Where an action rewrites a plan, it succeeds with the revision. -/
theorem Revises.succeeds_iff {action : Action} {r : Revision} (revises : action.Revises rt store r)
    (known : action.Known rt store) :
    action.Succeeds rt store ↔ ∃ written, r.apply store = (written, .ok ()) := by
  cases action with
  | deliver d atomic =>
    obtain ⟨v, id, row, restates, rfl⟩ := revises
    simp only [Succeeds]
    rw [restates.alone (known v restates.mapped)]
    rcases (v.revision d.now id row).apply store with ⟨written, _ | _⟩
    · simp
    · simp
  | save s =>
    obtain ⟨id, row, v, edits, rfl⟩ := revises
    simp only [Succeeds]
    rw [edits.alone]
    have ends := (s.revision id row v).apply_ends edits.stored
    generalize (s.revision id row v).apply store = ended at ends ⊢
    cases ends with
    | refused moved refused => simp
    | unwritten kept failed => simp
    | @written recorded new kept new_row updated =>
      have there : (store.plans.set (s.revision id row v).id new).get id = some new :=
        Table.get_set edits.stored
      dsimp only
      rw [getEntry_alone, Store.tables_withTable, there]
      simp

/-- The rows once a revision has ended. -/
def settled (action : Action) (store : Store) : Store × Except Fault Unit → Store
  | (written, .ok _) => written
  | (written, .error _) => if action.atomic then store else written

theorem Revises.stored {action : Action} {r : Revision} (revises : action.Revises rt store r) :
    store.plans.get r.id = some r.row := by
  cases action with
  | deliver d atomic =>
    obtain ⟨v, id, row, restates, rfl⟩ := revises
    exact (Table.get_of_find restates.stored).1
  | save s =>
    obtain ⟨id, row, v, edits, rfl⟩ := revises
    exact edits.stored

theorem Revises.sound {action : Action} {r : Revision} (revises : action.Revises rt store r)
    (typed : store.Typed) : r.Sound := by
  cases action with
  | deliver d atomic =>
    obtain ⟨v, id, row, restates, rfl⟩ := revises
    exact v.revision_sound d.now id row
  | save s =>
    obtain ⟨id, row, v, edits, rfl⟩ := revises
    exact Save.revision_sound (typed _ _ _ edits.stored).2 edits.cleaned

/-- An action leaves the plans alone, rewrites one, or adds one. -/
theorem run_cases (rt : Runtime) (store : Store) (action : Action) :
    Beside store (action.run rt store) ∨
    (∃ r store' ended, action.Revises rt store r ∧ Beside store store' ∧ r.Ends store' ended ∧
      action.run rt store = action.settled store ended) ∨
    (∃ store' id columns value, Beside store store' ∧
      Store.insert .plans id columns value store' = .ok (action.run rt store)) := by
  cases action with
  | save s =>
    rcases save_cases rt s store with beside | ⟨id, row, v, edits, done⟩ | ⟨columns, value, inserted⟩
    · exact .inl beside
    · have ends := (s.revision id row v).apply_ends edits.stored
      right; left
      refine ⟨_, store, _, ⟨id, row, v, edits, rfl⟩, .refl store, ends, ?_⟩
      rw [run, done]
      rcases (s.revision id row v).apply store with ⟨written, _ | _⟩ <;> rfl
    · exact .inr (.inr ⟨store, s.newId, columns, value, .refl store, inserted⟩)
  | deliver d atomic =>
    have whole : (deliver d atomic).run rt store = match (applyItem rt d).alone store with
        | (written, .ok _) => written
        | (written, .error _) => if atomic then store else written := by
      cases atomic with
      | true =>
        unfold run
        dsimp only
        unfold Session.atomically
        rcases (applyItem rt d).alone store with ⟨written, _ | _⟩ <;> rfl
      | false =>
        unfold run
        dsimp only
        rcases (applyItem rt d).alone store with ⟨written, _ | _⟩ <;> rfl
    rw [whole]
    rcases applyItem_cases rt d store with beside | ⟨v, id, row, store', restates, beside, done⟩ |
      ⟨v, store', absent, beside, done⟩
    · left
      generalize (applyItem rt d).alone store = ended at beside ⊢
      rcases ended with ⟨written, fault | result⟩
      · cases atomic with
        | true => exact .refl store
        | false => exact beside
      · exact beside
    · have stored : store'.plans.get id = some row := by
        rw [beside.plans]
        exact (Table.get_of_find restates.stored).1
      have ends := (v.revision d.now id row).apply_ends stored
      right; left
      refine ⟨_, store', _, ⟨v, id, row, restates, rfl⟩, beside, ends, ?_⟩
      rw [done, reprice_alone restates.sources restates.newer]
      rcases (v.revision d.now id row).apply store' with ⟨written, _ | _⟩ <;> rfl
    · rw [done]
      rcases firstSeen_alone v d (providerIdOf store v.provider d) store' with
        ⟨fault, failed⟩ | ⟨columns, value, written, inserted, added⟩
      · rw [failed]
        left
        cases atomic with
        | true => exact .refl store
        | false => exact beside
      · rw [added]
        exact .inr (.inr ⟨store', d.rowId, columns, value, beside, inserted⟩)

/-- Rows stay what their columns keep. -/
theorem run_typed (rt : Runtime) (action : Action) (typed : store.Typed) : (action.run rt store).Typed := by
  rcases run_cases rt store action with beside | ⟨r, store', ended, revises, beside, ends, done⟩ |
    ⟨store', id, columns, value, beside, inserted⟩
  · exact beside.typed typed
  · have typed' := beside.typed typed
    have there : store'.plans.get r.id = some r.row := beside.plans ▸ revises.stored
    rw [done]
    cases ends with
    | refused moved refused =>
      simp only [settled]
      split
      · exact typed
      · exact typed'
    | unwritten kept failed =>
      simp only [settled]
      split
      · exact typed
      · exact kept.typed typed'
    | written kept row updated => exact Store.update_typed (kept.typed typed') updated
  · exact Store.insert_typed (beside.typed typed) inserted

end Action

end OpenVibeHost.Catalog
