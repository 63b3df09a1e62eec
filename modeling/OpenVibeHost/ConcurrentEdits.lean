import OpenVibeHost.DeliveryOrder
import OpenVibeHost.LockedWrites

/-! Staff saves of one entry, and items of one plan, together. Each reads the row, decides,
and writes all its columns back in a later statement; only the UPDATE waits for the row. So
what survives depends on what happened between the read and the UPDATE. -/
namespace OpenVibeHost.Catalog

open Answers (bind_ok)
open Session (Pending Settled Quiet Watched)

/-! ### Statements over the tables -/

abbrev Tables := Kind → Table Row

/-- A store of these tables. -/
def Store.ofTables (tables : Tables) : Store := ⟨tables, [], Table.empty, []⟩

/-- The tables after an UPDATE. -/
def Store.tablesAfter (kind : Kind) (id : String) (columns : List String) (value : String → Value) (tables : Tables) :
    Option Tables :=
  match Store.update kind id columns value (.ofTables tables) with
  | .ok written => some written.tables
  | .error _ => none

theorem Store.update_ofTables (kind : Kind) (id : String) (columns : List String) (value : String → Value)
    (store : Store) : Store.update kind id columns value store =
      match Store.update kind id columns value (.ofTables store.tables) with
      | .ok written => .ok { store with tables := written.tables }
      | .error fault => .error fault := by
  unfold Store.update Store.clashes Store.ofTables
  dsimp only
  cases (store.tables kind).get id with
  | none => rfl
  | some row =>
    dsimp only
    cases written (column kind) columns (required kind) value row with
    | error fault => rfl
    | ok new =>
      simp only [bind, Except.bind, throw, throwThe, MonadExceptOf.throw, pure, Except.pure]
      split
      · rfl
      · split
        · rfl
        · rfl

theorem Store.update_after (kind : Kind) (id : String) (columns : List String) (value : String → Value)
    (store : Store) :
    match Store.tablesAfter kind id columns value store.tables with
    | none => ∃ fault, Store.update kind id columns value store = .error fault
    | some tables => ∃ written, Store.update kind id columns value store = .ok written ∧ written.tables = tables := by
  rw [Store.update_ofTables]
  unfold Store.tablesAfter
  cases Store.update kind id columns value (.ofTables store.tables) with
  | error fault => exact ⟨fault, rfl⟩
  | ok written => exact ⟨_, rfl, rfl⟩

section

variable {α : Type} {good : Tables → Prop} {later : Tables → Tables → Prop}
  {Writes : (Tables → Option Tables) → Prop} {quits : Tables → Prop}

/-- A program that comes to its UPDATE. -/
theorem update_pending {kind : Kind} {id : String} {columns : List String} {value : String → Value} {base : Tables}
    {rest : Client α} (known : Writes (Store.tablesAfter kind id columns value))
    (settled : ∀ tables written, good tables → Store.tablesAfter kind id columns value tables = some written →
      Settled Store.tables good later written rest) :
    Pending Store.tables id good later Writes quits base
      (Session.execute (some id) (Store.update kind id columns value) >>= fun _ => rest) := by
  rw [Session.execute_bind]
  refine .inr ⟨rfl, _, known, fun seen seen_good _ => ?_⟩
  have after := Store.update_after kind id columns value seen
  cases result : Store.tablesAfter kind id columns value seen.tables with
  | none =>
    rw [result] at after
    obtain ⟨fault, failed⟩ := after
    exact ⟨by rw [Session.attempt_error failed], fault, Session.after_error failed⟩
  | some tables =>
    rw [result] at after
    obtain ⟨written, done, same⟩ := after
    refine ⟨by rw [Session.attempt_ok done, same], ?_⟩
    rw [Session.after_ok done]
    exact settled _ _ seen_good result

theorem recordChange_tables {id : String} {observedAt currency before after : Value} (seen : Store) :
    (Session.attempt (Store.recordChange id observedAt currency before after) seen).tables = seen.tables := by
  cases recorded : Store.recordChange id observedAt currency before after seen with
  | error fault => rw [Session.attempt_error recorded]
  | ok written =>
    rw [Session.attempt_ok recorded]
    obtain ⟨c, -, ⟨rfl, -⟩ | ⟨rfl, -⟩⟩ := Store.recordChange_ok recorded
    · rfl
    · rfl

/-- Recording a change of the price writes none of the tables. -/
theorem record_quiet (id : String) (observedAt currency before after : Value) :
    Quiet Store.tables (Session.execute none (Store.recordChange id observedAt currency before after) : Client Unit) := by
  refine ⟨rfl, recordChange_tables, fun seen => ?_⟩
  unfold Session.after
  split
  · trivial
  · trivial

end

/-- The row that an UPDATE leaves. -/
theorem tablesAfter_row {kind : Kind} {id : String} {columns : List String} {value : String → Value}
    {tables tables' : Tables} {row : Row} (there : (tables kind).get id = some row)
    (after : Store.tablesAfter kind id columns value tables = some tables') :
    ∃ new, Wrote (column kind) columns (required kind) value row new ∧ Store.checked kind new = true ∧
      tables' = Function.update tables kind ((tables kind).set id new) := by
  unfold Store.tablesAfter at after
  cases updated : Store.update kind id columns value (.ofTables tables) with
  | error fault => simp [updated] at after
  | ok written =>
    simp only [updated, Option.some.injEq] at after
    have stored : ((Store.ofTables tables).tables kind).get id = some row := there
    obtain ⟨new, made, checked, rfl⟩ := Store.update_ok stored updated
    exact ⟨new, wrote made, checked, after.symm⟩

/-- The rows hold what their columns keep. -/
def TypedRows (tables : Tables) : Prop := (Store.ofTables tables).Typed

theorem TypedRows.set {tables : Tables} {kind : Kind} {id : String} {row new : Row} (typed : TypedRows tables)
    (there : (tables kind).get id = some row) (fits : Fits kind new) :
    TypedRows (Function.update tables kind ((tables kind).set id new)) :=
  Store.Typed.set typed there fits

/-! ### Saves of one entry -/

/-- What a save changes: the fields it gives, and the time of a price that comes without
one. -/
def Save.wants (s : Save) (k : String) : Option Value :=
  let given := s.input.getD []
  match given.lookup k with
  | some value => if k = "checked_at" ∧ s.kind = .plans ∧ value = .null then some (.num s.now) else some value
  | none =>
    if k = "checked_at" ∧ s.kind = .plans ∧ (given.lookup "price_monthly").isSome then some (.num s.now) else none

/-- An entry that passes the checks is what the save changes over what it read. -/
theorem clean_wants {rt : Runtime} {s : Save} {row : Row} {v : String → Option Value}
    (checked_at : s.kind = .plans → row "checked_at" ≠ .null)
    (cleaned : clean rt s.kind s.input (some row) s.now = .ok v) :
    (∀ k, v k = some ((s.wants k).getD (row k))) ∧ ∀ k, (s.wants k).isSome → k ∈ fields s.kind := by
  have plain : ∀ given, s.input = some given → s.kind ≠ .plans → ∀ k,
      merged given (some row) k = some ((s.wants k).getD (row k)) := by
    intro given input other k
    unfold Save.wants merged
    simp only [input, Option.getD_some, other, false_and, and_false, if_false]
    cases given.lookup k <;> rfl
  have keys : ∀ given, s.input = some given → (∀ k ∈ given.map (·.1), k ∈ fields s.kind) → ∀ k,
      (s.wants k).isSome → k ∈ fields s.kind := by
    intro given input known k some_value
    cases found : given.lookup k with
    | some value => exact known k (List.mem_map_of_mem (mem_of_lookup found))
    | none =>
      unfold Save.wants at some_value
      simp only [input, Option.getD_some, found] at some_value
      split at some_value
      · rename_i time
        obtain ⟨rfl, plans, -⟩ := time
        rw [plans]
        decide
      · cases some_value
  by_cases kind : s.kind = .plans
  · rw [kind] at cleaned
    obtain ⟨given, input, known, -, rfl, -⟩ := clean_plan cleaned
    refine ⟨fun k => ?_, keys given input (kind ▸ known)⟩
    by_cases time : k = "checked_at"
    · subst time
      rw [Function.update_self]
      unfold checkedAt Save.wants present merged
      simp only [input, Option.getD_some, kind, true_and, Option.map_some]
      cases given.lookup "checked_at" with
      | some value =>
        by_cases null : value = .null
        · simp [null]
        · simp [null]
      | none =>
        have there := checked_at kind
        cases given.lookup "price_monthly" with
        | some price => simp [there]
        | none => simp [there]
    · rw [Function.update_of_ne time]
      unfold Save.wants merged
      simp only [input, Option.getD_some, time, false_and, if_false]
      cases given.lookup k <;> rfl
  · unfold clean at cleaned
    cases input : s.input with
    | none => rw [input] at cleaned; cases cleaned
    | some given =>
      rw [input] at cleaned
      obtain ⟨_, known, cleaned⟩ := bind_ok.mp cleaned
      obtain ⟨_, -, cleaned⟩ := bind_ok.mp cleaned
      obtain ⟨_, -, cleaned⟩ := bind_ok.mp cleaned
      obtain ⟨_, -, cleaned⟩ := bind_ok.mp cleaned
      have entry : v = merged given (some row) := by
        cases s_kind : s.kind with
        | plans => exact absurd s_kind kind
        | providers =>
          rw [s_kind] at cleaned
          obtain ⟨_, -, cleaned⟩ := bind_ok.mp cleaned
          obtain ⟨_, -, cleaned⟩ := bind_ok.mp cleaned
          cases cleaned
          rfl
        | promos =>
          rw [s_kind] at cleaned
          obtain ⟨_, -, cleaned⟩ := bind_ok.mp cleaned
          cases cleaned
          rfl
      refine ⟨fun k => entry ▸ plain given input kind k, keys given input fun k mem => ?_⟩
      simpa using refuseFirst_ok.mp known k mem

/-- The fields that a save of an existing entry writes: all of them. -/
theorem columnsOf_all {kind : Kind} {v : String → Option Value} (all : ∀ k, (v k).isSome) :
    columnsOf kind v = fields kind := by
  simp [columnsOf, all]

theorem getEntry_bind {α : Type} (kind : Kind) (id : String) (now : Int) (rest : Row → Client α) :
    getEntry kind id now >>= rest = .stmt none (fun store => store) fun store =>
      match (store.tables kind).get id with
      | some row => rest (out kind now row)
      | none => .fail missing := by
  unfold getEntry
  rw [Session.select_bind, Session.stmt_bind]
  congr 1
  funext store
  cases (store.tables kind).get id <;> rfl

theorem getEntry_stmt (kind : Kind) (id : String) (now : Int) :
    getEntry kind id now = .stmt none (fun store => store) fun store =>
      match (store.tables kind).get id with
      | some row => .ret (out kind now row)
      | none => .fail missing := by
  unfold getEntry
  rw [Session.select_bind]
  congr 1

section Saves

variable {ι : Type} (rt : Runtime) (kind : Kind) (id : String) (saves : ι → Save)

/-- The tables while the entry is there. -/
def EntryThere (tables : Tables) : Prop := TypedRows tables ∧ ((tables kind).get id).isSome

/-- What the save comes to write, from the row it read. -/
def SaveWrites (s : Save) (read : Tables) (write : Tables → Option Tables) : Prop :=
  ∃ row v, (read kind).get id = some row ∧ Fits kind row ∧ clean rt s.kind s.input (some (out kind s.now row)) s.now = .ok v ∧
    write = Store.tablesAfter kind id (columnsOf kind v ++ ["updated_at"]) (stamped v [("updated_at", .num s.now)])

/-- The row holds what the save changes. -/
def Survives (s : Save) (tables : Tables) : Prop :=
  ∃ row, (tables kind).get id = some row ∧ ∀ k value, s.wants k = some value →
    k ∈ fields kind ∧ (column kind k).write value = some (row k)

theorem getEntry_settled {now : Int} {base : Tables} :
    Settled Store.tables (EntryThere kind id) (fun _ _ => True) base (getEntry kind id now) := by
  rw [getEntry_stmt]
  refine ⟨rfl, fun seen good _ => ⟨rfl, ?_⟩⟩
  obtain ⟨row, there⟩ := Option.isSome_iff_exists.mp good.2
  dsimp only
  rw [there]
  trivial

theorem checkOthers_quiet (s : Save) (v : String → Option Value) : Quiet Store.tables (checkOthers s v) := by
  have each : ∀ asked found message, Quiet Store.tables (refuseWhere asked found message) := by
    intro asked found message
    unfold refuseWhere
    split
    · apply (Session.quiet_select found).bind
      intro refused
      cases refused <;> trivial
    · trivial
  exact (each _ _ _).bind fun _ => (each _ _ _).bind fun _ => each _ _ _

theorem rewrite_pending {s : Save} {current : Row} {v : String → Option Value}
    {Writes : (Tables → Option Tables) → Prop} {quits : Tables → Prop}
    (known : Writes (Store.tablesAfter s.kind id (columnsOf s.kind v ++ ["updated_at"])
      (stamped v [("updated_at", .num s.now)]))) (base : Tables) :
    Pending Store.tables id (EntryThere s.kind id) (fun _ _ => True) Writes quits base (rewrite s id current v) := by
  have writes : ∀ base, Pending Store.tables id (EntryThere s.kind id) (fun _ _ => True) Writes quits base
      (Session.execute (some id) (Store.update s.kind id (columnsOf s.kind v ++ ["updated_at"])
        (stamped v [("updated_at", .num s.now)])) >>= fun _ => getEntry s.kind id s.now) :=
    fun base => update_pending known fun _ _ _ _ => getEntry_settled s.kind id
  unfold rewrite
  split
  · exact (record_quiet _ _ _ _ _).pending (fun _ base => writes base) base
  · exact writes base

theorem save_begins {s : Save} (entry : s.kind = kind ∧ s.id = some id) :
    Session.Begins Store.tables id (EntryThere kind id) (fun _ _ => True) (SaveWrites rt kind id s) (fun _ => False)
      (save rt s) := by
  obtain ⟨rfl, same⟩ := entry
  unfold save
  rw [same]
  dsimp only
  unfold saveExisting
  rw [getEntry_bind]
  intro seen good
  refine ⟨rfl, ?_⟩
  obtain ⟨row, there⟩ := Option.isSome_iff_exists.mp good.2
  dsimp only
  rw [there]
  dsimp only
  split
  · trivial
  · cases cleaned : clean rt s.kind s.input (some (out s.kind s.now row)) s.now with
    | error fault => trivial
    | ok v =>
      exact (checkOthers_quiet s v).pending
        (fun _ base => rewrite_pending id ⟨row, v, there, (good.1 _ _ _ there).2, cleaned, rfl⟩ base) seen.tables

/-- The saves of one entry, each in a transaction of its own. -/
def savesFamily (entry : ∀ i, (saves i).kind = kind ∧ (saves i).id = some id) :
    Session.Family ι Store String Fault Row Tables where
  guarded := Store.tables
  lock := id
  good := EntryThere kind id
  later _ _ := True
  atomic _ := true
  client i := save rt (saves i)
  writes i := SaveWrites rt kind id (saves i)
  quits _ _ := False
  done i := Survives kind id (saves i)
  refl _ := trivial
  trans _ _ := trivial
  quit quits _ := quits.elim
  begins i := save_begins rt kind id (entry i)

/-- When a save comes to its UPDATE, the row holds what the save read of it in every field
that a save that has returned changed. -/
def Undisturbed [DecidableEq ι] (o : Watched ι Store String Fault Row) (i : ι) : Prop :=
  o.Writing id i → ∀ seen row, ((o.read i).tables kind).get id = some seen →
    (o.world.rows.tables kind).get id = some row → ∀ j, o.Returned j → ∀ k, ((saves j).wants k).isSome →
      out kind (saves i).now seen k = row k

variable {rt kind id saves}

theorem out_present {now : Int} {row : Row} (fits : Fits kind row) (plans : kind = .plans) :
    out kind now row "checked_at" ≠ .null := by
  subst plans
  exact fits.present "checked_at" (by decide)

/-- What a save's UPDATE leaves in the fields of an entry. -/
theorem save_wrote {s : Save} {seen row new : Row} {v : String → Option Value} (same : s.kind = kind) (fits : Fits kind seen)
    (cleaned : clean rt s.kind s.input (some (out kind s.now seen)) s.now = .ok v)
    (wrote : Wrote (column kind) (columnsOf kind v ++ ["updated_at"]) (required kind)
      (stamped v [("updated_at", .num s.now)]) row new) :
    (∀ k, (s.wants k).isSome → k ∈ fields kind) ∧ ∀ k ∈ fields kind,
      (column kind k).write ((s.wants k).getD (out kind s.now seen k)) = some (new k) := by
  subst same
  obtain ⟨entry, keys⟩ := clean_wants (out_present fits) cleaned
  refine ⟨keys, fun k mem => ?_⟩
  have other : k ≠ "updated_at" := by
    rintro rfl
    revert mem
    cases s.kind <;> decide
  have column := wrote.column k (by
    rw [columnsOf_all fun k => by rw [entry k]; rfl]
    exact List.mem_append_left _ mem)
  rwa [stamped_of_ne other, valueOf, entry k, Option.getD_some] at column

theorem undisturbed_permits {entry : ∀ i, (saves i).kind = kind ∧ (saves i).id = some id}
    (apart : ∀ i j, i ≠ j → ∀ k, ((saves i).wants k).isSome → (saves j).wants k = none) [DecidableEq ι]
    {o : Watched ι Store String Fault Row} {latest : Tables} {i : ι}
    (inv : (savesFamily rt kind id saves entry).Inv o latest) (undisturbed : Undisturbed kind id saves o i) :
    (savesFamily rt kind id saves entry).Permits o i := by
  intro writing write written known result
  obtain ⟨seen, v, read, seen_fits, cleaned, rfl⟩ := known
  obtain ⟨typed, present⟩ := inv.committed_good
  obtain ⟨row, there⟩ := Option.isSome_iff_exists.mp present
  obtain ⟨new, wrote, checked, rfl⟩ := tablesAfter_row there result
  have fits := (typed kind id row there).2
  have new_there : (Function.update o.world.rows.tables kind ((o.world.rows.tables kind).set id new) kind).get id =
      some new := by
    rw [Function.update_self]
    exact Table.get_set there
  obtain ⟨keys, columns⟩ := save_wrote (entry i).1 seen_fits cleaned wrote
  refine ⟨⟨typed.set there (wrote.fits fits checked), Option.isSome_iff_exists.mpr ⟨new, new_there⟩⟩, trivial,
    ⟨new, new_there, fun k value wants => ?_⟩, ?_⟩
  · have mem := keys k (by rw [wants]; rfl)
    have column := columns k mem
    rw [wants] at column
    exact ⟨mem, column⟩
  · rintro j ne (impossible | returned) ⟨row', there', survives⟩
    · cases impossible
    · obtain rfl : row' = row := Option.some.inj (there'.symm.trans there)
      refine ⟨new, new_there, fun k value wants => ?_⟩
      obtain ⟨mem, kept⟩ := survives k value wants
      have unwanted := apart j i ne k (by rw [wants]; rfl)
      have same := undisturbed writing seen row' read there j returned k (by rw [wants]; rfl)
      have column := columns k mem
      rw [unwanted, Option.getD_none, same, fits.kept k] at column
      exact ⟨mem, kept.trans column⟩

/-- Saves of one entry that change different fields: while none of them writes back over
what another changed, all changes survive. -/
theorem saves_survive [DecidableEq ι] (entry : ∀ i, (saves i).kind = kind ∧ (saves i).id = some id)
    (apart : ∀ i j, i ≠ j → ∀ k, ((saves i).wants k).isSome → (saves j).wants k = none) {store : Store}
    (typed : store.Typed) {row : Row} (there : (store.tables kind).get id = some row) (turns : List ι)
    (along : Transition.Along Watched.turn (Undisturbed kind id saves)
      (Watched.start store (fun _ => true) fun i => save rt (saves i)) turns) (i : ι)
    (returned : (Transition.run Watched.turn (Watched.start store (fun _ => true) fun i => save rt (saves i))
      turns).Returned i) :
    Survives kind id (saves i) (Transition.run Watched.turn
      (Watched.start store (fun _ => true) fun i => save rt (saves i)) turns).world.rows.tables := by
  have good : EntryThere kind id store.tables := ⟨typed, Option.isSome_iff_exists.mpr ⟨row, there⟩⟩
  exact ((savesFamily rt kind id saves entry).done_along good
    (fun _ _ _ inv undisturbed => undisturbed_permits apart inv undisturbed) turns along).2 i returned

end Saves

/-! ### Items of one plan -/

/-- The time a stored plan was checked. -/
def checkedOf (id : String) (tables : Tables) : Option Rat :=
  ((tables .plans).get id).bind fun row => (row "checked_at").number

/-- What an item's UPDATE sets a plan's columns to. -/
def Mapping.Mapped.update (v : Mapping.Mapped) (now : Int) (id : String) : Tables → Option Tables :=
  Store.tablesAfter .plans id (itemColumns ++ ["last_seen_at", "updated_at"])
    fun k => ([("last_seen_at", Value.num v.checkedAt), ("updated_at", .num now)].lookup k).getD (v.value k)

section Items

variable {ι : Type} (rt : Runtime) (slug externalId providerId id : String) (bound : Int)

/-- The tables while the plan is there, from a source, and not checked after the newest item. -/
structure PlanThere (tables : Tables) : Prop where
  typed : TypedRows tables
  provider : ∃ row, (tables .providers).find (· "slug" = .str slug) = some (providerId, row)
  stored : ∃ row, planOf (.ofTables tables) providerId externalId = some (id, row) ∧ row "origin" = .str "sources" ∧
    ∃ t, (row "checked_at").number = some t ∧ t ≤ bound

/-- The plan was never checked later before. -/
def NotBefore (earlier tables : Tables) : Prop :=
  ∀ t, checkedOf id earlier = some t → ∃ t', checkedOf id tables = some t' ∧ t ≤ t'

/-- The row holds the item's price, or was checked later. -/
def Priced (v : Mapping.Mapped) (tables : Tables) : Prop :=
  ∃ row t, (tables .plans).get id = some row ∧ (row "checked_at").number = some t ∧
    ((v.checkedAt : Rat) < t ∨ t = v.checkedAt ∧
      (column .plans "price_monthly").write (.num v.priceMonthly) = some (row "price_monthly"))

/-- A delivery of an item of the plan. -/
structure ItemOf (d : Delivery) (v : Mapping.Mapped) : Prop where
  feed : (Domains.sources.lookup (Mapping.textOr (Mapping.get d.item "source_key"))).isSome = false
  kept : (Mapping.get d.item "removed").truthy = false
  mapped : Mapping.mapItem rt d.item = .ok (some v)
  slug : v.provider.slug = slug
  plan : v.externalId = externalId

variable {rt slug externalId providerId id bound}

theorem reprice_pending {d : Delivery} {v : Mapping.Mapped} {row : Row} {good : Tables → Prop}
    {later : Tables → Tables → Prop} {Writes : (Tables → Option Tables) → Prop} {quits : Tables → Prop} {base : Tables}
    (known : Writes (v.update d.now id)) (sources : row "origin" = .str "sources")
    (holds : older v.checkedAt row = true → quits base) :
    Pending Store.tables id good later Writes quits base (reprice v d.now id row) := by
  have writes : ∀ base, Pending Store.tables id good later Writes quits base
      (Session.execute (some id) (Store.update .plans id (itemColumns ++ ["last_seen_at", "updated_at"])
        fun k => ([("last_seen_at", Value.num v.checkedAt), ("updated_at", .num d.now)].lookup k).getD (v.value k)) >>=
          fun _ => (Session.ret .applied : Client Applied)) :=
    fun base => update_pending known fun _ _ _ _ => trivial
  unfold reprice
  split
  · rename_i held
    rcases held with other | older
    · exact absurd sources other
    · exact holds older
  · split
    · exact (record_quiet _ _ _ _ _).pending (fun _ base => writes base) base
    · exact writes base

theorem providerOf_begins {source : Mapping.Source} {d : Delivery} {rest : String → Client Applied}
    {lock : String} {good : Tables → Prop} {later : Tables → Tables → Prop}
    {Writes : Tables → (Tables → Option Tables) → Prop} {quits : Tables → Prop}
    (waits : ∀ seen : Store, good seen.tables → ∃ providerId provider,
      seen.providers.find (· "slug" = .str source.slug) = some (providerId, provider) ∧
      Pending Store.tables lock good later (Writes seen.tables) quits seen.tables (rest providerId)) :
    Session.Begins Store.tables lock good later Writes quits (providerOf source d >>= rest) := by
  unfold providerOf
  intro seen seen_good
  obtain ⟨providerId, provider, known, pending⟩ := waits seen seen_good
  refine ⟨rfl, ?_⟩
  simp only [Session.pure_eq]
  rw [known]
  exact pending

/-- A call of `applyItem` for an item of the plan. -/
theorem applyItem_begins {d : Delivery} {v : Mapping.Mapped} (item : ItemOf rt slug externalId d v) :
    Session.Begins Store.tables id (PlanThere slug externalId providerId id bound) (NotBefore id)
      (fun _ write => write = v.update d.now id) (fun base => ∃ t, checkedOf id base = some t ∧ (v.checkedAt : Rat) < t)
      (applyItem rt d) := by
  obtain ⟨feed, kept, mapped, rfl, rfl⟩ := item
  have program : applyItem rt d = applyPlan v d := by
    unfold applyItem
    dsimp only
    rw [if_neg (Bool.not_eq_true _ ▸ feed), if_neg (Bool.not_eq_true _ ▸ kept), mapped, Session.ofExcept_ok,
      Session.ret_bind]
  rw [program]
  unfold applyPlan
  apply providerOf_begins
  intro seen good
  obtain ⟨provider, found⟩ := good.provider
  refine ⟨providerId, provider, found, ?_⟩
  rw [Session.select_bind]
  refine .inl ⟨rfl, fun read good _ => ⟨rfl, ?_⟩⟩
  obtain ⟨row, stored, sources, -⟩ := good.stored
  have there : planOf read providerId v.externalId = some (id, row) := stored
  dsimp only
  rw [there]
  refine reprice_pending rfl sources fun held => ?_
  have plan := (Table.get_of_find stored).1
  unfold older at held
  split at held
  · rename_i t time
    exact ⟨t, by simp [checkedOf, show (read.tables .plans).get id = some row from plan, time], by simpa using held⟩
  · cases held

variable (providerId id bound) (v : ι → Mapping.Mapped) (deliveries : ι → Delivery) (atomic : ι → Bool)

/-- Calls of `applyItem` for items of one plan. -/
def itemsFamily (items : ∀ i, ItemOf rt slug externalId (deliveries i) (v i)) :
    Session.Family ι Store String Fault Applied Tables where
  guarded := Store.tables
  lock := id
  good := PlanThere slug externalId providerId id bound
  later := NotBefore id
  atomic := atomic
  client i := applyItem rt (deliveries i)
  writes i _ write := write = (v i).update (deliveries i).now id
  quits i base := ∃ t, checkedOf id base = some t ∧ ((v i).checkedAt : Rat) < t
  done i := Priced id (v i)
  refl x t found := ⟨t, found, le_refl t⟩
  trans first second t found := by
    obtain ⟨t', found', le⟩ := first t found
    obtain ⟨t'', found'', le'⟩ := second t' found'
    exact ⟨t'', found'', le.trans le'⟩
  quit held later := by
    obtain ⟨t, found, before⟩ := held
    obtain ⟨t', found', le⟩ := later t found
    obtain ⟨row, there, time⟩ := Option.bind_eq_some_iff.mp found'
    exact ⟨row, t', there, time, .inl (before.trans_le le)⟩
  begins i := applyItem_begins (items i)

/-- When a call comes to its UPDATE, the plan was not checked later than its item. -/
def InOrder [DecidableEq ι] (o : Watched ι Store String Fault Applied) (i : ι) : Prop :=
  o.Writing id i → ∀ row, o.world.rows.plans.get id = some row → older (v i).checkedAt row = false

variable {providerId id bound v deliveries atomic}

theorem update_row {v : Mapping.Mapped} {now : Int} {tables written : Tables} {row : Row}
    (there : (tables .plans).get id = some row) (updated : v.update now id tables = some written) :
    ∃ new, Wrote (column .plans) (itemColumns ++ ["last_seen_at", "updated_at"]) (required .plans)
        (fun k => ([("last_seen_at", Value.num v.checkedAt), ("updated_at", .num now)].lookup k).getD (v.value k)) row new ∧
      Store.checked .plans new = true ∧ written = Function.update tables .plans ((tables .plans).set id new) ∧
      new "checked_at" = .num v.checkedAt ∧
      (column .plans "price_monthly").write (.num v.priceMonthly) = some (new "price_monthly") := by
  obtain ⟨new, wrote, checked, rfl⟩ := tablesAfter_row there updated
  refine ⟨new, wrote, checked, rfl, ?_, wrote.column "price_monthly" (by decide)⟩
  have column := wrote.column "checked_at" (by decide)
  have type : Catalog.column .plans "checked_at" = .bigint := by simp [Catalog.column]
  rw [type] at column
  exact (write_bigint column).2

theorem inOrder_permits [DecidableEq ι] {items : ∀ i, ItemOf rt slug externalId (deliveries i) (v i)}
    (distinct : ∀ i j, (v i).checkedAt = (v j).checkedAt → i = j) (newest : ∀ i, (v i).checkedAt ≤ bound)
    {o : Watched ι Store String Fault Applied} {latest : Tables} {i : ι}
    (inv : (itemsFamily providerId id bound v deliveries atomic items).Inv o latest)
    (inOrder : InOrder id v o i) :
    (itemsFamily providerId id bound v deliveries atomic items).Permits o i := by
  rintro writing write written rfl result
  have good : PlanThere slug externalId providerId id bound o.world.rows.tables := inv.committed_good
  have result : (v i).update (deliveries i).now id o.world.rows.tables = some written := result
  obtain ⟨typed, provider, row, stored, sources, t, time, before⟩ := good
  obtain ⟨there, wanted⟩ := Table.get_of_find stored
  have there : (o.world.rows.tables .plans).get id = some row := there
  obtain ⟨new, wrote, checked, rfl, new_time, price⟩ := update_row there result
  have new_there : (Function.update o.world.rows.tables .plans ((o.world.rows.tables .plans).set id new) .plans).get id =
      some new := by
    rw [Function.update_self]
    exact Table.get_set there
  have onward : t ≤ (v i).checkedAt := by
    have held := inOrder writing row there
    simpa [older, time] using held
  have other : ∀ k, k ∉ itemColumns ++ ["last_seen_at", "updated_at"] → new k = row k := wrote.other
  have still : planOf (.ofTables (Function.update o.world.rows.tables .plans
      ((o.world.rows.tables .plans).set id new))) providerId externalId = some (id, new) := by
    unfold planOf Store.ofTables Store.plans at stored ⊢
    dsimp only at stored ⊢
    rw [Function.update_self]
    refine Table.find_set stored ?_
    simpa [other "provider_id" (by decide), other "external_id" (by decide)] using wanted
  refine ⟨⟨typed.set there (wrote.fits (typed _ _ _ there).2 checked), ?_, new, still,
    (other "origin" (by decide)).trans sources, (v i).checkedAt, by simp [new_time, Value.number],
    by exact_mod_cast newest i⟩, ?_, ?_, ?_⟩
  · obtain ⟨provider, found⟩ := provider
    refine ⟨provider, ?_⟩
    rw [Function.update_of_ne (by decide)]
    exact found
  · intro s found
    refine ⟨(v i).checkedAt, ?_, ?_⟩
    · rw [checkedOf, new_there]
      simp [new_time, Value.number]
    have found : checkedOf id o.world.rows.tables = some s := found
    have same : checkedOf id o.world.rows.tables = some t := by
      simp [checkedOf, show (o.world.rows.tables .plans).get id = some row from there, time]
    rw [same] at found
    exact Option.some.inj found ▸ onward
  · exact ⟨new, (v i).checkedAt, new_there, by simp [new_time, Value.number], .inr ⟨rfl, price⟩⟩
  · rintro j ne - ⟨row', t', there', time', held⟩
    obtain rfl : row' = row := Option.some.inj (there'.symm.trans there)
    obtain rfl : t' = t := Option.some.inj (time'.symm.trans time)
    refine ⟨new, (v i).checkedAt, new_there, by simp [new_time, Value.number], .inl ?_⟩
    rcases held with before | ⟨same, -⟩
    · exact before.trans_le onward
    · refine lt_of_le_of_ne (same ▸ onward) fun equal => ne (distinct j i ?_)
      exact_mod_cast equal

/-- Items of one plan with different times: while none writes over a later one, the newest
is what stays. -/
theorem items_newest [DecidableEq ι] (items : ∀ i, ItemOf rt slug externalId (deliveries i) (v i))
    (distinct : ∀ i j, (v i).checkedAt = (v j).checkedAt → i = j) {newest : ι}
    (latest : ∀ i, (v i).checkedAt ≤ (v newest).checkedAt) {store : Store} (typed : store.Typed) {row : Row}
    (stored : planAt store slug externalId = some (id, row)) (sources : row "origin" = .str "sources")
    (before : older (v newest).checkedAt row = false) (turns : List ι)
    (along : Transition.Along Watched.turn (InOrder id v)
      (Watched.start store atomic fun i => applyItem rt (deliveries i)) turns)
    (returned : (Transition.run Watched.turn (Watched.start store atomic fun i => applyItem rt (deliveries i))
      turns).Returned newest) :
    ∃ row, planAt (Transition.run Watched.turn (Watched.start store atomic fun i => applyItem rt (deliveries i))
        turns).world.rows slug externalId = some (id, row) ∧
      (column .plans "price_monthly").write (.num (v newest).priceMonthly) = some (row "price_monthly") := by
  obtain ⟨⟨providerId, provider⟩, found, there⟩ := Option.bind_eq_some_iff.mp stored
  obtain ⟨o, shows⟩ := (typed .plans id row (Table.get_of_find there).1).2.shows
  have good : PlanThere slug externalId providerId id (v newest).checkedAt store.tables := by
    refine ⟨typed, ⟨provider, found⟩, row, there, sources, o.time, by simp [shows.time, Value.number], ?_⟩
    simpa [older, shows.time, Value.number] using before
  obtain ⟨still, done⟩ := (itemsFamily providerId id (v newest).checkedAt v deliveries atomic items).done_along good
    (fun _ _ _ inv inOrder => inOrder_permits distinct latest inv inOrder) turns along
  obtain ⟨-, ⟨provider, found⟩, row, there, -, t, time, le⟩ := still
  obtain ⟨row', t', there', time', held⟩ := done newest returned
  obtain rfl : row' = row := Option.some.inj (there'.symm.trans (Table.get_of_find there).1)
  obtain rfl : t' = t := Option.some.inj (time'.symm.trans time)
  refine ⟨row', planAt_of found there, ?_⟩
  rcases held with later | ⟨-, price⟩
  · exact absurd later (not_lt.mpr le)
  · exact price

end Items

/-- Of saves of one entry that change different fields, run together in any order of their
statements, whatever has returned survives, while no UPDATE writes back over what a save
that has returned changed after the writer's read. Of calls with items of one plan with
different times, the newest item's price is stored once its call has returned, while no
UPDATE comes to a plan that was checked later than its item. -/
theorem concurrent_edits_kept (rt : Runtime) (store : Store) (typed : store.Typed) :
    (∀ (ι : Type) [DecidableEq ι] (kind : Kind) (id : String) (row : Row) (saves : ι → Save) (turns : List ι),
      (store.tables kind).get id = some row → (∀ i, (saves i).kind = kind ∧ (saves i).id = some id) →
      (∀ i j, i ≠ j → ∀ k, ((saves i).wants k).isSome → (saves j).wants k = none) →
      Transition.Along Watched.turn (Undisturbed kind id saves)
        (Watched.start store (fun _ => true) fun i => save rt (saves i)) turns →
      ∀ i, (Transition.run Watched.turn (Watched.start store (fun _ => true) fun i => save rt (saves i))
          turns).Returned i →
        Survives kind id (saves i) (Transition.run Watched.turn
          (Watched.start store (fun _ => true) fun i => save rt (saves i)) turns).world.rows.tables) ∧
    (∀ (ι : Type) [DecidableEq ι] (slug externalId id : String) (row : Row) (deliveries : ι → Delivery)
      (v : ι → Mapping.Mapped) (atomic : ι → Bool) (newest : ι) (turns : List ι),
      (∀ i, ItemOf rt slug externalId (deliveries i) (v i)) →
      (∀ i j, (v i).checkedAt = (v j).checkedAt → i = j) → (∀ i, (v i).checkedAt ≤ (v newest).checkedAt) →
      planAt store slug externalId = some (id, row) → row "origin" = .str "sources" →
      older (v newest).checkedAt row = false →
      Transition.Along Watched.turn (InOrder id v)
        (Watched.start store atomic fun i => applyItem rt (deliveries i)) turns →
      (Transition.run Watched.turn (Watched.start store atomic fun i => applyItem rt (deliveries i))
        turns).Returned newest →
      ∃ row, planAt (Transition.run Watched.turn (Watched.start store atomic fun i => applyItem rt (deliveries i))
          turns).world.rows slug externalId = some (id, row) ∧
        (column .plans "price_monthly").write (.num (v newest).priceMonthly) = some (row "price_monthly")) :=
  ⟨fun _ _ _ _ _ _ turns there entry apart along i returned => saves_survive entry apart typed there turns along i returned,
    fun _ _ _ _ _ _ _ _ _ _ turns items distinct latest stored sources before along returned =>
      items_newest items distinct latest typed stored sources before turns along returned⟩

/-- Two saves of a provider: its name, and its description. -/
def providerSaves (name : Bool) : Save where
  kind := .providers
  input := some [if name then ("name", .str "Acme Cloud") else ("description", .str "Servers")]
  id := some "prv_1"
  actor := "usr_1"
  now := 10
  newId := "prv_2"

/-- What remains of the saves, in an order of their statements. -/
def savedTogether (turns : List Bool) : Watched Bool Store String Fault Row :=
  Transition.run Watched.turn (Watched.start staffStore (fun _ => true) fun i => save exactRuntime (providerSaves i)) turns

def hasReturned {α : Type} (o : Watched Bool Store String Fault α) (i : Bool) : Bool :=
  match o.world.phase i with
  | .returned _ => true
  | _ => false

theorem returned_iff {α : Type} (o : Watched Bool Store String Fault α) (i : Bool) :
    o.Returned i ↔ hasReturned o i = true := by
  unfold Watched.Returned hasReturned
  cases o.world.phase i with
  | returned result => exact iff_of_true ⟨result, rfl⟩ rfl
  | running => simp
  | failed => simp

/-- The client is at its write. -/
def atWrite (o : Watched Bool Store String Fault Row) (i : Bool) : Bool :=
  match o.world.phase i with
  | .running _ _ _ (.stmt (.some _) _ _) => true
  | _ => false

/-- What can be checked of every turn of the saves. -/
def undisturbed (o : Watched Bool Store String Fault Row) (i : Bool) : Bool :=
  ! atWrite o i || [true, false].all fun j => ! hasReturned o j || ["name", "description"].all fun k =>
    ((o.read i).tables .providers).get "prv_1" |>.all fun seen =>
      (o.world.rows.tables .providers).get "prv_1" |>.all fun row => seen k = row k

theorem providerSaves_wants {name : Bool} {k : String} (wants : ((providerSaves name).wants k).isSome) :
    k = if name then "name" else "description" := by
  unfold Save.wants providerSaves at wants
  cases name with
  | true =>
    by_cases mine : k = "name"
    · exact mine
    · have other : (k == "name") = false := by simpa using mine
      simp [List.lookup_cons, other] at wants
  | false =>
    by_cases mine : k = "description"
    · exact mine
    · have other : (k == "description") = false := by simpa using mine
      simp [List.lookup_cons, other] at wants

theorem undisturbed_of {o : Watched Bool Store String Fault Row} {i : Bool} (checked : undisturbed o i = true) :
    Undisturbed .providers "prv_1" providerSaves o i := by
  rintro ⟨atomic, turns, wrote, effect, next, phase, -⟩ seen row read there j returned k wants
  have writing : atWrite o i = true := by simp [atWrite, phase]
  have mem : k = "name" ∨ k = "description" := by
    have mine := providerSaves_wants wants
    cases j with
    | true => exact .inl mine
    | false => exact .inr mine
  simp only [undisturbed, writing, Bool.not_true, Bool.false_or, List.all_eq_true, Bool.or_eq_true,
    Bool.not_eq_true'] at checked
  rcases checked j (by cases j <;> simp) with waits | same
  · rw [(returned_iff o j).mp returned] at waits
    cases waits
  · have kept := same k (by simpa using mem)
    rw [read, there] at kept
    have plain : seen k = row k := by simpa using kept
    exact plain

/-- The items of two days, to be applied together over a plan of the first. -/
def together (atomic : Bool → Bool) (turns : List Bool) : Watched Bool Store String Fault Applied :=
  Transition.run Watched.turn (Watched.start (appliedOnce (planItem 5)) atomic fun later =>
    applyItem exactRuntime (if later then secondDelivery (planItemOn "2026-01-02T00:00:00Z" 6)
      else firstDelivery (planItemOn "2026-01-01T00:00:00Z" 7))) turns

def dayOf (later : Bool) : Int := if later then 1767312000000 else 1767225600000

/-- What can be checked of every turn of the calls. -/
def inOrder (o : Watched Bool Store String Fault Applied) (i : Bool) : Bool :=
  (o.world.rows.plans.get "row_2").all fun row => ! older (dayOf i) row

theorem inOrder_of {v : Bool → Mapping.Mapped} (days : ∀ i, (v i).checkedAt = dayOf i)
    {o : Watched Bool Store String Fault Applied} {i : Bool} (checked : inOrder o i = true) : InOrder "row_2" v o i := by
  intro _ row there
  unfold inOrder at checked
  rw [there] at checked
  rw [days]
  simpa using checked

/-- The plan that the first item left. -/
def firstPlan (store : Store) : Bool :=
  match planAt store "linode" "g6-nanode-1" with
  | some (id, row) => id = "row_2" && row "origin" = .str "sources" && ! older 1767312000000 row
  | none => false

theorem firstPlan_stored {store : Store} (holds : firstPlan store = true) :
    ∃ row, planAt store "linode" "g6-nanode-1" = some ("row_2", row) ∧ row "origin" = .str "sources" ∧
      older 1767312000000 row = false := by
  unfold firstPlan at holds
  split at holds
  · rename_i id row stored
    simp only [Bool.and_eq_true, decide_eq_true_eq, Bool.not_eq_true'] at holds
    obtain ⟨⟨rfl, sources⟩, newer⟩ := holds
    exact ⟨row, stored, sources, newer⟩
  · cases holds

theorem PlanItem.itemOf {rt : Runtime} {slug externalId currency : String} {d : Delivery} {v : Mapping.Mapped}
    (item : PlanItem rt slug externalId currency d v) : ItemOf rt slug externalId d v :=
  ⟨item.feed, item.kept, item.mapped, item.slug, item.plan⟩

/-- One after the other, everything survives. -/
theorem edits_one_by_one :
    Survives .providers "prv_1" (providerSaves true)
      (savedTogether [true, true, true, true, true, false, false, false, false, false]).world.rows.tables ∧
    ∃ row, planAt (together id [false, false, false, false, false, true, true, true, true, true]).world.rows "linode"
      "g6-nanode-1" = some ("row_2", row) ∧ (column .plans "price_monthly").write (.num 6) = some (row "price_monthly") := by
  constructor
  · refine (concurrent_edits_kept exactRuntime staffStore staffStore_typed).1 Bool .providers "prv_1" _ providerSaves
      [true, true, true, true, true, false, false, false, false, false] rfl (fun _ => ⟨rfl, rfl⟩) ?_
      (Transition.along_mono (fun _ _ => undisturbed_of) _ ?_) true ((returned_iff _ _).mpr ?_)
    · intro i j ne k wants
      have mine := providerSaves_wants wants
      cases theirs : (providerSaves j).wants k with
      | none => rfl
      | some value =>
        have other : k = if j then "name" else "description" := providerSaves_wants (by rw [theirs]; rfl)
        rw [mine] at other
        cases i <;> cases j <;> simp at ne other
    · decide +kernel
    · decide +kernel
  · obtain ⟨v₁, mapped₁, holds₁⟩ := exists_of_gives (Mapping.mapItem exactRuntime (planItemOn "2026-01-01T00:00:00Z" 7))
      (linodePlan 7 1767225600000) (by decide +kernel)
    obtain ⟨v₂, mapped₂, holds₂⟩ := exists_of_gives (Mapping.mapItem exactRuntime (planItemOn "2026-01-02T00:00:00Z" 6))
      (linodePlan 6 1767312000000) (by decide +kernel)
    obtain ⟨earlier, seen₁, -⟩ := @linodePlan_item _ 7 _ 1767400000000 (by decide) _ mapped₁ holds₁
    obtain ⟨later, seen₂, price₂⟩ := @linodePlan_item _ 6 _ 1767500000000 (by decide) _ mapped₂ holds₂
    have typed : (appliedOnce (planItem 5)).Typed :=
      (Action.deliver (firstDelivery (planItem 5)) false).run_typed exactRuntime staffStore_typed
    obtain ⟨row, stored, sources, newer⟩ := @firstPlan_stored (appliedOnce (planItem 5)) (by decide +kernel)
    have days : ∀ i, (if i then v₂ else v₁).checkedAt = dayOf i := by
      intro i
      cases i with
      | true => exact seen₂
      | false => exact seen₁
    rw [← price₂]
    refine (concurrent_edits_kept exactRuntime (appliedOnce (planItem 5)) typed).2 Bool "linode" "g6-nanode-1" "row_2" row
      (fun later => if later then secondDelivery (planItemOn "2026-01-02T00:00:00Z" 6)
        else firstDelivery (planItemOn "2026-01-01T00:00:00Z" 7)) (fun i => if i then v₂ else v₁) id true
      [false, false, false, false, false, true, true, true, true, true] ?_ ?_ ?_ stored sources ?_
      (Transition.along_mono (fun _ _ => inOrder_of days) _ ?_) ((returned_iff _ _).mpr ?_)
    · intro i
      cases i with
      | true => exact later.itemOf
      | false => exact earlier.itemOf
    · intro i j same
      rw [days, days] at same
      revert i j
      decide
    · intro i
      rw [days, days]
      revert i
      decide
    · rw [if_pos rfl, seen₂]
      exact newer
    · decide +kernel
    · decide +kernel

/-- Both saves return and the name is the old one; both calls return and the price is the
earlier item's. -/
theorem edits_overwritten :
    (hasReturned (savedTogether [false, true, true, true, true, true, false, false, false, false]) true = true ∧
      hasReturned (savedTogether [false, true, true, true, true, true, false, false, false, false]) false = true ∧
      ((savedTogether [false, true, true, true, true, true, false, false, false, false]).world.rows.providers.get
        "prv_1").map (· "name") = some (.str "Acme")) ∧
    (hasReturned (together id [false, false, false, true, true, true, true, true, false, false]) true = true ∧
      hasReturned (together id [false, false, false, true, true, true, true, true, false, false]) false = true ∧
      ((together id [false, false, false, true, true, true, true, true, false, false]).world.rows.plans.get
        "row_2").map (· "price_monthly") = some (.decimal 7)) := by
  decide +kernel

end OpenVibeHost.Catalog
