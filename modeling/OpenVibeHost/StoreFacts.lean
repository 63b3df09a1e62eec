import OpenVibeHost.CatalogStore

/-! What the statements of the catalog's store do, and what its programs come to when
nobody interrupts them. -/
namespace OpenVibeHost.Catalog

/-! ### Columns -/

section
variable {type : String → Column} {columns required : List String} {value : String → Value} {row new : Row}

/-- What is written into a column is what the column makes of it; the others stay. -/
structure Wrote (type : String → Column) (columns required : List String) (value : String → Value)
    (row new : Row) : Prop where
  column : ∀ k ∈ columns, (type k).write (value k) = some (new k)
  present : ∀ k ∈ columns, k ∈ required → value k ≠ .null
  other : ∀ k, k ∉ columns → new k = row k

theorem wrote (ok : written type columns required value row = .ok new) :
    Wrote type columns required value row new := by
  unfold written at ok
  split at ok
  · cases ok
  · rename_i accepted
    cases ok
    have each : ∀ k ∈ columns, ((type k).write (value k)).isSome ∧ (k ∈ required → value k ≠ .null) := by
      intro k mem
      have fine := List.find?_eq_none.mp accepted k mem
      simp only [Bool.or_eq_true, Bool.and_eq_true, List.contains_iff_mem, beq_iff_eq, not_or, not_and,
        Bool.not_eq_true, Option.isNone_eq_false_iff] at fine
      exact fine
    refine ⟨fun k mem => ?_, fun k mem => (each k mem).2, fun k other => by simp [other]⟩
    obtain ⟨kept, written⟩ := Option.isSome_iff_exists.mp (each k mem).1
    simp [mem, written]

/-- A row is written when every column takes its value. -/
theorem written_of (accepts : ∀ k ∈ columns, ((type k).write (value k)).isSome)
    (present : ∀ k ∈ columns, k ∈ required → value k ≠ .null) :
    ∃ new, written type columns required value row = .ok new := by
  unfold written
  split
  · rename_i k first
    have mem := List.mem_of_find?_eq_some first
    have refused := List.find?_some first
    simp only [Bool.or_eq_true, Bool.and_eq_true, List.contains_iff_mem, beq_iff_eq,
      Option.isNone_iff_eq_none] at refused
    rcases refused with none | ⟨needed, null⟩
    · simpa [none] using accepts k mem
    · exact absurd null (present k mem needed)
  · exact ⟨_, rfl⟩

end

section
attribute [local simp] Column.write

/-- What a price column keeps of a number. -/
theorem write_fixed {digits places : Nat} {x : Rat} {kept : Value}
    (wrote : (Column.fixed digits places).write (.num x) = some kept) :
    storableFixed digits places x ∧ kept = .decimal (Decimals.rounded places x) := by
  simp only [Column.write, Option.ite_none_right_eq_some, Option.some.injEq] at wrote
  exact ⟨wrote.1, wrote.2.symm⟩

theorem write_text {text : String} {kept : Value} (wrote : Column.text.write (.str text) = some kept) :
    storableText text ∧ kept = .str text := by
  simp only [Column.write, Option.ite_none_right_eq_some, Option.some.injEq] at wrote
  exact ⟨wrote.1, wrote.2.symm⟩

theorem write_bigint {x : Rat} {kept : Value} (wrote : Column.bigint.write (.num x) = some kept) :
    storableInteger 64 x ∧ kept = .num x := by
  simp only [Column.write, Option.ite_none_right_eq_some, Option.some.injEq] at wrote
  exact ⟨wrote.1, wrote.2.symm⟩

/-- A time that a Date holds fits a bigint. -/
theorem storable_time {time : Int} (clock : time.natAbs ≤ 8640000000000000) : storableInteger 64 time = true := by
  have low : (-(2 ^ (64 - 1)) : Rat) ≤ time := by
    have bound : (-(2 ^ (64 - 1)) : Int) ≤ time := by omega
    exact_mod_cast bound
  have high : (time : Rat) < 2 ^ (64 - 1) := by
    have bound : time < (2 ^ (64 - 1) : Int) := by omega
    exact_mod_cast bound
  simp only [storableInteger, Rat.den_intCast, low, high, and_self, decide_true]

theorem write_fixed_of {digits places : Nat} {x : Rat} (storable : storableFixed digits places x) :
    (Column.fixed digits places).write (.num x) = some (.decimal (Decimals.rounded places x)) ∧
      (Column.fixed digits places).write (.decimal x) = some (.decimal (Decimals.rounded places x)) := by
  simp [Column.write, storable]

theorem storableFixed_rounded {digits places : Nat} {x : Rat} (storable : storableFixed digits places x) :
    storableFixed digits places (Decimals.rounded places x) := by
  simp only [storableFixed, Bool.decide_and, Bool.and_eq_true, decide_eq_true_eq] at storable ⊢
  exact ⟨Decimals.rounded_nonneg storable.1, by rw [Decimals.rounded_rounded storable.1]; exact storable.2⟩

/-- Only NULL is kept as NULL. -/
theorem write_null {c : Column} {value : Value} (wrote : c.write value = some .null) : value = .null := by
  unfold Column.write at wrote
  split at wrote <;> simp_all

/-- A column keeps what it has kept. -/
theorem write_kept {c : Column} {value kept : Value} (wrote : c.write value = some kept) :
    c.write kept = some kept := by
  have rounded {digits places : Nat} {x : Rat} (storable : storableFixed digits places x) :
      (Column.fixed digits places).write (.decimal (Decimals.rounded places x)) =
        some (.decimal (Decimals.rounded places x)) := by
    have nonneg : 0 ≤ x := by
      simp only [storableFixed, Bool.decide_and, Bool.and_eq_true, decide_eq_true_eq] at storable
      exact storable.1
    rw [(write_fixed_of (storableFixed_rounded storable)).2, Decimals.rounded_rounded nonneg]
  unfold Column.write at wrote
  -- A column that takes its value keeps it as it is, but for the numbers that it rounds.
  split at wrote <;> first
    | cases wrote; simp [Column.write]
    | (split at wrote <;> first
        | cases wrote; exact rounded (by assumption)
        | cases wrote; simp [Column.write, *]
        | cases wrote)
    | cases wrote

/-- What a stored row holds: values as its columns keep them, no NULL where a column has
none, and nothing that a CHECK refuses. -/
structure Fits (kind : Kind) (row : Row) : Prop where
  kept : ∀ k, (column kind k).write (row k) = some (row k)
  present : ∀ k ∈ required kind, row k ≠ .null
  checked : Store.checked kind row = true

/-- A row that is given by its columns. -/
theorem fits_of {kind : Kind} {columns : List (String × Value)}
    (kept : ∀ entry ∈ columns, (column kind entry.1).write entry.2 = some entry.2)
    (present : ∀ k ∈ required kind, Row.of columns k ≠ .null)
    (checked : Store.checked kind (Row.of columns) = true) : Fits kind (Row.of columns) := by
  refine ⟨fun k => ?_, present, checked⟩
  unfold Row.of
  cases found : columns.lookup k with
  | none => simp [Column.write]
  | some value =>
    exact kept (k, value) (by
      obtain ⟨before, after, rfl, -⟩ := List.lookup_eq_some_iff.mp found
      exact List.mem_append_right _ List.mem_cons_self)

/-- A stored plan's price: a number of four places. -/
theorem Fits.price {row : Row} (fits : Fits .plans row) :
    ∃ p, row "price_monthly" = .decimal p ∧ storableFixed 12 4 p ∧ Decimals.Exact 4 p := by
  have kept := fits.kept "price_monthly"
  have present := fits.present "price_monthly" (by decide)
  have type : column .plans "price_monthly" = .fixed 12 4 := by simp [column]
  rw [type] at kept
  cases value : row "price_monthly" with
  | null => exact absurd value present
  | decimal p =>
    rw [value] at kept
    simp only [Column.write, Option.ite_none_right_eq_some, Option.some.injEq, Value.decimal.injEq] at kept
    exact ⟨p, rfl, kept.1, kept.2⟩
  | num p => simp [value, Column.write] at kept
  | bool b => simp [value, Column.write] at kept
  | str s => simp [value, Column.write] at kept
  | texts items => simp [value, Column.write] at kept
  | object => simp [value, Column.write] at kept

end

/-- A row that is written over a stored one can be stored. -/
theorem Wrote.fits {kind : Kind} {columns : List String} {value : String → Value} {row new : Row}
    (wrote : Wrote (Catalog.column kind) columns (required kind) value row new) (fits : Fits kind row)
    (checked : Store.checked kind new = true) : Fits kind new := by
  refine ⟨?_, ?_, checked⟩
  · intro k
    by_cases mem : k ∈ columns
    · exact write_kept (wrote.column k mem)
    · rw [wrote.other k mem]
      exact fits.kept k
  · intro k needed
    by_cases mem : k ∈ columns
    · intro null
      exact wrote.present k mem needed (write_null (null ▸ wrote.column k mem))
    · rw [wrote.other k mem]
      exact fits.present k needed

/-! ### Statements -/

namespace Store

variable {store store' : Store} {kind : Kind} {id : String}

@[simp] theorem tables_withTable (table : Table Row) : (store.withTable kind table).tables kind = table := by
  simp [withTable]

theorem plans_withTable (table : Table Row) : (store.withTable .plans table).plans = table :=
  tables_withTable table

theorem providers_withTable (table : Table Row) : (store.withTable .providers table).providers = table :=
  tables_withTable table

theorem tables_withTable_ne {other : Kind} (ne : other ≠ kind) (table : Table Row) :
    (store.withTable kind table).tables other = store.tables other := by
  simp [withTable, Function.update_of_ne ne]

@[simp] theorem priceChanges_withTable (table : Table Row) :
    (store.withTable kind table).priceChanges = store.priceChanges := rfl

@[simp] theorem tldPrices_withTable (table : Table Row) :
    (store.withTable kind table).tldPrices = store.tldPrices := rfl

@[simp] theorem tldChanges_withTable (table : Table Row) :
    (store.withTable kind table).tldChanges = store.tldChanges := rfl

/-- What an UPDATE of a row that is there does, where it does not fail. -/
theorem update_ok {columns : List String} {value : String → Value} {row : Row}
    (there : (store.tables kind).get id = some row)
    (updated : update kind id columns value store = .ok store') :
    ∃ new, written (column kind) columns (required kind) value row = .ok new ∧
      checked kind new = true ∧ store' = store.withTable kind ((store.tables kind).set id new) := by
  unfold update at updated
  rw [there] at updated
  cases result : written (column kind) columns (required kind) value row with
  | error fault => simp [result, bind, Except.bind] at updated
  | ok new =>
    simp only [result, bind, Except.bind] at updated
    by_cases fine : checked kind new = true
    · refine ⟨new, rfl, fine, ?_⟩
      simp only [fine, Bool.not_true, Bool.false_eq_true, if_false, pure, Except.pure] at updated
      split at updated
      · cases updated
      · exact (Except.ok.inj updated).symm
    · simp [fine, throw, throwThe, MonadExceptOf.throw] at updated

/-- An UPDATE that leaves the unique columns alone succeeds where its row can be stored. -/
theorem update_of {columns : List String} {value : String → Value} {row new : Row}
    (there : (store.tables kind).get id = some row)
    (made : written (column kind) columns (required kind) value row = .ok new)
    (fine : checked kind new = true) (apart : columns.any (· ∈ unique kind) = false) :
    update kind id columns value store = .ok (store.withTable kind ((store.tables kind).set id new)) := by
  simp [update, there, made, fine, apart, bind, Except.bind, pure, Except.pure]

/-- An UPDATE looks at its own table alone. -/
theorem update_same {other : Store} {columns : List String} {value : String → Value}
    (same : other.tables kind = store.tables kind)
    (updated : update kind id columns value store = .ok store') :
    ∃ store'', update kind id columns value other = .ok store'' ∧ store''.tables kind = store'.tables kind := by
  unfold update clashes at *
  rw [same]
  cases there : (store.tables kind).get id with
  | none =>
    simp only [there, Except.ok.injEq] at updated
    exact ⟨other, rfl, updated ▸ same⟩
  | some row =>
    simp only [there, bind, Except.bind] at updated ⊢
    cases result : written (column kind) columns (required kind) value row with
    | error fault => simp [result] at updated
    | ok new =>
      simp only [result, throw, throwThe, MonadExceptOf.throw, pure, Except.pure] at updated ⊢
      split at updated
      · cases updated
      · rename_i fine
        rw [if_neg fine]
        split at updated
        · cases updated
        · rename_i apart
          rw [if_neg apart]
          cases updated
          exact ⟨_, rfl, by simp⟩

/-- What an INSERT does, where it does not fail. -/
theorem insert_ok {columns : List String} {value : String → Value}
    (inserted : insert kind id columns value store = .ok store') :
    ∃ row table, storableText id = true ∧
      written (column kind) columns (required kind) value (default kind) = .ok row ∧
      (∀ k ∈ required kind, row k ≠ .null) ∧ checked kind row = true ∧
      (store.tables kind).add id row = some table ∧ store' = store.withTable kind table := by
  unfold insert at inserted
  by_cases text : storableText id = true
  · cases result : written (column kind) columns (required kind) value (default kind) with
    | error fault => simp [result, text, bind, Except.bind] at inserted
    | ok row =>
      simp only [result, text, Bool.not_true, Bool.false_eq_true, if_false, bind, Except.bind, throw, throwThe,
        MonadExceptOf.throw, pure, Except.pure] at inserted
      split at inserted
      · cases inserted
      · rename_i present
        by_cases fine : checked kind row = true
        · simp only [fine, Bool.not_true, Bool.false_eq_true, if_false] at inserted
          split at inserted
          · cases inserted
          · cases added : (store.tables kind).add id row with
            | none => simp [added] at inserted
            | some table =>
              simp only [added] at inserted
              refine ⟨row, table, text, rfl, ?_, fine, added, (Except.ok.inj inserted).symm⟩
              simpa using present
        · simp [fine] at inserted
  · simp [text, throw, throwThe, MonadExceptOf.throw, bind, Except.bind] at inserted

/-- An INSERT succeeds where its row can be stored and its keys are free. -/
theorem insert_of {columns : List String} {value : String → Value} {row : Row} (text : storableText id = true)
    (made : written (column kind) columns (required kind) value (default kind) = .ok row)
    (present : ∀ k ∈ required kind, row k ≠ .null) (fine : checked kind row = true)
    (alone : store.clashes kind id row = false) (fresh : (store.tables kind).get id = none) :
    ∃ table, (store.tables kind).add id row = some table ∧
      insert kind id columns value store = .ok (store.withTable kind table) := by
  obtain ⟨table, added⟩ : ∃ table, (store.tables kind).add id row = some table :=
    Table.add_of_get_none fresh
  refine ⟨table, added, ?_⟩
  have no_null : ((required kind).any fun k => row k = .null) = false := by simpa using present
  simp [insert, text, made, no_null, fine, alone, added, bind, Except.bind, pure, Except.pure]

/-- A plan has one change at a time: a second row with its key is dropped. -/
def taken (store : Store) (c : PriceChange) : Prop :=
  ∃ d ∈ store.priceChanges, d.planId = c.planId ∧ d.observedAt = c.observedAt

theorem recordChange_ok {observedAt currency before after : Value}
    (recorded : recordChange id observedAt currency before after store = .ok store') :
    ∃ c, changeOf id observedAt currency before after = .ok c ∧
      (store' = store ∧ store.taken c ∨
        store' = { store with priceChanges := store.priceChanges ++ [c] } ∧ ¬ store.taken c) := by
  unfold recordChange at recorded
  cases row : changeOf id observedAt currency before after with
  | error fault => simp [row, bind, Except.bind] at recorded
  | ok c =>
    refine ⟨c, rfl, ?_⟩
    simp only [row, bind, Except.bind, pure, Except.pure] at recorded
    split at recorded
    · rename_i before
      exact .inl ⟨(Except.ok.inj recorded).symm, by simpa [taken] using before⟩
    · rename_i fresh
      exact .inr ⟨(Except.ok.inj recorded).symm, by simpa [taken] using fresh⟩

theorem recordChange_of {observedAt currency before after : Value} {c : PriceChange}
    (row : changeOf id observedAt currency before after = .ok c) :
    ∃ written, recordChange id observedAt currency before after store = .ok written := by
  simp only [recordChange, row, bind, Except.bind, pure, Except.pure]
  split
  · exact ⟨_, rfl⟩
  · exact ⟨_, rfl⟩

/-- No CHECK looks at the time of an update. -/
theorem checked_congr {row new : Row} (same : ∀ k, k ≠ "updated_at" → new k = row k) :
    checked kind new = checked kind row := by
  cases kind with
  | providers => simp [checked, same]
  | plans => simp [checked, same]
  | promos => simp [checked, same, Row.number]

/-- Every row holds what its columns keep, under an id that is a text. -/
def Typed (store : Store) : Prop :=
  ∀ kind id row, (store.tables kind).get id = some row → storableText id = true ∧ Fits kind row

theorem Typed.set {row new : Row} (typed : store.Typed) (there : (store.tables kind).get id = some row)
    (fits : Fits kind new) : (store.withTable kind ((store.tables kind).set id new)).Typed := by
  intro other key found here
  by_cases same : other = kind
  · subst same
    rw [tables_withTable] at here
    by_cases at_id : key = id
    · subst at_id
      rw [Table.get_set there] at here
      exact Option.some.inj here ▸ ⟨(typed other key row there).1, fits⟩
    · rw [Table.get_set_ne at_id] at here
      exact typed other key found here
  · rw [tables_withTable_ne same] at here
    exact typed other key found here

theorem Typed.add {new : Row} {table : Table Row} (typed : store.Typed)
    (added : (store.tables kind).add id new = some table) (text : storableText id = true)
    (fits : Fits kind new) : (store.withTable kind table).Typed := by
  intro other key found here
  by_cases same : other = kind
  · subst same
    rw [tables_withTable] at here
    by_cases at_id : key = id
    · subst at_id
      rw [Table.get_add added] at here
      exact Option.some.inj here ▸ ⟨text, fits⟩
    · rw [Table.get_add_ne added at_id] at here
      exact typed other key found here
  · rw [tables_withTable_ne same] at here
    exact typed other key found here

theorem update_typed {columns : List String} {value : String → Value} (typed : store.Typed)
    (updated : update kind id columns value store = .ok store') : store'.Typed := by
  cases there : (store.tables kind).get id with
  | none =>
    simp only [update, there, Except.ok.injEq] at updated
    exact updated ▸ typed
  | some row =>
    obtain ⟨new, new_row, checked, rfl⟩ := update_ok there updated
    exact typed.set there ((wrote new_row).fits (typed kind id row there).2 checked)

theorem default_fits (k : String) : (column kind k).write (default kind k) = some (default kind k) := by
  unfold default
  split
  · simp [column, Column.write]
  · have text : column kind "status" = .text := by cases kind <;> simp [column]
    rw [text]
    decide
  · simp [Column.write]

theorem insert_typed {columns : List String} {value : String → Value} (typed : store.Typed)
    (inserted : insert kind id columns value store = .ok store') : store'.Typed := by
  obtain ⟨row, table, text, new_row, present, checked, added, rfl⟩ := insert_ok inserted
  refine typed.add added text ⟨fun k => ?_, present, checked⟩
  by_cases mem : k ∈ columns
  · exact write_kept ((wrote new_row).column k mem)
  · rw [(wrote new_row).other k mem]
    exact default_fits k

end Store

end OpenVibeHost.Catalog
