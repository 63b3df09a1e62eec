import OpenVibeHost.DeliveryOrder

/-! When a plan's price counts as stale (server/catalog/pricing.js), and what an item that
was just retrieved makes of that: the staleness rule takes `checked_at` for the time of the
last check, and each mapping chooses which of its item's times becomes it. -/
namespace OpenVibeHost.Catalog

namespace Pricing

/-- `STALE_AFTER_MS`. -/
def staleAfterMs : Rat := 365 * 86400000

/-- `toMs`. -/
def toMs (rt : Runtime) : Json → Option Rat
  | .null => none
  | .num x => some x
  | v => (rt.parseDate v).map fun t => (t : Rat)

/-- `isStale`: the price was last checked more than a year ago. -/
def isStale (rt : Runtime) (checkedAt : Json) (now : Int) : Bool :=
  match toMs rt checkedAt with
  | some t => staleAfterMs < now - t
  | none => false

end Pricing

open Pricing (staleAfterMs isStale)

/-- `p.checked_at` of a plan that was read: a bigint column, handed over as a number. -/
def Row.checkedAt (row : Row) : Json :=
  match row "checked_at" with
  | .num x => .num x
  | _ => .null

variable {rt : Runtime} {store store' : Store} {d : Delivery}

/-! ### The times of an item -/

/-- When the source was asked. -/
def retrievedAt (rt : Runtime) (item : Json) : Option Int :=
  rt.parseDate (Mapping.get (Mapping.get item "provenance") "retrieved_at")

/-- When the price of an Azure row took effect. -/
def effectiveStart (rt : Runtime) (item : Json) : Option Int :=
  if Mapping.textOr (Mapping.get item "source_key") = "azure-retail-prices" then
    Mapping.effective rt (Mapping.get item "fields")
  else none

/-- Azure's mapping dates a price by when it took effect, the others by when it was retrieved. -/
theorem mapItem_checkedAt {item : Json} {v : Mapping.Mapped} (mapped : Mapping.mapItem rt item = .ok (some v)) :
    ∃ retrieved, retrievedAt rt item = some retrieved ∧
      v.checkedAt = (effectiveStart rt item).getD retrieved := by
  unfold Mapping.mapItem at mapped
  dsimp only at mapped
  split at mapped
  · cases mapped
  · simp only [throw, throwThe, MonadExceptOf.throw, bind, Except.bind] at mapped
    split at mapped
    · cases mapped
    · split at mapped
      · rename_i retrieved _ asked _
        refine ⟨retrieved, asked, ?_⟩
        split at mapped
        · cases mapped
        · split at mapped
          · cases mapped
          · split at mapped
            · cases mapped
              unfold effectiveStart
              dsimp only
              by_cases azure : Mapping.textOr (Mapping.get item "source_key") = "azure-retail-prices"
              · rw [if_pos azure, if_pos azure]
                unfold Mapping.azureKey
                dsimp only
                split <;> rfl
              · rw [if_neg azure, if_neg azure]
                rfl
            · cases mapped
      · cases mapped

/-! ### The plan an item produced -/

/-- The plan that an item is about. -/
def produced (rt : Runtime) (item : Json) (store : Store) : Option (String × Row) :=
  match Mapping.mapItem rt item with
  | .ok (some v) => planAt store v.provider.slug v.externalId
  | _ => none

/-- A feed of plans; the feeds of TLD prices have a table of their own. -/
def fromPlanFeed (item : Json) : Bool :=
  (Domains.sources.lookup (Mapping.textOr (Mapping.get item "source_key"))).isNone

/-- The plan of an item that was applied is stored, checked when its mapping says. -/
theorem produced_of_applied (feed : fromPlanFeed d.item)
    (applied : (applyItem rt d).alone store = (store', .ok .applied)) :
    ∃ id row retrieved, produced rt d.item store' = some (id, row) ∧ retrievedAt rt d.item = some retrieved ∧
      row "checked_at" = .num ((effectiveStart rt d.item).getD retrieved) := by
  unfold applyItem at applied
  dsimp only at applied
  rw [if_neg (Option.not_isSome_iff_eq_none.mpr (Option.isNone_iff_eq_none.mp feed))] at applied
  split at applied
  · cases applied
  · rw [Session.alone_ofExcept] at applied
    cases mapped : Mapping.mapItem rt d.item with
    | error fault =>
      rw [mapped] at applied
      cases applied
    | ok answer =>
      rw [mapped] at applied
      cases answer with
      | none => cases applied
      | some v =>
        obtain ⟨retrieved, asked, checked⟩ := mapItem_checkedAt mapped
        obtain ⟨providerId, provider, id, row, found, stored, states⟩ := applyPlan_states applied
        refine ⟨id, row, retrieved, ?_, asked, checked ▸ states.checkedAt⟩
        unfold produced
        rw [mapped]
        exact planAt_of found stored

/-! ### Staleness -/

/-- Staleness is measured from a time. -/
def MeasuredFrom (rt : Runtime) (row : Row) (since : Int) : Prop :=
  ∀ now, isStale rt row.checkedAt now ↔ staleAfterMs < now - since

theorem measuredFrom_checked {row : Row} {checked : Int} (stored : row "checked_at" = .num checked) :
    MeasuredFrom rt row checked := by
  intro now
  simp [isStale, Row.checkedAt, stored, Pricing.toMs]

/-- Two times from which staleness is measured are one. -/
theorem MeasuredFrom.unique {row : Row} {since since' : Int} (first : MeasuredFrom rt row since)
    (second : MeasuredFrom rt row since') : since = since' := by
  have earliest {a b : Int} (first : MeasuredFrom rt row a) (second : MeasuredFrom rt row b) : b ≤ a := by
    -- A millisecond after the year that begins at the one, the other's year is over as well.
    have stale : isStale rt row.checkedAt (a + 365 * 86400000 + 1) = true := by
      refine (first _).mpr ?_
      unfold staleAfterMs
      push_cast
      linarith
    have passed := (second _).mp stale
    unfold staleAfterMs at passed
    push_cast at passed
    have later : (b : Rat) < a + 1 := by linarith
    have later_int : b < a + 1 := by exact_mod_cast later
    omega
  exact le_antisymm (earliest second first) (earliest first second)

/-- The item was retrieved within the year before this time. -/
def RetrievedWithinYear (rt : Runtime) (item : Json) (now : Int) : Prop :=
  ∃ retrieved, retrievedAt rt item = some retrieved ∧ now - retrieved ≤ staleAfterMs

/-- An item retrieved within the last year was applied. Its plan is not stale just where the
item is no row of Azure's whose price took effect more than a year ago, and its plan's
staleness is measured from when the item was retrieved just where the item is no row of
Azure's whose price took effect at another time. -/
theorem produced_fresh_iff (rt : Runtime) (d : Delivery) (store store' : Store) (now : Int)
    (feed : fromPlanFeed d.item) (applied : (applyItem rt d).alone store = (store', .ok .applied))
    (recent : RetrievedWithinYear rt d.item now) :
    ∃ id row, produced rt d.item store' = some (id, row) ∧
      (isStale rt row.checkedAt now = false ↔
        ∀ effective, effectiveStart rt d.item = some effective → now - effective ≤ staleAfterMs) ∧
      ((∃ retrieved, retrievedAt rt d.item = some retrieved ∧ MeasuredFrom rt row retrieved) ↔
        ∀ effective, effectiveStart rt d.item = some effective → retrievedAt rt d.item = some effective) := by
  obtain ⟨id, row, retrieved, stored, asked, checked⟩ := produced_of_applied feed applied
  obtain ⟨retrieved', asked', within⟩ := recent
  obtain rfl : retrieved = retrieved' := Option.some.inj (asked.symm.trans asked')
  have since : MeasuredFrom rt row _ := measuredFrom_checked checked
  refine ⟨id, row, stored, ?_, ?_⟩
  · rw [← Bool.not_eq_true, since now, not_lt]
    cases effectiveStart rt d.item with
    | none => simpa using within
    | some effective => simp
  · rw [asked]
    constructor
    · rintro ⟨retrieved', same, measured⟩ effective took
      cases same
      rw [took] at since
      rw [← since.unique measured]
      rfl
    · intro same
      refine ⟨retrieved, rfl, ?_⟩
      cases took : effectiveStart rt d.item with
      | none => rwa [took] at since
      | some effective =>
        cases same effective took
        rwa [took] at since

/-! ### A virtual machine of Azure's -/

/-- An hourly price whose row says when it took effect, retrieved on 2026-10-30. -/
def azureItem (effective : String) : Json :=
  .obj [("id", .str "itm_3"), ("source_key", .str "azure-retail-prices"), ("category", .str "hosting"),
    ("identity", .str "DZH318Z08M9W/006F"), ("title", .str "Standard_D8s_v5"),
    ("fields", .obj [("region", .str "eastus"), ("price", .num 0.96), ("unit", .str "1 Hour"),
      ("currency", .str "USD"), ("effective_start", .str effective)]),
    ("provenance", .obj [("retrieved_at", .str "2026-10-30T12:00:00Z"),
      ("first_seen_at", .str "2026-10-30T12:00:00Z")])]

def azureRuntime : Runtime :=
  { exactRuntime with
    parseDate
      | .str "2021-11-01T00:00:00Z" => some 1635724800000
      | .str "2026-06-01T00:00:00Z" => some 1780272000000
      | .str "2026-10-30T12:00:00Z" => some 1793361600000
      | _ => none }

/-- It is delivered, and its plan read, at noon of that day. -/
def azureNoon : Int := 1793361600000

def azureDelivery (effective : String) : Delivery :=
  deliveryOf (azureItem effective) azureNoon (by decide)

def azureStore (effective : String) : Store :=
  ((applyItem azureRuntime (azureDelivery effective)).alone staffStore).1

theorem azureItem_recent (effective : String) : RetrievedWithinYear azureRuntime (azureItem effective) azureNoon := by
  refine ⟨1793361600000, rfl, ?_⟩
  norm_num [azureNoon, staleAfterMs]

theorem azure_fresh :
    ∃ id row, produced azureRuntime (azureItem "2026-06-01T00:00:00Z") (azureStore "2026-06-01T00:00:00Z") =
      some (id, row) ∧ isStale azureRuntime row.checkedAt azureNoon = false := by
  obtain ⟨id, row, stored, fresh, -⟩ := produced_fresh_iff azureRuntime (azureDelivery "2026-06-01T00:00:00Z")
    staffStore (azureStore "2026-06-01T00:00:00Z") azureNoon (by decide +kernel)
    (Prod.ext rfl (by decide +kernel)) (azureItem_recent _)
  refine ⟨id, row, stored, fresh.mpr fun effective took => ?_⟩
  have june : effectiveStart azureRuntime (azureItem "2026-06-01T00:00:00Z") = some 1780272000000 := by decide +kernel
  obtain rfl : 1780272000000 = effective := Option.some.inj (june.symm.trans took)
  norm_num [azureNoon, staleAfterMs]

/-- A price that took effect in 2021 and was retrieved a moment ago is stale. -/
theorem azure_stale :
    ((applyItem azureRuntime (azureDelivery "2021-11-01T00:00:00Z")).alone staffStore).2 = .ok .applied ∧
    RetrievedWithinYear azureRuntime (azureItem "2021-11-01T00:00:00Z") azureNoon ∧
    ∃ entry, produced azureRuntime (azureItem "2021-11-01T00:00:00Z") (azureStore "2021-11-01T00:00:00Z") = some entry ∧
      isStale azureRuntime entry.2.checkedAt azureNoon = true := by
  refine ⟨by decide +kernel, azureItem_recent _, ?_⟩
  have stale : (produced azureRuntime (azureItem "2021-11-01T00:00:00Z") (azureStore "2021-11-01T00:00:00Z")).any
      (fun entry => isStale azureRuntime entry.2.checkedAt azureNoon) = true := by
    decide +kernel
  exact (Option.any_eq_true _ _).mp stale

end OpenVibeHost.Catalog
